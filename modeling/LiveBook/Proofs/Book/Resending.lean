import LiveBook.Proofs.Book.Placement

/-!
# A first book that comes again

A book is built from a snapshot, and the same snapshot comes once more among the diffs that follow
it. Then the book is built anew, and of the diffs that came before the snapshot those are applied
again that the window still holds. So the book is that of the snapshot with all diffs, but for the
ones that had left the window (`LiveBook.BookKeeper.book_of_resent`). Nothing is lost if no more
diffs come before the snapshot than fit into the window.
-/

namespace LiveBook

variable {policy : StalenessPolicy} {b : Book} {s : Snapshot} {ds before after : List Diff} {n : ℕ}

/-! ### Diffs in ascending order -/

/-- **A stream of diffs** above a sequence number: valid diffs in ascending order. -/
structure Streams (n : ℕ) (ds : List Diff) : Prop where
  ascending : ds.Pairwise (·.sequence < ·.sequence)
  above : ∀ d ∈ ds, n < d.sequence
  valid : ∀ d ∈ ds, d.IsValid

namespace Streams

theorem sublist {ds' : List Diff} (h : Streams n ds) (hsub : ds'.Sublist ds) : Streams n ds' :=
  ⟨h.ascending.sublist hsub, fun d hd => h.above d (hsub.subset hd),
    fun d hd => h.valid d (hsub.subset hd)⟩

theorem tail {d : Diff} (h : Streams n (d :: ds)) : Streams n ds :=
  h.sublist (List.sublist_cons_self d ds)

/-- What comes later is above whatever came before. -/
theorem of_append_right (h : Streams n (before ++ after)) :
    Streams (newest n (before.map Diff.sequence)) after := by
  obtain ⟨-, hafter, hlt⟩ := List.pairwise_append.mp h.ascending
  refine ⟨hafter, fun d hd => newest_lt_iff.mpr ⟨h.above d (List.mem_append_right _ hd), ?_⟩,
    fun d hd => h.valid d (List.mem_append_right _ hd)⟩
  intro x hx
  obtain ⟨e, he, rfl⟩ := List.mem_map.mp hx
  exact hlt e he d hd

/-- **All of them are accepted.** -/
theorem pick (h : Streams n ds) (policy : StalenessPolicy) : policy.pick n ds = ds := by
  induction ds generalizing n with
  | nil => rfl
  | cons d ds ih =>
    rw [StalenessPolicy.pick_cons_of_pos ⟨h.above d (by simp), h.valid d (by simp)⟩, ih]
    refine ⟨h.tail.ascending, fun e he => ?_, h.tail.valid⟩
    cases policy with
    | snapshotOnly => exact h.tail.above e he
    | strictlyIncreasing => exact (List.pairwise_cons.mp h.ascending).1 e he

/-- A book that has merged the first of them takes the others. -/
theorem pick_mergeAll (h : Streams b.watermark (before ++ after)) (policy : StalenessPolicy) :
    policy.pick ((b.mergeAll before).staleUpTo policy) after = after := by
  have hafter := h.of_append_right
  rw [← Book.watermark_mergeAll] at hafter
  refine pick ⟨hafter.ascending, fun d hd => lt_of_le_of_lt ?_ (hafter.above d hd),
    hafter.valid⟩ policy
  cases policy with
  | snapshotOnly => exact Book.snapshotSequence_le_watermark _
  | strictlyIncreasing => exact le_rfl

end Streams

/-- The last diff of a book is the last of the diffs that were merged. -/
theorem Book.lastDiff_mergeAll (hb : b.lastDiff = none)
    (h : ds.Pairwise (·.sequence < ·.sequence)) :
    (b.mergeAll ds).lastDiff = ds.getLast?.map Diff.sequence := by
  induction ds using List.reverseRecOn with
  | nil => exact hb
  | append_singleton ds d ih =>
    obtain ⟨hds, -, hlt⟩ := List.pairwise_append.mp h
    rw [mergeAll_append, List.getLast?_concat]
    refine congrArg some (Nat.max_eq_left ?_)
    rw [ih hds]
    cases hlast : ds.getLast? with
    | none => exact Nat.zero_le _
    | some e => exact (hlt e (List.mem_of_getLast? hlast) d (by simp)).le

/-- Nor does the last diff of a book depend on those that were left out before it. -/
theorem Book.lastDiff_mergeAll_drop (hb : b.lastDiff = none)
    (h : ds.Pairwise (·.sequence < ·.sequence)) {k : ℕ} (hk : ds ≠ [] → k < ds.length) :
    (b.mergeAll (ds.drop k)).lastDiff = ds.getLast?.map Diff.sequence := by
  rw [lastDiff_mergeAll hb (h.sublist (List.drop_sublist k ds)), List.getLast?_drop]
  split
  next hle =>
    have hnone : ds = [] := by
      by_contra hne
      exact absurd (hk hne) (Nat.not_lt.mpr hle)
    rw [hnone]
    rfl
  next => rfl

/-! ### The snapshot among them -/

@[simp] theorem diffsOf_map_diff (ds : List Diff) : diffsOf (ds.map .diff) = ds := by
  induction ds with
  | nil => rfl
  | cons d ds ih => exact congrArg (d :: ·) ih

@[simp] theorem snapshotsOf_map_diff (ds : List Diff) : snapshotsOf (ds.map .diff) = [] := by
  induction ds with
  | nil => rfl
  | cons d ds ih => exact ih

/-- Messages without a snapshot are diffs. -/
theorem eq_map_diffsOf {ms : List BookMessage} (h : snapshotsOf ms = []) :
    ms = (diffsOf ms).map .diff := by
  induction ms with
  | nil => rfl
  | cons x ms ih =>
    cases x with
    | diff d => exact congrArg _ (ih h)
    | snapshot s => cases h

/-- Messages with one snapshot are a snapshot that is put among diffs. -/
theorem exists_placed {ms : List BookMessage} (h : snapshotsOf ms = [s]) :
    ∃ before after, ms = BookKeeper.placed before s after ∧ diffsOf ms = before ++ after := by
  induction ms with
  | nil => cases h
  | cons x ms ih =>
    cases x with
    | diff d =>
      obtain ⟨before, after, rfl, hdiffs⟩ := ih h
      exact ⟨d :: before, after, rfl, congrArg (d :: ·) hdiffs⟩
    | snapshot s' =>
      obtain ⟨rfl, hnone⟩ := List.cons.inj h
      exact ⟨[], diffsOf ms, congrArg _ (eq_map_diffsOf hnone), rfl⟩

/-- What is left of the diffs before a snapshot, and the diffs after it. -/
theorem rtake_append_eq_drop {α : Type} (xs ys : List α) (c : ℕ) :
    xs.rtake c ++ ys = (xs ++ ys).drop (xs.length - c) := by
  rw [List.rtake, List.drop_append_of_le_length (Nat.sub_le _ _)]

/-- A book is built from valid levels only. -/
theorem Book.isValid_of_ofSnapshot (h : Book.ofSnapshot s = .ok b) : s.IsValid := by
  refine (Book.validate_eq_ok_iff (b := .empty s.market) (n := s.sequence)).mp ?_
  unfold Book.ofSnapshot Book.applySnapshot at h
  cases hv : (Book.empty s.market).validate s.bids s.asks s.sequence with
  | error e => simp [hv, bind, Except.bind] at h
  | ok u => rfl

namespace BookKeeper

/-- The window holds the last of the diffs that came. -/
theorem recent_of_streams (policy : StalenessPolicy) (window : ℕ)
    (streams : Streams (b.staleUpTo policy) ds) :
    ((ofBook b window).processAll policy (ds.map .diff)).recent.toList =
      ds.rtake (max window 1) := by
  rw [toList_recent_ofBook, accepted_diffs]
  exact congrArg (List.rtake · _) (streams.pick policy)

/-- The diffs that came were merged. -/
theorem book_of_streams (policy : StalenessPolicy) (window : ℕ)
    (streams : Streams (b.staleUpTo policy) ds) :
    ((ofBook b window).processAll policy (ds.map .diff)).book = b.mergeAll ds := by
  rw [book_diffs]
  exact congrArg b.mergeAll (streams.pick policy)

/-- **The book of a snapshot that comes again among the diffs** is that of the snapshot with the
diffs that the window held when it came, and then those that came after it. -/
theorem book_of_resent (policy : StalenessPolicy) (window : ℕ) (hb : Book.ofSnapshot s = .ok b)
    (streams : Streams s.sequence (before ++ after)) :
    ((ofBook b window).processAll policy (placed before s after)).book =
      b.mergeAll ((before ++ after).drop (before.length - max window 1)) := by
  have hbook := Book.eq_of_ofSnapshot hb
  have hlast := Book.lastDiff_ofSnapshot hb
  have hsequence : b.snapshotSequence = s.sequence := hbook ▸ rfl
  have hstands : b.staleUpTo policy = s.sequence :=
    (Book.staleUpTo_of_lastDiff hlast policy).trans hsequence
  have hbefore : Streams s.sequence before := streams.sublist (List.sublist_append_left _ _)
  have hdiffs := book_of_streams policy window (hstands ▸ hbefore)
  have hrecent := recent_of_streams policy window (hstands ▸ hbefore)
  have hmem : ∀ d ∈ before.rtake (max window 1), d ∈ before := fun d hd => List.mem_of_mem_drop hd
  -- whatever the window holds is newer than the snapshot, and so is applied again
  have hnewer : ((ofBook b window).processAll policy (before.map .diff)).newer s.sequence =
      before.rtake (max window 1) := by
    rw [newer, hrecent, List.filter_eq_self]
    exact fun d hd => by simpa using hbefore.above d (hmem d hd)
  have hadmits : ((ofBook b window).processAll policy (before.map .diff)).Admits s := by
    refine ⟨?_, Book.isValid_of_ofSnapshot hb,
      fun d hd _ => hbefore.valid d (hmem d (hrecent ▸ hd))⟩
    rw [hdiffs, Book.market_mergeAll, hbook]
    rfl
  have hrestored : (b.mergeAll before).restored s (before.rtake (max window 1)) =
      b.mergeAll (before.rtake (max window 1)) := by
    rw [Book.restored, Book.replaceLevels_mergeAll, hbook]
    rfl
  rw [placed, processAll_append, processAll_cons, process_snapshot, if_pos hadmits, hnewer,
    book_diffs, hdiffs, hrestored, ← rtake_append_eq_drop, Book.mergeAll_append]
  have hmark : b.watermark = s.sequence := by simp [Book.watermark, hlast, hsequence]
  refine congrArg _ (Streams.pick_mergeAll (b := b) ?_ policy)
  rw [hmark, rtake_append_eq_drop]
  exact streams.sublist (List.drop_sublist _ _)

end BookKeeper

end LiveBook
