import LiveBook.Proofs.Book.Watermark

/-!
# What is stale stays stale

Whether a diff is stale is asked twice: when it comes in, and again when its turn comes. In
between, the keeper takes other messages, among them snapshots, which begin the count of
the applied diffs anew. What is shown here is that the first answer holds nevertheless
(`LiveBook.BookKeeper.isStale_processAll`), provided that the snapshots do not go back. So a
diff that is dropped at the first question would have been dropped at the second one
(`LiveBook.BookKeeper.processAll_stale`).

Under the strict policy this rests on the remembered diffs. The diff that made the watermark
was the last one to be applied, so it is remembered, whatever the size of the window
(`LiveBook.BookKeeper.Remembers`), and a snapshot below the watermark applies it again.

None of this depends on the trades of a book, which come from elsewhere; they are left out
by `LiveBook.BookKeeper.untraded`.
-/

namespace LiveBook

/-! ### Snapshots that do not go back -/

/-- The snapshots among some messages do not go back, and not below `n`. -/
def Ascends (n : ℕ) (ms : List BookMessage) : Prop :=
  (n :: (snapshotsOf ms).map Snapshot.sequence).Pairwise (· ≤ ·)

theorem ascends_cons_diff {n : ℕ} {d : Diff} {ms : List BookMessage} :
    Ascends n (.diff d :: ms) ↔ Ascends n ms := Iff.rfl

theorem ascends_cons_snapshot {n : ℕ} {s : Snapshot} {ms : List BookMessage} :
    Ascends n (.snapshot s :: ms) ↔ n ≤ s.sequence ∧ Ascends s.sequence ms := by
  constructor
  · intro h
    obtain ⟨hle, hrest⟩ := List.pairwise_cons.mp h
    exact ⟨hle _ List.mem_cons_self, hrest⟩
  · rintro ⟨hle, hrest⟩
    refine List.pairwise_cons.mpr ⟨fun x hx => ?_, hrest⟩
    rcases List.mem_cons.mp hx with rfl | hx
    · exact hle
    · exact hle.trans ((List.pairwise_cons.mp hrest).1 x hx)

theorem Ascends.mono {n n' : ℕ} {ms : List BookMessage} (h : Ascends n' ms) (hn : n ≤ n') :
    Ascends n ms := by
  obtain ⟨hle, hrest⟩ := List.pairwise_cons.mp h
  exact List.pairwise_cons.mpr ⟨fun x hx => hn.trans (hle x hx), hrest⟩

/-- Messages that are left out do not matter. -/
theorem Ascends.sublist {n : ℕ} {ms ms' : List BookMessage} (h : Ascends n ms)
    (hs : ms'.Sublist ms) : Ascends n ms' :=
  List.Pairwise.sublist (((hs.filterMap _).map _).cons_cons n) h

namespace Book

/-! ### Books but for their trades -/

/-- A book without what it says about trades. -/
def untraded (b : Book) : Book :=
  { b with lastTrade := none, tradedAt := none, refreshedAt := none }

@[simp] theorem isStale_untraded (b : Book) (policy : StalenessPolicy) (n : ℕ) :
    b.untraded.isStale policy n = b.isStale policy n := rfl

/-- Books that differ in trades only have the same levels and the same sequence numbers. -/
theorem eq_of_untraded {b b' : Book} (h : b.untraded = b'.untraded) :
    b.bids = b'.bids ∧ b.asks = b'.asks ∧ b.snapshotSequence = b'.snapshotSequence ∧
      b.lastDiff = b'.lastDiff := by
  obtain ⟨-, hbids, hasks, hsnapshot, hlast, -⟩ := Book.mk.inj h
  exact ⟨hbids, hasks, hsnapshot, hlast⟩

theorem mergeAll_untraded (b : Book) (diffs : List Diff) :
    b.untraded.mergeAll diffs = (b.mergeAll diffs).untraded := by
  induction diffs generalizing b with
  | nil => rfl
  | cons d diffs ih => exact ih (b.mergeDiff d.bids d.asks d.sequence)

theorem restored_untraded (b : Book) (s : Snapshot) (newer : List Diff) :
    b.untraded.restored s newer = (b.restored s newer).untraded :=
  mergeAll_untraded (b.replaceLevels s.bids s.asks s.sequence) newer

/-! ### Books that were just built -/

/-- What a snapshot is built into, if it is accepted. -/
theorem eq_of_ofSnapshot {s : Snapshot} {b : Book} (h : ofSnapshot s = .ok b) :
    b = (empty s.market).replaceLevels s.bids s.asks s.sequence := by
  unfold ofSnapshot applySnapshot at h
  cases hv : (empty s.market).validate s.bids s.asks s.sequence with
  | error e => simp [hv, bind, Except.bind] at h
  | ok u =>
    rw [hv] at h
    exact (Except.ok.inj h).symm

/-- A book that was just built from a snapshot reflects no diff. -/
theorem lastDiff_ofSnapshot {s : Snapshot} {b : Book} (h : ofSnapshot s = .ok b) :
    b.lastDiff = none :=
  eq_of_ofSnapshot h ▸ rfl

end Book

namespace BookKeeper

/-- A keeper without what its book says about trades. -/
def untraded (k : BookKeeper) : BookKeeper := { k with book := k.book.untraded }

variable (policy : StalenessPolicy)

/-! ### The keeper that a message leads to -/

theorem process_diff (k : BookKeeper) (d : Diff) :
    (k.process policy (.diff d)).1 =
      if k.book.isStale policy d.sequence = false ∧ d.IsValid then
        ⟨k.book.mergeDiff d.bids d.asks d.sequence, k.recent.push d⟩
      else k := by
  rcases k.processDiff_cases policy d with ⟨hs, h⟩ | ⟨-, hv, e, h⟩ | ⟨hs, hv, h⟩
  · rw [h, if_neg (fun hno => Bool.false_ne_true (hno.1.symm.trans hs))]
  · rw [h, if_neg (fun hno => hv hno.2)]
  · rw [h, if_pos ⟨hs, hv⟩]

theorem process_snapshot (k : BookKeeper) (s : Snapshot) :
    (k.process policy (.snapshot s)).1 =
      if k.Admits s then ⟨k.book.restored s (k.newer s.sequence), k.recent⟩ else k := by
  rcases k.processSnapshot_cases policy s with ⟨hno, e, h⟩ | ⟨hyes, h⟩
  · rw [h, if_neg hno]
  · rw [h, if_pos hyes]

/-- **Trades do not matter to messages.** -/
theorem process_untraded (k : BookKeeper) (m : BookMessage) :
    (k.untraded.process policy m).1 = (k.process policy m).1.untraded := by
  cases m with
  | diff d =>
    rw [process_diff, process_diff, apply_ite untraded]
    rfl
  | snapshot s =>
    rw [process_snapshot, process_snapshot, apply_ite untraded]
    unfold untraded
    dsimp only
    rw [Book.restored_untraded]
    rfl

theorem processAll_untraded (k : BookKeeper) (ms : List BookMessage) :
    k.untraded.processAll policy ms = (k.processAll policy ms).untraded := by
  induction ms generalizing k with
  | nil => rfl
  | cons m ms ih => rw [processAll_cons, processAll_cons, process_untraded, ih]

/-- Trades do not matter to staleness, either. -/
theorem isStale_congr {policy : StalenessPolicy} {k k' : BookKeeper} {n : ℕ}
    (h : k.untraded = k'.untraded) : k.book.isStale policy n = k'.book.isStale policy n := by
  have hbook : k.book.untraded = k'.book.untraded := congrArg BookKeeper.book h
  rw [← Book.isStale_untraded, hbook, Book.isStale_untraded]

/-! ### The sequence number of the snapshot -/

/-- The snapshots that are still to come do not lie below the book, either. -/
theorem ascends_process {k : BookKeeper} {m : BookMessage} {ms : List BookMessage}
    (h : Ascends k.book.snapshotSequence (m :: ms)) :
    k.book.snapshotSequence ≤ (k.process policy m).1.book.snapshotSequence ∧
      Ascends (k.process policy m).1.book.snapshotSequence ms := by
  cases m with
  | diff d =>
    rw [ascends_cons_diff] at h
    rw [process_diff]
    split
    · exact ⟨le_rfl, h⟩
    · exact ⟨le_rfl, h⟩
  | snapshot s =>
    rw [ascends_cons_snapshot] at h
    rw [process_snapshot]
    split
    · rw [Book.restored, Book.snapshotSequence_mergeAll]
      exact h
    · exact ⟨le_rfl, h.2.mono h.1⟩

/-! ### What the strict policy remembers -/

/-- The watermark is from the snapshot or from a remembered diff. -/
def Remembers (k : BookKeeper) : Prop :=
  k.book.watermark = k.book.snapshotSequence ∨
    ∃ d ∈ k.recent.toList, d.sequence = k.book.watermark

/-- **Under the strict policy the diff that made the watermark is remembered.** -/
theorem Remembers.process {k : BookKeeper} (hk : k.Remembers) (m : BookMessage) :
    (k.process .strictlyIncreasing m).1.Remembers := by
  cases m with
  | diff d =>
    rw [process_diff]
    split
    next h =>
      have hlt : k.book.watermark < d.sequence := by
        rw [← Nat.not_le, ← Book.isStale_strictlyIncreasing, h.1]
        exact Bool.false_ne_true
      refine Or.inr ⟨d, List.mem_append_right _ (List.mem_singleton_self d), ?_⟩
      rw [Book.watermark_mergeDiff, Nat.max_eq_right hlt.le]
    next => exact hk
  | snapshot s =>
    by_cases h : k.Admits s
    · -- the new watermark is that of the snapshot or of a diff in the window, which stays
      have hmark := watermark_process_snapshot .strictlyIncreasing h
      rw [process_snapshot, if_pos h] at hmark ⊢
      rcases newest_eq_or_mem s.sequence (k.recent.toList.map Diff.sequence) with hn | hn
      · refine Or.inl ?_
        rw [hmark, hn, Book.restored, Book.snapshotSequence_mergeAll]
        rfl
      · obtain ⟨d, hd, hseq⟩ := List.mem_map.mp hn
        exact Or.inr ⟨d, hd, hseq.trans hmark.symm⟩
    · rw [process_snapshot, if_neg h]
      exact hk

/-- A keeper that has begun with a book just built from a snapshot. -/
theorem remembers_ofBook {b : Book} (h : b.lastDiff = none) (window : ℕ) :
    (ofBook b window).Remembers := by
  refine Or.inl ?_
  simp [Book.watermark, ofBook, h]

/-- Under the strict policy only a snapshot below that of the book takes the book back. -/
theorem watermark_le_process {k : BookKeeper} (hk : k.Remembers) {m : BookMessage}
    {ms : List BookMessage} (h : Ascends k.book.snapshotSequence (m :: ms)) :
    k.book.watermark ≤ (k.process .strictlyIncreasing m).1.book.watermark := by
  rw [← Nat.not_lt, watermark_process_lt_iff]
  rintro ⟨s, rfl, -, hs, hd⟩
  rw [ascends_cons_snapshot] at h
  -- either the snapshot is not below the watermark, or the diff that made it is applied again
  rcases hk with hmark | ⟨d, hmem, hseq⟩
  · rw [hmark] at hs
    exact Nat.lt_irrefl _ (h.1.trans_lt hs)
  · exact Nat.lt_irrefl _ (hseq ▸ hd d hmem)

/-! ### Staleness -/

variable {policy : StalenessPolicy}

/-- **What is stale before a message is stale after it.** -/
theorem isStale_process {k : BookKeeper} (hk : policy = .strictlyIncreasing → k.Remembers)
    {m : BookMessage} {ms : List BookMessage} {n : ℕ}
    (h : Ascends k.book.snapshotSequence (m :: ms)) (hstale : k.book.isStale policy n = true) :
    (k.process policy m).1.book.isStale policy n = true := by
  cases policy with
  | snapshotOnly =>
    rw [Book.isStale_snapshotOnly] at hstale ⊢
    exact hstale.trans (ascends_process _ h).1
  | strictlyIncreasing =>
    rw [Book.isStale_strictlyIncreasing] at hstale ⊢
    exact hstale.trans (watermark_le_process (hk rfl) h)

/-- **What is stale at some time is stale ever after,** as long as the snapshots do not go
back. -/
theorem isStale_processAll {k : BookKeeper} (hk : policy = .strictlyIncreasing → k.Remembers)
    {ms : List BookMessage} {n : ℕ} (h : Ascends k.book.snapshotSequence ms)
    (hstale : k.book.isStale policy n = true) :
    (k.processAll policy ms).book.isStale policy n = true := by
  induction ms generalizing k with
  | nil => exact hstale
  | cons m ms ih =>
    refine ih ?_ (ascends_process policy h).2 (isStale_process hk h hstale)
    rintro rfl
    exact (hk rfl).process m

theorem remembers_processAll {k : BookKeeper} (hk : policy = .strictlyIncreasing → k.Remembers)
    (ms : List BookMessage) :
    policy = .strictlyIncreasing → (k.processAll policy ms).Remembers := by
  induction ms generalizing k with
  | nil => exact hk
  | cons m ms ih =>
    refine ih ?_
    rintro rfl
    exact (hk rfl).process m

theorem ascends_processAll {k : BookKeeper} {ms ms' : List BookMessage}
    (h : Ascends k.book.snapshotSequence (ms ++ ms')) :
    Ascends (k.processAll policy ms).book.snapshotSequence ms' := by
  induction ms generalizing k with
  | nil => exact h
  | cons m ms ih => exact ih (ascends_process policy h).2

/-- **A diff that was stale once changes nothing later on.** -/
theorem processAll_stale {k : BookKeeper} (hk : policy = .strictlyIncreasing → k.Remembers)
    {done more : List BookMessage} {d : Diff} (h : Ascends k.book.snapshotSequence (done ++ more))
    (hstale : (k.processAll policy done).book.isStale policy d.sequence = true) :
    k.processAll policy (done ++ more ++ [.diff d]) = k.processAll policy (done ++ more) := by
  have hlater := isStale_processAll (remembers_processAll hk done) (ascends_processAll h) hstale
  rw [← processAll_append] at hlater
  rw [processAll_append _ _ (done ++ more), processAll_cons, processAll_nil, process_diff,
    if_neg fun hno => Bool.false_ne_true (hno.1.symm.trans hlater)]

end BookKeeper

end LiveBook
