import LiveBook.Proofs.Book.Staleness

/-!
# What is safe about a keeper

Two facts hold of a keeper whatever messages it gets, also when some of them are refused
(`LiveBook.BookKeeper.Safe`): the last diff that its book counts is newer than the book's
snapshot, and all diffs in the window are valid. Nothing in the types says the second one,
and a restore relies on it: it validates the diffs that it applies again before it touches
the book, and would refuse a good snapshot for the sake of a bad diff. As it is, a
snapshot of the market is refused only for its own levels
(`LiveBook.BookKeeper.Safe.refuses_iff`).
-/

namespace LiveBook

/-! ### The last diff is newer than the snapshot -/

namespace Book

/-- The last diff of a book, if there is one, is newer than its snapshot. -/
def IsAhead (b : Book) : Prop := ∀ n, b.lastDiff = some n → b.snapshotSequence < n

theorem isAhead_of_lastDiff {b : Book} (h : b.lastDiff = none) : b.IsAhead := by
  intro n hn
  rw [h] at hn
  cases hn

/-- A diff that is newer than the snapshot puts the book ahead of it. -/
theorem isAhead_mergeDiff {b : Book} {n : ℕ} (h : b.snapshotSequence < n) (bids asks : List Level) :
    (b.mergeDiff bids asks n).IsAhead := by
  intro x hx
  obtain rfl : max n (b.lastDiff.getD 0) = x := Option.some.inj hx
  exact h.trans_le (Nat.le_max_left _ _)

theorem IsAhead.mergeAll {b : Book} (h : b.IsAhead) {diffs : List Diff}
    (newer : ∀ d ∈ diffs, b.snapshotSequence < d.sequence) : (b.mergeAll diffs).IsAhead := by
  induction diffs generalizing b with
  | nil => exact h
  | cons d diffs ih =>
    obtain ⟨hd, hrest⟩ := List.forall_mem_cons.mp newer
    exact ih (isAhead_mergeDiff hd d.bids d.asks) hrest

end Book

/-- A push adds one item, and no other. -/
theorem Recent.mem_push {α : Type} {r : Recent α} {a x : α} (h : x ∈ (r.push a).toList) :
    x ∈ r.toList ∨ x = a := by
  unfold push toList at h
  dsimp only at h
  rcases List.mem_append.mp h with h | h
  · left
    split at h
    · exact List.mem_of_mem_tail h
    · exact h
  · exact .inr (List.mem_singleton.mp h)

/-! ### Safe keepers -/

namespace BookKeeper

variable {k : BookKeeper}

/-- **What is safe about a keeper.** -/
structure Safe (k : BookKeeper) : Prop where
  ahead : k.book.IsAhead
  valid : ∀ d ∈ k.recent.toList, d.IsValid

/-- A keeper with a book that was just built. -/
theorem safe_ofBook {b : Book} (h : b.lastDiff = none) (window : ℕ) : (ofBook b window).Safe :=
  ⟨Book.isAhead_of_lastDiff h, fun _ hd => absurd hd List.not_mem_nil⟩

/-- Trades do not matter. -/
theorem Safe.of_untraded {k' : BookKeeper} (h : k.Safe) (heq : k'.untraded = k.untraded) :
    k'.Safe := by
  obtain ⟨hbook, hrecent⟩ := BookKeeper.mk.inj heq
  obtain ⟨-, -, hsnapshot, hlast⟩ := Book.eq_of_untraded hbook
  refine ⟨fun n hn => ?_, fun d hd => h.valid d (hrecent ▸ hd)⟩
  rw [hsnapshot]
  exact h.ahead n (hlast ▸ hn)

/-- **Every message keeps a keeper safe.** -/
theorem Safe.process (h : k.Safe) (policy : StalenessPolicy) (m : BookMessage) :
    (k.process policy m).1.Safe := by
  cases m with
  | diff d =>
    rcases k.processDiff_cases policy d with ⟨-, hp⟩ | ⟨-, -, e, hp⟩ | ⟨hs, hv, hp⟩
    · exact hp ▸ h
    · exact hp ▸ h
    · have hlt : k.book.snapshotSequence < d.sequence := by
        by_contra hle
        rw [Book.isStale_of_le_snapshot policy (Nat.le_of_not_lt hle)] at hs
        cases hs
      rw [hp]
      refine ⟨Book.isAhead_mergeDiff hlt d.bids d.asks, fun e he => ?_⟩
      rcases Recent.mem_push he with he | rfl
      · exact h.valid e he
      · exact hv
  | snapshot s =>
    rcases k.processSnapshot_cases policy s with ⟨-, e, hp⟩ | ⟨-, hp⟩
    · exact hp ▸ h
    · rw [hp]
      refine ⟨?_, h.valid⟩
      -- the book is that of the snapshot, and what is applied again is newer than it
      have hreplaced : (k.book.replaceLevels s.bids s.asks s.sequence).IsAhead :=
        Book.isAhead_of_lastDiff rfl
      refine hreplaced.mergeAll fun d hd => ?_
      exact of_decide_eq_true (List.mem_filter.mp hd).2

theorem Safe.processAll (h : k.Safe) (policy : StalenessPolicy) (ms : List BookMessage) :
    (k.processAll policy ms).Safe := by
  induction ms generalizing k with
  | nil => exact h
  | cons m ms ih => exact ih (h.process policy m)

/-- **A safe keeper refuses a snapshot of its market exactly if** that has an invalid level. -/
theorem Safe.refuses_iff (h : k.Safe) (policy : StalenessPolicy) {s : Snapshot}
    (market : s.market = k.book.market) :
    (∃ e, (k.process policy (.snapshot s)).2 = .refused e) ↔ ¬s.IsValid := by
  rcases k.processSnapshot_cases policy s with ⟨hno, e, hp⟩ | ⟨hyes, hp⟩
  · rw [hp]
    exact iff_of_true ⟨e, rfl⟩ fun hs => hno ⟨market, hs, fun d hd _ => h.valid d hd⟩
  · rw [hp]
    refine iff_of_false ?_ (not_not.mpr hyes.2.1)
    rintro ⟨e, he⟩
    cases he

/-- A keeper keeps the book of one market. -/
theorem market_process (k : BookKeeper) (policy : StalenessPolicy) (m : BookMessage) :
    (k.process policy m).1.book.market = k.book.market := by
  cases m with
  | diff d =>
    rw [process_diff]
    split <;> rfl
  | snapshot s =>
    rw [process_snapshot]
    split
    · exact Book.market_mergeAll _ _
    · rfl

theorem market_processAll (k : BookKeeper) (policy : StalenessPolicy) (ms : List BookMessage) :
    (k.processAll policy ms).book.market = k.book.market := by
  induction ms generalizing k with
  | nil => rfl
  | cons m ms ih => exact (ih _).trans (k.market_process policy m)

end BookKeeper

end LiveBook
