import LiveBook.Book.Update
import LiveBook.Proofs.Book.Merging
import LiveBook.Proofs.Book.Replacing

/-!
# An update in place happens or does not happen

An update that is refused on its way leaves what it has changed by then. This file says that
nothing is left, for each update of the levels: all levels are looked at before the first field
is set. So an update in place is either refused, and then the book is as it was, or it does what
the function on books says (`LiveBook.BookUpdate.perform_diff`,
`LiveBook.BookUpdate.perform_snapshot`, `LiveBook.BookUpdate.perform_restore`).

For a restore this is not obvious. It changes the book by one update after the other, and each of
them may be refused; that none is follows from its having looked at all of them beforehand.
-/

namespace LiveBook

open Time (Timestamp)

namespace BookUpdate

variable {α β : Type} (st : StampedBook)

/-! ### Steps of an update -/

theorem perform_get : (get : BookUpdate StampedBook).perform st = (.ok st, st) := rfl

/-- What follows is done to the book that was left, unless there was a refusal. -/
theorem perform_bind (u : BookUpdate α) (k : α → BookUpdate β) :
    (u >>= k).perform st =
      match u.perform st with
      | (.ok a, st') => (k a).perform st'
      | (.error e, st') => (.error e, st') := by
  unfold perform ExceptT.run StateT.run
  simp only [bind, ExceptT.bind, ExceptT.mk, StateT.bind, ExceptT.bindCont]
  cases u st with
  | mk r st' => cases r <;> rfl

theorem perform_bind_of_ok {u : BookUpdate α} {st st' : StampedBook} {a : α}
    (h : u.perform st = (.ok a, st')) (k : α → BookUpdate β) :
    (u >>= k).perform st = (k a).perform st' := by
  rw [perform_bind, h]

theorem perform_bind_of_error {u : BookUpdate α} {st st' : StampedBook} {e : BookError}
    (h : u.perform st = (.error e, st')) (k : α → BookUpdate β) :
    (u >>= k).perform st = (.error e, st') := by
  rw [perform_bind, h]

/-! ### Looking at levels -/

/-- A look at levels changes nothing, and refuses the first fault. -/
theorem perform_check (n : ℕ) (levels : List Level) :
    (check n levels).perform st =
      match Book.levelFault? levels with
      | some f => (.error (.invalidLevel st.book.market n f), st)
      | none => (.ok (), st) := by
  induction levels with
  | nil => rfl
  | cons l levels ih =>
    unfold check Book.levelFault?
    rw [perform_bind_of_ok (perform_get st)]
    cases l.price.isNegative with
    | true => rfl
    | false =>
      cases l.size.isNegative with
      | true => rfl
      | false => exact ih

/-- A look at both lists of an update is its validation. -/
theorem perform_check_check (bids asks : List Level) (n : ℕ) :
    (do check n bids; check n asks : BookUpdate Unit).perform st =
      (st.book.validate bids asks n, st) := by
  rw [perform_bind, perform_check, Book.validate]
  cases Book.levelFault? bids with
  | some f => rfl
  | none =>
    rw [Option.none_or]
    dsimp only
    rw [perform_check]
    cases Book.levelFault? asks <;> rfl

/-- What follows a look at both lists of an update is done if they are valid. -/
theorem perform_check_bind (bids asks : List Level) (n : ℕ) (u : BookUpdate α) :
    (do check n bids; check n asks; u : BookUpdate α).perform st =
      match st.book.validate bids asks n with
      | .ok () => u.perform st
      | .error e => (.error e, st) := by
  have hassoc : (do check n bids; check n asks; u : BookUpdate α) =
      (do check n bids; check n asks : BookUpdate Unit) >>= fun _ => u := (bind_assoc _ _ _).symm
  rw [hassoc, perform_bind, perform_check_check]
  cases st.book.validate bids asks n <;> rfl

theorem perform_checkAll (diffs : List Diff) :
    (checkAll diffs).perform st = (st.book.validateAll diffs, st) := by
  induction diffs with
  | nil => rfl
  | cons d diffs ih =>
    rw [checkAll, perform_check_bind, Book.validateAll, ih]
    cases st.book.validate d.bids d.asks d.sequence <;> rfl

/-! ### Updates of the levels -/

/-- **A diff in place** does what it does to the book, or nothing. -/
theorem perform_diff (bids asks : List Level) (n : ℕ) (now : Timestamp) :
    (diff bids asks n now).perform st =
      match st.book.applyDiff bids asks n with
      | .ok b => (.ok (), ⟨b, now⟩)
      | .error e => (.error e, st) := by
  rw [diff, perform_check_bind, Book.applyDiff_eq, Book.mergeDiff_eq]
  cases st.book.validate bids asks n <;> rfl

/-- **A snapshot in place,** likewise. -/
theorem perform_snapshot (bids asks : List Level) (n : ℕ) (now : Timestamp) :
    (snapshot bids asks n now).perform st =
      match st.book.applySnapshot bids asks n with
      | .ok b => (.ok (), ⟨b, now⟩)
      | .error e => (.error e, st) := by
  rw [snapshot, perform_check_bind, Book.applySnapshot]
  cases st.book.validate bids asks n <;> rfl

/-- Diffs of valid levels are merged to the last. -/
theorem perform_replay (clock : ℕ → Timestamp) (i : ℕ) {diffs : List Diff}
    (valid : ∀ d ∈ diffs, d.IsValid) :
    ∃ t, (replay clock i diffs).perform st = (.ok (), ⟨st.book.mergeAll diffs, t⟩) := by
  induction diffs generalizing st i with
  | nil => exact ⟨st.updatedAt, rfl⟩
  | cons d diffs ih =>
    obtain ⟨hd, hdiffs⟩ := List.forall_mem_cons.mp valid
    have hdiff : (diff d.bids d.asks d.sequence (clock i)).perform st =
        (.ok (), ⟨st.book.mergeDiff d.bids d.asks d.sequence, clock i⟩) := by
      rw [perform_diff, Book.applyDiff_eq_ok_iff.mpr ⟨hd, rfl⟩]
    obtain ⟨t, ht⟩ := ih ⟨st.book.mergeDiff d.bids d.asks d.sequence, clock i⟩ (i + 1) hdiffs
    exact ⟨t, (perform_bind_of_ok hdiff _).trans ht⟩

/-- A snapshot and the diffs that are newer, when all of them are valid. -/
theorem perform_snapshot_replay (clock : ℕ → Timestamp) {s : Snapshot} {diffs : List Diff}
    (valid : s.IsValid) (valid' : ∀ d ∈ diffs, d.IsValid) :
    ∃ t, (do snapshot s.bids s.asks s.sequence (clock 0); replay clock 1 diffs).perform st =
      (.ok (), ⟨st.book.restored s diffs, t⟩) := by
  have hsnapshot : (snapshot s.bids s.asks s.sequence (clock 0)).perform st =
      (.ok (), ⟨st.book.replaceLevels s.bids s.asks s.sequence, clock 0⟩) := by
    rw [perform_snapshot, Book.applySnapshot_eq_ok_iff.mpr ⟨valid, rfl⟩]
  obtain ⟨t, ht⟩ := perform_replay ⟨st.book.replaceLevels s.bids s.asks s.sequence, clock 0⟩ clock 1
    valid'
  exact ⟨t, (perform_bind_of_ok hsnapshot _).trans ht⟩

/-- **A restore in place** is refused and leaves everything as it was, or does to the book what it
should do, by the updates that it consists of. -/
theorem perform_restore (clock : ℕ → Timestamp) (s : Snapshot) (recent : List Diff) :
    (∃ e, st.book.restore s recent = .error e ∧
      (restore clock s recent).perform st = (.error e, st)) ∨
    ∃ st', st.book.restore s recent =
        .ok (st'.book, (recent.filter (s.sequence < ·.sequence)).length) ∧
      st'.book = st.book.restored s (recent.filter (s.sequence < ·.sequence)) ∧
      (do snapshot s.bids s.asks s.sequence (clock 0)
          replay clock 1 (recent.filter (s.sequence < ·.sequence))).perform st = (.ok (), st') ∧
      (restore clock s recent).perform st =
        (.ok (recent.filter (s.sequence < ·.sequence)).length, st') := by
  generalize hnewer : recent.filter (s.sequence < ·.sequence) = newer
  rw [restore, perform_bind_of_ok (perform_get st), hnewer]
  by_cases hm : s.market = st.book.market
  · rw [if_neg (not_not.mpr hm)]
    have hcheck := perform_checkAll st newer
    cases hv : st.book.validateAll newer with
    | error e =>
      refine .inl ⟨e, ?_, perform_bind_of_error (hcheck.trans (by rw [hv])) _⟩
      simp [Book.restore, hm, hnewer, hv, bind, Except.bind]
    | ok u =>
      rw [perform_bind_of_ok (hcheck.trans (by rw [hv]))]
      have hfunction : st.book.restore s recent =
          (st.book.applySnapshot s.bids s.asks s.sequence).map fun b =>
            (b.mergeAll newer, newer.length) := by
        simp only [Book.restore, hm, ne_eq, not_true_eq_false, if_false, hnewer, hv, bind,
          Except.bind]
        cases st.book.applySnapshot s.bids s.asks s.sequence <;> rfl
      have hsnapshot := perform_snapshot st s.bids s.asks s.sequence (clock 0)
      cases hs : st.book.applySnapshot s.bids s.asks s.sequence with
      | error e =>
        refine .inl ⟨e, by rw [hfunction, hs]; rfl, ?_⟩
        exact perform_bind_of_error (hsnapshot.trans (by rw [hs])) _
      | ok b =>
        obtain ⟨valid, rfl⟩ := Book.applySnapshot_eq_ok_iff.mp hs
        -- the diffs were looked at before, so none of them is refused now
        obtain ⟨t, ht⟩ := perform_snapshot_replay st clock valid (Book.validateAll_eq_ok_iff.mp hv)
        refine .inr ⟨⟨st.book.restored s newer, t⟩, by rw [hfunction, hs]; rfl, rfl, ht, ?_⟩
        have hassoc := perform_bind_of_ok ht fun _ => (pure newer.length : BookUpdate ℕ)
        rw [bind_assoc] at hassoc
        exact hassoc
  · rw [if_pos hm]
    refine .inl ⟨.marketMismatch st.book.market s.market, ?_, perform_bind_of_error rfl _⟩
    simp [Book.restore, hm, bind, Except.bind, throw, throwThe, MonadExceptOf.throw]

end BookUpdate

end LiveBook
