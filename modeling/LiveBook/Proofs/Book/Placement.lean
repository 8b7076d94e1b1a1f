import LiveBook.Proofs.Book.Staleness

/-!
# Where a snapshot lands among the diffs

Snapshots and diffs come on different ways, so a snapshot may be put into the queue of a
market before, among or after the diffs that it covers. The book does not depend on it:
`LiveBook.BookKeeper.book_of_placed` says that a snapshot can be put at any two places
among the same diffs, and in the end the book is the same, down to the scales with which
its prices and sizes are written. The diffs may be in any order, come several times, and
be invalid. What is asked is that the snapshot is not older than the first book, and that
the diffs which are accepted before it still fit into the window when it comes.

## How the proof goes

Which diffs a keeper accepts depends on its book by one number only, the one up to which
diffs are stale for it (`LiveBook.Book.staleUpTo`). Of a list of diffs it accepts
`LiveBook.StalenessPolicy.pick` of that number, and they are merged into its book one
after the other (`LiveBook.BookKeeper.book_diffs`).

A snapshot that comes late keeps of these the ones that are newer than it. The one fact that
is needed is that these are the diffs which would have been accepted if the snapshot had
come first (`LiveBook.StalenessPolicy.filter_pick`). Under the strict policy this is not
obvious, as a diff is accepted only if no diff before it was as new: but a diff that the
snapshot covers does not stand in the way of one that it does not cover.
-/

namespace LiveBook

/-! ### The number up to which diffs are stale -/

namespace Book

/-- The sequence number at which a book stands: up to it diffs are stale. -/
def staleUpTo (b : Book) : StalenessPolicy → ℕ
  | .snapshotOnly => b.snapshotSequence
  | .strictlyIncreasing => b.watermark

theorem isStale_eq_false_iff {b : Book} {policy : StalenessPolicy} {n : ℕ} :
    b.isStale policy n = false ↔ b.staleUpTo policy < n := by
  rw [← Bool.not_eq_true, ← Nat.not_le, not_iff_not]
  cases policy with
  | snapshotOnly => exact isStale_snapshotOnly
  | strictlyIncreasing => exact isStale_strictlyIncreasing

/-- A book without diffs stands where its snapshot stands, under either policy. -/
theorem staleUpTo_of_lastDiff {b : Book} (h : b.lastDiff = none) (policy : StalenessPolicy) :
    b.staleUpTo policy = b.snapshotSequence := by
  cases policy with
  | snapshotOnly => rfl
  | strictlyIncreasing => simp [staleUpTo, watermark, h]

end Book

/-! ### The diffs that are accepted -/

namespace StalenessPolicy

/-- Where a book stands that stood at `n` and has merged a newer diff with number `x`. -/
def advance : StalenessPolicy → ℕ → ℕ → ℕ
  | .snapshotOnly, n, _ => n
  | .strictlyIncreasing, _, x => x

/-- **The diffs that are accepted** by a book that stands at `n`: the valid ones that are newer
than where the book stands when their turn comes. -/
def pick (policy : StalenessPolicy) (n : ℕ) : List Diff → List Diff
  | [] => []
  | d :: ds =>
    if n < d.sequence ∧ d.IsValid then d :: policy.pick (policy.advance n d.sequence) ds
    else policy.pick n ds

variable {policy : StalenessPolicy} {n n' : ℕ} {d : Diff} {ds : List Diff}

theorem pick_cons_of_pos (h : n < d.sequence ∧ d.IsValid) :
    policy.pick n (d :: ds) = d :: policy.pick (policy.advance n d.sequence) ds :=
  if_pos h

theorem pick_cons_of_neg (h : ¬(n < d.sequence ∧ d.IsValid)) :
    policy.pick n (d :: ds) = policy.pick n ds :=
  if_neg h

theorem le_advance {x : ℕ} (h : n ≤ x) : n ≤ policy.advance n x := by
  cases policy with
  | snapshotOnly => exact le_rfl
  | strictlyIncreasing => exact h

theorem isValid_of_mem_pick (h : d ∈ policy.pick n ds) : d.IsValid := by
  induction ds generalizing n with
  | nil => cases h
  | cons e ds ih =>
    by_cases he : n < e.sequence ∧ e.IsValid
    · rw [pick_cons_of_pos he] at h
      rcases List.mem_cons.mp h with rfl | h
      · exact he.2
      · exact ih h
    · rw [pick_cons_of_neg he] at h
      exact ih h

theorem lt_of_mem_pick (h : d ∈ policy.pick n ds) : n < d.sequence := by
  induction ds generalizing n with
  | nil => cases h
  | cons e ds ih =>
    by_cases he : n < e.sequence ∧ e.IsValid
    · rw [pick_cons_of_pos he] at h
      rcases List.mem_cons.mp h with rfl | h
      · exact he.1
      · exact (le_advance he.1.le).trans_lt (ih h)
    · rw [pick_cons_of_neg he] at h
      exact ih h

/-- **What is newer among the accepted diffs** is what is accepted by a book that stands further
on from the beginning. -/
theorem filter_pick (h : n ≤ n') (ds : List Diff) :
    (policy.pick n ds).filter (n' < ·.sequence) = policy.pick n' ds := by
  induction ds generalizing n n' with
  | nil => rfl
  | cons d ds ih =>
    by_cases hn : n < d.sequence ∧ d.IsValid
    · rw [pick_cons_of_pos hn, List.filter_cons]
      by_cases hn' : n' < d.sequence
      · -- both accept it, and the strict policy then makes them stand at the same number
        rw [if_pos (by simpa using hn'), pick_cons_of_pos ⟨hn', hn.2⟩]
        congr 1
        cases policy with
        | snapshotOnly => exact ih h
        | strictlyIncreasing =>
          refine List.filter_eq_self.mpr fun e he => ?_
          have hde : d.sequence < e.sequence := lt_of_mem_pick he
          simpa using hn'.trans hde
      · -- only the book that stands further back accepts it, and does not get past `n'` by it
        rw [if_neg (by simpa using hn'), pick_cons_of_neg fun hd => hn' hd.1]
        refine ih ?_
        cases policy with
        | snapshotOnly => exact h
        | strictlyIncreasing => exact Nat.le_of_not_lt hn'
    · have hn' : ¬(n' < d.sequence ∧ d.IsValid) := fun hd => hn ⟨h.trans_lt hd.1, hd.2⟩
      rw [pick_cons_of_neg hn, pick_cons_of_neg hn']
      exact ih h

end StalenessPolicy

namespace Book

/-- A diff that is not stale takes the book to its number, under the strict policy. -/
theorem staleUpTo_mergeDiff {b : Book} {policy : StalenessPolicy} {n : ℕ}
    (h : b.staleUpTo policy < n) (bids asks : List Level) :
    (b.mergeDiff bids asks n).staleUpTo policy = policy.advance (b.staleUpTo policy) n := by
  cases policy with
  | snapshotOnly => rfl
  | strictlyIncreasing =>
    have hlt : b.watermark < n := h
    exact (watermark_mergeDiff _ _ _ _).trans (Nat.max_eq_right hlt.le)

/-- Diffs do not matter to a book whose levels are replaced afterwards. -/
theorem replaceLevels_mergeAll (b : Book) (diffs : List Diff) (bids asks : List Level) (n : ℕ) :
    (b.mergeAll diffs).replaceLevels bids asks n = b.replaceLevels bids asks n := by
  induction diffs generalizing b with
  | nil => rfl
  | cons d diffs ih => exact ih (b.mergeDiff d.bids d.asks d.sequence)

end Book

namespace BookKeeper

variable (policy : StalenessPolicy)

/-! ### Keepers that take diffs only -/

/-- **Of a list of diffs a keeper accepts** those that are newer than where its book stands. -/
theorem accepted_diffs (k : BookKeeper) (ds : List Diff) :
    k.accepted policy (ds.map .diff) = policy.pick (k.book.staleUpTo policy) ds := by
  induction ds generalizing k with
  | nil => rfl
  | cons d ds ih =>
    rw [List.map_cons, accepted, ih]
    unfold acceptedNow
    rcases k.processDiff_cases policy d with ⟨hs, h⟩ | ⟨-, hv, e, h⟩ | ⟨hs, hv, h⟩
    · have hno : ¬(k.book.staleUpTo policy < d.sequence ∧ d.IsValid) := fun hd =>
        Bool.false_ne_true ((Book.isStale_eq_false_iff.mpr hd.1).symm.trans hs)
      rw [h, StalenessPolicy.pick_cons_of_neg hno]
      rfl
    · rw [h, StalenessPolicy.pick_cons_of_neg fun hd => hv hd.2]
      rfl
    · have hlt := Book.isStale_eq_false_iff.mp hs
      rw [h, StalenessPolicy.pick_cons_of_pos ⟨hlt, hv⟩, ← Book.staleUpTo_mergeDiff hlt]
      rfl

/-- **What diffs make of a book** depends on the book alone, and not on the window. -/
theorem book_diffs (k : BookKeeper) (ds : List Diff) :
    (k.processAll policy (ds.map .diff)).book =
      k.book.mergeAll (policy.pick (k.book.staleUpTo policy) ds) := by
  induction ds generalizing k with
  | nil => rfl
  | cons d ds ih =>
    rw [List.map_cons, processAll_cons, ih]
    rcases k.processDiff_cases policy d with ⟨hs, h⟩ | ⟨-, hv, e, h⟩ | ⟨hs, hv, h⟩
    · have hno : ¬(k.book.staleUpTo policy < d.sequence ∧ d.IsValid) := fun hd =>
        Bool.false_ne_true ((Book.isStale_eq_false_iff.mpr hd.1).symm.trans hs)
      rw [h, StalenessPolicy.pick_cons_of_neg hno]
    · rw [h, StalenessPolicy.pick_cons_of_neg fun hd => hv hd.2]
    · have hlt := Book.isStale_eq_false_iff.mp hs
      rw [h, StalenessPolicy.pick_cons_of_pos ⟨hlt, hv⟩, ← Book.staleUpTo_mergeDiff hlt,
        Book.mergeAll_cons]

/-! ### A snapshot among diffs -/

/-- A snapshot that is put between two parts of a list of diffs. -/
def placed (before : List Diff) (s : Snapshot) (after : List Diff) : List BookMessage :=
  before.map .diff ++ .snapshot s :: after.map .diff

variable {policy} {b : Book} {window : ℕ} {s : Snapshot} {before after : List Diff}

/-- **A snapshot that comes late leads to where it would have led at once**: to the book that the
snapshot makes, and then the diffs that came before it. -/
theorem book_of_late (market : s.market = b.market) (valid : s.IsValid)
    (notOlder : b.staleUpTo policy ≤ s.sequence)
    (few : ((ofBook b window).accepted policy (before.map .diff)).length ≤ max window 1) :
    ((ofBook b window).processAll policy (before.map .diff ++ [.snapshot s])).book =
      (b.replaceLevels s.bids s.asks s.sequence).mergeAll (policy.pick s.sequence before) := by
  have hbook := book_diffs policy (ofBook b window) before
  -- all that was accepted is still in the window
  have hrecent : ((ofBook b window).processAll policy (before.map .diff)).recent.toList =
      policy.pick (b.staleUpTo policy) before := by
    rw [toList_recent_ofBook, List.rtake, Nat.sub_eq_zero_of_le few, List.drop_zero,
      accepted_diffs]
    rfl
  have hnewer : ((ofBook b window).processAll policy (before.map .diff)).newer s.sequence =
      policy.pick s.sequence before := by
    rw [newer, hrecent, StalenessPolicy.filter_pick notOlder]
  have hadmits : ((ofBook b window).processAll policy (before.map .diff)).Admits s := by
    refine ⟨?_, valid, fun d hd _ => ?_⟩
    · rw [hbook, Book.market_mergeAll]
      exact market
    · rw [hrecent] at hd
      exact StalenessPolicy.isValid_of_mem_pick hd
  rw [processAll_append, processAll_cons, processAll_nil, process_snapshot, if_pos hadmits, hnewer]
  dsimp only
  rw [hbook, Book.restored, Book.replaceLevels_mergeAll]
  rfl

/-- **The book that a snapshot and diffs lead to,** wherever among the diffs the snapshot is: that
of the snapshot first and then all diffs. -/
theorem book_placed (market : s.market = b.market) (valid : s.IsValid)
    (notOlder : b.staleUpTo policy ≤ s.sequence)
    (few : ((ofBook b window).accepted policy (before.map .diff)).length ≤ max window 1) :
    ((ofBook b window).processAll policy (placed before s after)).book =
      ((ofBook (b.replaceLevels s.bids s.asks s.sequence) window).processAll policy
        ((before ++ after).map .diff)).book := by
  have hlate := book_of_late market valid notOlder few
  have hstands : (b.replaceLevels s.bids s.asks s.sequence).staleUpTo policy = s.sequence :=
    Book.staleUpTo_of_lastDiff rfl policy
  have hfirst : ((ofBook (b.replaceLevels s.bids s.asks s.sequence) window).processAll policy
      (before.map .diff)).book =
      (b.replaceLevels s.bids s.asks s.sequence).mergeAll (policy.pick s.sequence before) := by
    rw [book_diffs]
    exact congrArg (fun n => Book.mergeAll _ (policy.pick n before)) hstands
  have hsplit : placed before s after = (before.map .diff ++ [.snapshot s]) ++ after.map .diff := by
    rw [placed, List.append_assoc]
    rfl
  -- the books are the same when the snapshot has come, and the rest depends on nothing else
  rw [hsplit, processAll_append, book_diffs, hlate, List.map_append, processAll_append,
    book_diffs policy _ after, hfirst]

/-- **It does not matter where a snapshot lands among the diffs.** Take a book that stands at some
number, a valid snapshot of its market which is not older, and any diffs. Put the snapshot at
any two places such that no more diffs are accepted before it than the window holds. Then the
two books are equal in the end: they have the same sequence numbers and the same levels, with
prices and sizes written alike. -/
theorem book_of_placed (policy : StalenessPolicy) {b : Book} {window : ℕ} {s : Snapshot}
    (market : s.market = b.market) (valid : s.IsValid)
    (notOlder : b.staleUpTo policy ≤ s.sequence) {before after before' after' : List Diff}
    (same : before ++ after = before' ++ after')
    (few : ((ofBook b window).accepted policy (before.map .diff)).length ≤ max window 1)
    (few' : ((ofBook b window).accepted policy (before'.map .diff)).length ≤ max window 1) :
    ((ofBook b window).processAll policy (placed before s after)).book =
      ((ofBook b window).processAll policy (placed before' s after')).book := by
  rw [book_placed market valid notOlder few, book_placed market valid notOlder few', same]

/-! ### A snapshot behind a diff that it covers and one that it does not cover

The first book stands at 10, and the window holds two diffs. Of the diffs 13, 11, 12 and 14 the
second and the third are stale under the strict policy, wherever the snapshot at 12 is. -/

/-- A bid with a price of so many digits behind the point. -/
def scaledBid (digits scale size : ℕ) : Level where
  price := (Decimal.ofParts? false digits scale).getD .zero
  size := (Decimal.ofParts? false size 0).getD .zero

/-- The market's diff with a number, which sets the size of the bid at 100 to that number. -/
def numberedDiff (n : ℕ) : Diff := ⟨⟨"BTC-USD"⟩, n, default, [scaledBid 100 0 n], []⟩

/-- The market's snapshot at 12, which writes 100 with a digit behind the point. -/
def lateSnapshot : Snapshot := ⟨⟨"BTC-USD"⟩, 12, default, [scaledBid 1000 1 7], []⟩

/-- The first book. -/
def firstBook : Book := { Book.empty ⟨"BTC-USD"⟩ with snapshotSequence := 10 }

/-- The snapshot first, or behind three of the diffs: the bid is written as the snapshot has it,
and its size is that of the last diff. -/
theorem book_of_placed_late :
    (lateSnapshot.market = firstBook.market ∧ lateSnapshot.IsValid ∧
      firstBook.staleUpTo .strictlyIncreasing ≤ lateSnapshot.sequence ∧
      ((ofBook firstBook 2).accepted .strictlyIncreasing
        ([numberedDiff 13, numberedDiff 11, numberedDiff 12].map .diff)).length = 1) ∧
    ((ofBook firstBook 2).processAll .strictlyIncreasing
        (placed [numberedDiff 13, numberedDiff 11, numberedDiff 12] lateSnapshot
          [numberedDiff 14])).book =
      ((ofBook firstBook 2).processAll .strictlyIncreasing
        (placed [] lateSnapshot
          [numberedDiff 13, numberedDiff 11, numberedDiff 12, numberedDiff 14])).book ∧
    ((ofBook firstBook 2).processAll .strictlyIncreasing
        (placed [numberedDiff 13, numberedDiff 11, numberedDiff 12] lateSnapshot
          [numberedDiff 14])).book.bids = [scaledBid 1000 1 14] := by
  refine ⟨by decide, ?_, by decide⟩
  exact book_of_placed .strictlyIncreasing rfl (by decide) (by decide) rfl (by decide) (by decide)

end BookKeeper

end LiveBook
