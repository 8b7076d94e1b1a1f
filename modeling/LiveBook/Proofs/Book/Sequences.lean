import Mathlib.Data.List.DropRight
import Mathlib.Order.MinMax
import LiveBook.Book.Basic
import LiveBook.Book.Pending
import LiveBook.Recent

/-!
# Sequence numbers and the lists they order

Three facts about lists on which everything about late snapshots rests.

* The greatest of some sequence numbers (`LiveBook.newest`) is what a watermark becomes
  when diffs are applied one after the other (`LiveBook.Book.watermark_mergeAll`).
* Pushing items into a bounded list keeps the last of them
  (`LiveBook.Recent.toList_pushAll`, `LiveBook.PendingDiffs.toList_pushAll_ofCapacity`).
* Of a list in ascending order, the last `c` items hold everything above a bound, if no
  more than `c` items are above it (`LiveBook.filter_rtake`). This is why a bounded window
  is enough.
-/

namespace LiveBook

/-! ### The greatest of some numbers -/

/-- The greatest of some sequence numbers and `n`. -/
def newest (n : ℕ) (ns : List ℕ) : ℕ := ns.foldl max n

@[simp] theorem newest_nil (n : ℕ) : newest n [] = n := rfl

@[simp] theorem newest_cons (n x : ℕ) (ns : List ℕ) :
    newest n (x :: ns) = newest (max n x) ns := rfl

theorem newest_append (n : ℕ) (xs ys : List ℕ) :
    newest n (xs ++ ys) = newest (newest n xs) ys :=
  List.foldl_append

theorem newest_le_iff {n k : ℕ} {ns : List ℕ} :
    newest n ns ≤ k ↔ n ≤ k ∧ ∀ x ∈ ns, x ≤ k := by
  induction ns generalizing n with
  | nil => simp
  | cons x ns ih =>
    rw [newest_cons, ih, max_le_iff, List.forall_mem_cons, and_assoc]

theorem newest_lt_iff {n k : ℕ} {ns : List ℕ} :
    newest n ns < k ↔ n < k ∧ ∀ x ∈ ns, x < k := by
  induction ns generalizing n with
  | nil => simp
  | cons x ns ih =>
    rw [newest_cons, ih, max_lt_iff, List.forall_mem_cons, and_assoc]

theorem le_newest (n : ℕ) (ns : List ℕ) : n ≤ newest n ns := (newest_le_iff.mp le_rfl).1

theorem le_newest_of_mem {n x : ℕ} {ns : List ℕ} (hx : x ∈ ns) : x ≤ newest n ns :=
  (newest_le_iff.mp le_rfl).2 x hx

theorem newest_eq_or_mem (n : ℕ) (ns : List ℕ) : newest n ns = n ∨ newest n ns ∈ ns := by
  induction ns generalizing n with
  | nil => exact Or.inl rfl
  | cons x ns ih =>
    rw [newest_cons]
    rcases ih (max n x) with h | h
    · rcases Nat.le_total n x with hnx | hnx
      · rw [h, Nat.max_eq_right hnx]
        exact Or.inr List.mem_cons_self
      · exact Or.inl (h.trans (Nat.max_eq_left hnx))
    · exact Or.inr (List.mem_cons_of_mem _ h)

/-! ### Diffs applied one after the other -/

namespace Book

theorem mergeAll_cons (b : Book) (d : Diff) (diffs : List Diff) :
    b.mergeAll (d :: diffs) = (b.mergeDiff d.bids d.asks d.sequence).mergeAll diffs := rfl

theorem mergeAll_append (b : Book) (xs ys : List Diff) :
    b.mergeAll (xs ++ ys) = (b.mergeAll xs).mergeAll ys :=
  List.foldl_append

@[simp] theorem market_mergeAll (b : Book) (diffs : List Diff) :
    (b.mergeAll diffs).market = b.market := by
  induction diffs generalizing b with
  | nil => rfl
  | cons d diffs ih => exact ih _

@[simp] theorem snapshotSequence_mergeAll (b : Book) (diffs : List Diff) :
    (b.mergeAll diffs).snapshotSequence = b.snapshotSequence := by
  induction diffs generalizing b with
  | nil => rfl
  | cons d diffs ih => exact ih _

theorem watermark_mergeDiff (b : Book) (bids asks : List Level) (n : ℕ) :
    (b.mergeDiff bids asks n).watermark = max b.watermark n := by
  simp only [watermark, mergeDiff, Option.getD_some]
  omega

/-- **Diffs move the watermark up to the newest of them.** -/
theorem watermark_mergeAll (b : Book) (diffs : List Diff) :
    (b.mergeAll diffs).watermark = newest b.watermark (diffs.map Diff.sequence) := by
  induction diffs generalizing b with
  | nil => rfl
  | cons d diffs ih =>
    rw [mergeAll_cons, ih, watermark_mergeDiff, List.map_cons, newest_cons]

theorem snapshotSequence_le_watermark (b : Book) : b.snapshotSequence ≤ b.watermark :=
  Nat.le_max_left _ _

/-! ### Staleness -/

theorem isStale_snapshotOnly {b : Book} {n : ℕ} :
    b.isStale .snapshotOnly n = true ↔ n ≤ b.snapshotSequence := by
  simp [isStale]

/-- **Under the strict policy the watermark decides** what is stale. -/
theorem isStale_strictlyIncreasing {b : Book} {n : ℕ} :
    b.isStale .strictlyIncreasing n = true ↔ n ≤ b.watermark := by
  unfold isStale watermark
  cases b.lastDiff <;> simp

/-- Under any policy, what is newer than the watermark is not stale. -/
theorem le_watermark_of_isStale {b : Book} {n : ℕ} {policy : StalenessPolicy}
    (h : b.isStale policy n = true) : n ≤ b.watermark := by
  cases policy with
  | snapshotOnly => exact (isStale_snapshotOnly.mp h).trans b.snapshotSequence_le_watermark
  | strictlyIncreasing => exact isStale_strictlyIncreasing.mp h

end Book

/-! ### Bounded lists -/

namespace Recent

variable {α : Type}

/-- Pushes items one after the other. -/
def pushAll (r : Recent α) (as : List α) : Recent α := as.foldl push r

/-- A bounded list that respects its bound, which is positive. -/
def Bounded (r : Recent α) : Prop := 0 < r.capacity ∧ r.toList.length ≤ r.capacity

theorem bounded_ofCapacity (c : ℕ) : (ofCapacity c : Recent α).Bounded :=
  ⟨Nat.lt_of_lt_of_le Nat.one_pos (Nat.le_max_right c 1), Nat.zero_le _⟩

/-- What a push leaves is the end of what would be there without a bound. -/
theorem toList_push_eq_rtake {r : Recent α} (h : r.Bounded) (a : α) :
    (r.push a).toList = (r.toList ++ [a]).rtake r.capacity :=
  toList_push a h.2 h.1

theorem Bounded.push {r : Recent α} (h : r.Bounded) (a : α) : (r.push a).Bounded := by
  refine ⟨h.1, ?_⟩
  rw [toList_push_eq_rtake h, List.rtake, List.length_drop, capacity_push]
  omega

end Recent

/-! ### The end of a list -/

theorem rtake_append_rtake {α : Type} (xs ys : List α) (c : ℕ) :
    (xs.rtake c ++ ys).rtake c = (xs ++ ys).rtake c := by
  rw [List.rtake_eq_reverse_take_reverse, List.rtake_eq_reverse_take_reverse,
    List.rtake_eq_reverse_take_reverse, List.reverse_append, List.reverse_append,
    List.reverse_reverse, List.take_append, List.take_append, List.take_take]
  congr 3
  omega

/-- **A bounded list keeps the last items pushed into it.** -/
theorem Recent.toList_pushAll {α : Type} {r : Recent α} (h : r.Bounded) (as : List α) :
    (r.pushAll as).toList = (r.toList ++ as).rtake r.capacity := by
  induction as generalizing r with
  | nil =>
    have hle : r.toList.length - r.capacity = 0 := Nat.sub_eq_zero_of_le h.2
    rw [List.append_nil, List.rtake, hle, List.drop_zero]
    rfl
  | cons a as ih =>
    have hstep := ih (h.push a)
    rw [toList_push_eq_rtake h, capacity_push, rtake_append_rtake, List.append_assoc] at hstep
    exact hstep

namespace PendingDiffs

/-- Sets diffs aside one after the other. -/
def pushAll (p : PendingDiffs) (ds : List Diff) : PendingDiffs :=
  ds.foldl (fun p d => (p.push d).1) p

theorem pushAll_append (p : PendingDiffs) (ds ds' : List Diff) :
    p.pushAll (ds ++ ds') = (p.pushAll ds).pushAll ds' :=
  List.foldl_append

theorem capacity_pushAll (p : PendingDiffs) (ds : List Diff) :
    (p.pushAll ds).capacity = p.capacity := by
  induction ds generalizing p with
  | nil => rfl
  | cons d ds ih =>
    refine (ih (p.push d).1).trans ?_
    unfold push
    split <;> rfl

/-- What a push leaves is the end of what would be there without a bound. -/
theorem toList_push_eq_rtake {p : PendingDiffs} (hc : 0 < p.capacity)
    (h : p.toList.length ≤ p.capacity) (d : Diff) :
    (p.push d).1.toList = (p.toList ++ [d]).rtake p.capacity := by
  rw [List.rtake, List.length_append, List.length_singleton]
  unfold push
  split
  next hfull =>
    have hlength : p.toList.length = p.capacity := Nat.le_antisymm h hfull
    rw [hlength, Nat.add_sub_cancel_left, List.drop_append_of_le_length (hlength ▸ hc)]
    exact congrArg (· ++ [d]) List.drop_one.symm
  next hroom =>
    have hlt : p.toList.length < p.capacity := Nat.lt_of_not_le hroom
    have hzero : p.toList.length + 1 - p.capacity = 0 := Nat.sub_eq_zero_of_le hlt
    rw [hzero, List.drop_zero]
    rfl

/-- **Set aside are the last diffs that came.** -/
theorem toList_pushAll_ofCapacity (c : ℕ) (ds : List Diff) :
    ((ofCapacity c).pushAll ds).toList = ds.rtake (max c 1) := by
  have hc : 0 < max c 1 := Nat.lt_of_lt_of_le Nat.one_pos (Nat.le_max_right c 1)
  induction ds using List.reverseRecOn with
  | nil => exact (List.rtake_nil _).symm
  | append_singleton ds d ih =>
    have hcapacity : ((ofCapacity c).pushAll ds).capacity = max c 1 := capacity_pushAll _ _
    have hlength : ((ofCapacity c).pushAll ds).toList.length ≤ max c 1 := by
      rw [ih, List.rtake, List.length_drop]
      omega
    rw [pushAll_append]
    refine (toList_push_eq_rtake (hcapacity ▸ hc) (hcapacity ▸ hlength) d).trans ?_
    rw [hcapacity, ih, rtake_append_rtake]

end PendingDiffs

/-- Of a list in ascending order, the items up to one bound come before those between it
and a greater one. -/
theorem filter_le_eq_append {α : Type} {f : α → ℕ} {a c : ℕ} {xs : List α}
    (hs : xs.Pairwise (f · < f ·)) (h : a ≤ c) :
    xs.filter (f · ≤ c) =
      xs.filter (f · ≤ a) ++ xs.filter fun x => a < f x ∧ f x ≤ c := by
  induction hs with
  | nil => rfl
  | @cons x xs hx _ ih =>
    by_cases hxa : f x ≤ a
    · have hxc : f x ≤ c := hxa.trans h
      have hxa' : ¬a < f x := Nat.not_lt.mpr hxa
      simp only [List.filter_cons, hxa, hxc, hxa', decide_true, if_true, false_and, decide_false,
        Bool.false_eq_true, if_false, List.cons_append, ih]
    · have hxa' : a < f x := Nat.lt_of_not_le hxa
      -- the items behind `x` are above it, so none of them is below the first bound
      have hnone : xs.filter (f · ≤ a) = [] := List.filter_eq_nil_iff.mpr fun y hy => by
        have := hx y hy
        simp only [decide_eq_true_eq]
        omega
      rw [hnone, List.nil_append] at ih
      simp only [List.filter_cons, hxa, hxa', true_and, hnone, decide_false, Bool.false_eq_true,
        if_false, List.nil_append, ih]

/-- **The last `c` items hold everything above a bound,** if the items are in ascending
order and no more than `c` are above it: an item that was left out would have `c` others
behind it, which are above the bound as well. -/
theorem filter_rtake {α : Type} {f : α → ℕ} {n c : ℕ} {xs : List α}
    (hs : xs.Pairwise (f · < f ·)) (hc : (xs.filter (n < f ·)).length ≤ c) :
    (xs.rtake c).filter (n < f ·) = xs.filter (n < f ·) := by
  have hsplit : xs.take (xs.length - c) ++ xs.rtake c = xs := List.take_append_drop _ _
  rw [← hsplit, List.pairwise_append] at hs
  obtain ⟨-, -, hlt⟩ := hs
  suffices hnone : (xs.take (xs.length - c)).filter (n < f ·) = [] by
    conv_rhs => rw [← hsplit, List.filter_append, hnone, List.nil_append]
  rw [List.filter_eq_nil_iff]
  intro x hx hnx
  -- `x` and everything that is kept are above the bound, which makes more than `c` items
  have hnx : n < f x := by simpa using hnx
  have hall : (xs.rtake c).filter (n < f ·) = xs.rtake c :=
    List.filter_eq_self.mpr fun y hy => by simpa using hnx.trans (hlt x hx y hy)
  have hmem : x ∈ (xs.take (xs.length - c)).filter (n < f ·) :=
    List.mem_filter.mpr ⟨hx, by simpa using hnx⟩
  have hpos := List.length_pos_of_mem hmem
  have hlen : (xs.rtake c).length = xs.length - (xs.length - c) := List.length_drop
  have hpos' := List.length_pos_of_mem hx
  rw [List.length_take] at hpos'
  rw [← hsplit, List.filter_append, List.length_append, hall] at hc
  omega

end LiveBook
