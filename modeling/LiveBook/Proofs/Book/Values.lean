import Mathlib.Data.List.Forall2
import LiveBook.Book.Basic
import LiveBook.Proofs.Decimal.Value

/-!
# Books by value

Two books show the same market when their levels have the same prices and sizes *by
value*; the scales with which these are written may differ. The one thing to know is that
no operation on a book can tell such books apart: prices are only compared, and comparing
is blind to scales.

* `LiveBook.Side.Same`, `LiveBook.Book.Same` – equality of levels by value;
* `LiveBook.Side.Same.merge` – changes keep it;
* `LiveBook.Book.Same.mergeAll` – and so do diffs.
-/

namespace LiveBook

/-- Two levels with the same price and the same size, by value. -/
def Level.Same (x y : Level) : Prop := x.price.value = y.price.value ∧ x.size.value = y.size.value

/-- **Two sides with the same levels,** by value and in the same order. -/
def Side.Same (s t : Side) : Prop := List.Forall₂ Level.Same s t

/-- **Two books with the same levels,** by value. -/
def Book.Same (b c : Book) : Prop := b.bids.Same c.bids ∧ b.asks.Same c.asks

namespace Level.Same

theorem refl (x : Level) : x.Same x := ⟨rfl, rfl⟩

theorem symm {x y : Level} (h : x.Same y) : y.Same x := ⟨h.1.symm, h.2.symm⟩

theorem trans {x y z : Level} (h : x.Same y) (h' : y.Same z) : x.Same z :=
  ⟨h.1.trans h'.1, h.2.trans h'.2⟩

/-- Prices of the same value compare alike with any other. -/
theorem compare_eq {x y : Level} (h : x.Same y) (p : Decimal) :
    p.compareValue x.price = p.compareValue y.price := by
  rw [Decimal.compareValue_eq_compare, Decimal.compareValue_eq_compare, h.1]

theorem sameValue_eq {x y : Level} (h : x.Same y) (p : Decimal) :
    x.price.sameValue p = y.price.sameValue p := by
  rw [Bool.eq_iff_iff, Decimal.sameValue_iff, Decimal.sameValue_iff, h.1]

end Level.Same

/-! ### Sides -/

namespace Side

theorem Same.refl (s : Side) : s.Same s := by
  induction s with
  | nil => exact .nil
  | cons x s ih => exact .cons (.refl x) ih

theorem Same.symm {s t : Side} (h : s.Same t) : t.Same s :=
  List.Forall₂.flip (h.imp fun _ _ hxy => hxy.symm)

theorem Same.trans {s t u : Side} (h : s.Same t) (h' : t.Same u) : s.Same u := by
  induction h generalizing u with
  | nil => exact h'
  | cons hxy _ ih =>
    cases h' with
    | cons hyz h' => exact .cons (hxy.trans hyz) (ih h')

/-- Setting a size respects values: the level is put at the same place, and which of two
prices it shows does not matter. -/
theorem Same.upsert {s t : Side} (h : s.Same t) (l : Level) : (s.upsert l).Same (t.upsert l) := by
  unfold Side.upsert
  induction h with
  | nil => exact .cons (.refl l) .nil
  | @cons x y s t hxy hst ih =>
    unfold Side.place
    rw [hxy.compare_eq l.price]
    cases l.price.compareValue y.price with
    | lt => exact .cons (.refl l) (.cons hxy hst)
    | eq => exact .cons ⟨hxy.1, rfl⟩ hst
    | gt => exact .cons hxy ih

theorem Same.erase {s t : Side} (h : s.Same t) (p : Decimal) : (s.erase p).Same (t.erase p) := by
  induction h with
  | nil => exact .nil
  | @cons x y s t hxy hst ih =>
    unfold Side.erase
    rw [List.filter_cons, List.filter_cons, hxy.sameValue_eq p]
    split
    · exact .cons hxy ih
    · exact ih

theorem Same.change {s t : Side} (h : s.Same t) (l : Level) : (s.change l).Same (t.change l) := by
  unfold Side.change
  split
  · exact h.erase l.price
  · exact h.upsert l

/-- **Changes cannot tell sides apart that are the same by value.** -/
theorem Same.merge {s t : Side} (h : s.Same t) (changes : List Level) :
    (s.merge changes).Same (t.merge changes) := by
  induction changes generalizing s t with
  | nil => exact h
  | cons l changes ih => exact ih (h.change l)

end Side

/-! ### Books -/

namespace Book

theorem Same.refl (b : Book) : b.Same b := ⟨.refl _, .refl _⟩

theorem Same.symm {b c : Book} (h : b.Same c) : c.Same b := ⟨h.1.symm, h.2.symm⟩

theorem Same.trans {b c d : Book} (h : b.Same c) (h' : c.Same d) : b.Same d :=
  ⟨h.1.trans h'.1, h.2.trans h'.2⟩

theorem Same.mergeDiff {b c : Book} (h : b.Same c) (bids asks : List Level) (m n : ℕ) :
    (b.mergeDiff bids asks m).Same (c.mergeDiff bids asks n) :=
  ⟨h.1.merge bids, h.2.merge asks⟩

/-- **Diffs cannot tell books apart that are the same by value.** -/
theorem Same.mergeAll {b c : Book} (h : b.Same c) (diffs : List Diff) :
    (b.mergeAll diffs).Same (c.mergeAll diffs) := by
  induction diffs generalizing b c with
  | nil => exact h
  | cons d diffs ih => exact ih (h.mergeDiff d.bids d.asks d.sequence d.sequence)

end Book

end LiveBook
