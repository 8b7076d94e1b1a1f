import Mathlib.Data.Prod.Lex
import Mathlib.Data.Int.Order.Basic

/-!
# The order of floating numbers

Floats are ordered by where they stand (`LiveBook.Number.place`): the infinities at the two
ends, zero in the middle, and the others by their sign, their exponent and their
significand. Only what is no number stands nowhere and compares with nothing, itself
included. So the two comparisons are those of a linear order, as long as both sides are
numbers (`LiveBook.Number.lt_iff`, `LiveBook.Number.le_iff`).

* `LiveBook.Number.IsGreatest`, `LiveBook.Number.IsLeast` – a number of a list that no
  other exceeds, and one that exceeds no other;
* `LiveBook.Number.IsGreatest.concat`, `LiveBook.Number.IsLeast.concat` – to keep such a
  number takes one comparison for each further item.

The two zeros stand at the same place, so a list may have several such numbers.
-/

namespace LiveBook.Number

open Float.Model (UnpackedFloat)

/-! ### Where a float stands -/

/-- Where a float stands among the others. -/
def place : UnpackedFloat → ℤ ×ₗ ℤ ×ₗ ℤ
  | .infinity .negative => toLex (-2, toLex (0, 0))
  | .finite .negative m e _ => toLex (-1, toLex (-e, -m))
  | .zero _ => toLex (0, toLex (0, 0))
  | .finite .positive m e _ => toLex (1, toLex (e, m))
  | .infinity .positive => toLex (2, toLex (0, 0))
  | .notANumber => toLex (0, toLex (0, 0))

theorem compare_toLex (s a b c d : ℤ) :
    compare (toLex (s, toLex (a, b))) (toLex (s, toLex (c, d))) =
      (compare a c).then (compare b d) := by
  simp [Prod.Lex.compare_def, compareLex, compareOn]

theorem toLex_lt_of_fst {s s' : ℤ} {p p' : ℤ ×ₗ ℤ} (h : s < s') : toLex (s, p) < toLex (s', p') :=
  Prod.Lex.toLex_lt_toLex.mpr (.inl h)

theorem compare_neg (a b : ℤ) : compare (-a) (-b) = (compare a b).swap := by
  rcases lt_trichotomy a b with h | rfl | h
  · rw [compare_lt_iff_lt.mpr h, compare_gt_iff_gt.mpr (Int.neg_lt_neg h), Ordering.swap_lt]
  · rw [compare_eq_iff_eq.mpr rfl, compare_eq_iff_eq.mpr rfl, Ordering.swap_eq]
  · rw [compare_gt_iff_gt.mpr h, compare_lt_iff_lt.mpr (Int.neg_lt_neg h), Ordering.swap_gt]

theorem compare_natCast (a b : ℕ) : compare (a : ℤ) (b : ℤ) = compare a b := by
  simp only [compare, compareOfLessAndEq, Int.ofNat_lt, Int.ofNat_inj]

/-- Positive numbers compare by their exponents, and then by their significands. -/
theorem compare_positive (m m' : ℕ) (e e' : ℤ) :
    compare (toLex ((1 : ℤ), toLex (e, (m : ℤ)))) (toLex (1, toLex (e', (m' : ℤ)))) =
      (compare e e').then (compare m m') := by
  rw [compare_toLex, compare_natCast]

/-- Negative numbers compare the other way. -/
theorem compare_negative (m m' : ℕ) (e e' : ℤ) :
    compare (toLex ((-1 : ℤ), toLex (-e, -(m : ℤ)))) (toLex (-1, toLex (-e', -(m' : ℤ)))) =
      ((compare e e').then (compare m m')).swap := by
  rw [compare_toLex, compare_neg, compare_neg, compare_natCast, Ordering.swap_then]

/-- **Numbers compare by their places.** -/
theorem compare_eq {a b : UnpackedFloat} (ha : a.isNaN = false) (hb : b.isNaN = false) :
    a.compare b = some (compare (place a) (place b)) := by
  rcases a with (_ | _) | _ | (_ | _) | ⟨_ | _, m, e, hm⟩ <;>
    rcases b with (_ | _) | _ | (_ | _) | ⟨_ | _, m', e', hm'⟩ <;>
      first
      | rfl
      | exact absurd ha (by decide)
      | exact absurd hb (by decide)
      | exact congrArg some (compare_positive m m' e e').symm
      | exact congrArg some (compare_negative m m' e e').symm

theorem compare_eq_none {a b : UnpackedFloat} (h : ¬(a.isNaN = false ∧ b.isNaN = false)) :
    a.compare b = none := by
  rcases a with s | _ | s | ⟨s, m, e, hm⟩ <;> rcases b with s' | _ | s' | ⟨s', m', e', hm'⟩ <;>
    first
    | exact absurd ⟨rfl, rfl⟩ h
    | cases s <;> rfl
    | rfl

/-! ### The comparisons of floats -/

/-- The place of a float. -/
def placeOf (x : Float) : ℤ ×ₗ ℤ ×ₗ ℤ := place x.toModel.unpack

theorem lt_iff {x y : Float} :
    x < y ↔ (x.isNaN = false ∧ y.isNaN = false) ∧ placeOf x < placeOf y := by
  change Float.lt x y = true ↔ _
  rw [Float.lt, decide_eq_true_eq]
  change (x.toModel.unpack.compare y.toModel.unpack == some Ordering.lt) = true ↔ _
  by_cases h : x.isNaN = false ∧ y.isNaN = false
  · rw [compare_eq h.1 h.2, beq_iff_eq, Option.some.injEq, compare_lt_iff_lt]
    exact (and_iff_right h).symm
  · rw [compare_eq_none h]
    exact ⟨fun hf => absurd hf (by decide), fun hf => absurd hf.1 h⟩

theorem le_iff {x y : Float} :
    x ≤ y ↔ (x.isNaN = false ∧ y.isNaN = false) ∧ placeOf x ≤ placeOf y := by
  change Float.le x y = true ↔ _
  rw [Float.le, decide_eq_true_eq]
  change (x.toModel.unpack.compare y.toModel.unpack).any (·.isLE) = true ↔ _
  by_cases h : x.isNaN = false ∧ y.isNaN = false
  · rw [compare_eq h.1 h.2, Option.any_some, ← Ordering.ne_gt_iff_isLE, ← ne_eq,
      compare_le_iff_le]
    exact (and_iff_right h).symm
  · rw [compare_eq_none h]
    exact ⟨fun hf => absurd hf (by decide), fun hf => absurd hf.1 h⟩

/-- A number is finite if it stands between the infinities. -/
theorem isFinite_iff {x : Float} (hx : x.isNaN = false) :
    x.isFinite = true ↔
      place (.infinity .negative) < placeOf x ∧ placeOf x < place (.infinity .positive) := by
  change x.toModel.unpack.isFinite = true ↔ _
  change x.toModel.unpack.isNaN = false at hx
  unfold placeOf
  generalize x.toModel.unpack = u at hx ⊢
  rcases u with (_ | _) | _ | (_ | _) | ⟨_ | _, m, e, hm⟩ <;>
    first
    | exact absurd hx (by decide)
    | exact iff_of_false nofun fun h => lt_irrefl _ h.1
    | exact iff_of_false nofun fun h => lt_irrefl _ h.2
    | exact iff_of_true rfl ⟨toLex_lt_of_fst (by decide), toLex_lt_of_fst (by decide)⟩

theorem le_refl {x : Float} (hx : x.isNaN = false) : x ≤ x := le_iff.mpr ⟨⟨hx, hx⟩, le_rfl⟩

theorem le_trans {x y z : Float} (h : x ≤ y) (h' : y ≤ z) : x ≤ z := by
  rw [le_iff] at h h' ⊢
  exact ⟨⟨h.1.1, h'.1.2⟩, h.2.trans h'.2⟩

theorem le_of_lt {x y : Float} (h : x < y) : x ≤ y := by
  rw [lt_iff] at h
  exact le_iff.mpr ⟨h.1, h.2.le⟩

theorem le_of_not_lt {x y : Float} (hx : x.isNaN = false) (hy : y.isNaN = false)
    (h : ¬x < y) : y ≤ x := by
  rw [lt_iff] at h
  exact le_iff.mpr ⟨⟨hy, hx⟩, not_lt.mp fun hlt => h ⟨⟨hx, hy⟩, hlt⟩⟩

/-! ### The greatest and the least of some floats -/

/-- A number among some floats that is no less than any other. -/
structure IsGreatest (xs : List Float) (z : Float) : Prop where
  mem : z ∈ xs
  isNumber : z.isNaN = false
  le : ∀ x ∈ xs, x.isNaN = false → x ≤ z

/-- A number among some floats that no other is less than. -/
structure IsLeast (xs : List Float) (z : Float) : Prop where
  mem : z ∈ xs
  isNumber : z.isNaN = false
  le : ∀ x ∈ xs, x.isNaN = false → z ≤ x

variable {xs : List Float} {x y z : Float}

theorem IsGreatest.singleton (h : z.isNaN = false) : IsGreatest [z] z :=
  ⟨List.mem_singleton_self z, h, List.forall_mem_singleton.mpr le_refl⟩

theorem IsLeast.singleton (h : z.isNaN = false) : IsLeast [z] z :=
  ⟨List.mem_singleton_self z, h, List.forall_mem_singleton.mpr le_refl⟩

/-- **One comparison keeps the greatest.** -/
theorem IsGreatest.concat (h : IsGreatest xs z) (x : Float) :
    IsGreatest (xs ++ [x]) (if z < x then x else z) := by
  by_cases hlt : z < x
  · rw [if_pos hlt]
    have hx : x.isNaN = false := (lt_iff.mp hlt).1.2
    refine ⟨List.mem_concat_self, hx, List.forall_mem_append.mpr ⟨fun y hy hnum => ?_, ?_⟩⟩
    · exact le_trans (h.le y hy hnum) (le_of_lt hlt)
    · exact List.forall_mem_singleton.mpr le_refl
  · rw [if_neg hlt]
    refine ⟨List.mem_append_left _ h.mem, h.isNumber, List.forall_mem_append.mpr ⟨h.le, ?_⟩⟩
    exact List.forall_mem_singleton.mpr fun hnum => le_of_not_lt h.isNumber hnum hlt

/-- **One comparison keeps the least.** -/
theorem IsLeast.concat (h : IsLeast xs z) (x : Float) :
    IsLeast (xs ++ [x]) (if x < z then x else z) := by
  by_cases hlt : x < z
  · rw [if_pos hlt]
    have hx : x.isNaN = false := (lt_iff.mp hlt).1.1
    refine ⟨List.mem_concat_self, hx, List.forall_mem_append.mpr ⟨fun y hy hnum => ?_, ?_⟩⟩
    · exact le_trans (le_of_lt hlt) (h.le y hy hnum)
    · exact List.forall_mem_singleton.mpr le_refl
  · rw [if_neg hlt]
    refine ⟨List.mem_append_left _ h.mem, h.isNumber, List.forall_mem_append.mpr ⟨h.le, ?_⟩⟩
    exact List.forall_mem_singleton.mpr fun hnum => le_of_not_lt hnum h.isNumber hlt

theorem IsLeast.of_cons (h : IsLeast (y :: xs) z) (hz : z ∈ xs) : IsLeast xs z :=
  ⟨hz, h.isNumber, fun x hx => h.le x (List.mem_cons_of_mem y hx)⟩

/-- Numbers that are least stand at the same place, so one is finite if the other is. -/
theorem IsLeast.isFinite_eq (h : IsLeast xs y) (h' : IsLeast xs z) :
    y.isFinite = z.isFinite := by
  have hle : placeOf y ≤ placeOf z := (le_iff.mp (h.le z h'.mem h'.isNumber)).2
  have hge : placeOf z ≤ placeOf y := (le_iff.mp (h'.le y h.mem h.isNumber)).2
  rw [Bool.eq_iff_iff, isFinite_iff h.isNumber, isFinite_iff h'.isNumber, le_antisymm hle hge]

end LiveBook.Number
