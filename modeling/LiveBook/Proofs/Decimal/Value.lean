import Mathlib.Algebra.Order.Field.Basic
import Mathlib.Algebra.Order.Field.Rat
import Mathlib.Data.Int.CharZero
import Mathlib.Order.Compare
import LiveBook.Decimal.Arithmetic

/-!
# The value of a decimal

A decimal keeps the number of its digits behind the point, so many decimals have one
value. This file names that value, a rational number, and says that the order of decimals
is the order of their values (`LiveBook.Decimal.compareValue_eq_compare`). What is proved
about books *by value* rests on this one statement, because nothing else in a book looks
at a price.
-/

namespace LiveBook

namespace Decimal

open Number (tenTo twoTo)

/-- **The value of a decimal.** -/
def value (d : Decimal) : ℚ := d.signed / tenTo d.scale

/-- A power of ten is positive as a rational number, too. -/
theorem tenTo_cast_pos (n : ℕ) : (0 : ℚ) < tenTo n := by
  exact_mod_cast Number.tenTo_pos n

/-- **Decimals are ordered as their values are**: bringing two coefficients to one scale
multiplies both values by the same positive number. -/
theorem compareValue_eq_compare (a b : Decimal) : a.compareValue b = compare a.value b.value := by
  have ha : (tenTo a.scale : ℚ) ≠ 0 := (tenTo_cast_pos a.scale).ne'
  have hb : (tenTo b.scale : ℚ) ≠ 0 := (tenTo_cast_pos b.scale).ne'
  have hpos : (0 : ℚ) < tenTo a.scale * tenTo b.scale :=
    mul_pos (tenTo_cast_pos _) (tenTo_cast_pos _)
  have hl : a.value * (tenTo a.scale * tenTo b.scale) = a.signed * tenTo b.scale := by
    rw [value, ← mul_assoc, div_mul_cancel₀ _ ha]
  have hr : b.value * (tenTo a.scale * tenTo b.scale) = b.signed * tenTo a.scale := by
    rw [value, mul_comm (tenTo a.scale : ℚ), ← mul_assoc, div_mul_cancel₀ _ hb]
  rw [← cmp_eq_compare, ← cmp_mul_pos_right hpos, hl, hr, compareValue, ← cmp_eq_compare]
  simp only [cmp, cmpUsing]
  norm_cast

theorem sameValue_iff {a b : Decimal} : a.sameValue b = true ↔ a.value = b.value := by
  rw [sameValue, compareValue_eq_compare, beq_iff_eq, compare_eq_iff_eq]

theorem isZero_iff {d : Decimal} : d.isZero = true ↔ d.value = 0 := by
  rw [value, div_eq_zero_iff, or_iff_left (tenTo_cast_pos d.scale).ne', Int.cast_eq_zero, signed,
    isZero, beq_iff_eq]
  cases d.negative <;> simp

/-- **A decimal is negative if its value is below zero**: a zero is not, whatever its sign. -/
theorem isNegative_iff {d : Decimal} : d.isNegative = true ↔ d.value < 0 := by
  rw [value, div_lt_iff₀ (tenTo_cast_pos d.scale), zero_mul, Int.cast_lt_zero, signed, isNegative,
    isZero]
  cases d.negative with
  | false => simp
  | true => simp [Nat.pos_iff_ne_zero]

/-- A negation turns the value over. -/
theorem value_neg (d : Decimal) : d.neg.value = -d.value := by
  have hsigned : d.neg.signed = -d.signed := by
    cases h : d.negative <;> simp [signed, neg, h]
  simp only [value, hsigned, Int.cast_neg, neg_div]
  rfl

-- `-0` has a sign, and is not negative.
example : zero.neg.negative = true ∧ zero.neg.isZero = true ∧ zero.neg.isNegative = false := by
  decide

end Decimal

end LiveBook
