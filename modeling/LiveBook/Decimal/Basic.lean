import LiveBook.Number.Power
import LiveBook.Text.Digits

/-!
# Decimals that keep their scale

Prices and sizes are exact decimals: a coefficient of at most 96 bits together
with the number of digits behind the point. `1.0` and `1.00` are the same
*value* and different *decimals*, because the scale is part of what is printed.

* `LiveBook.Decimal` – the type, with its bounds as fields, so that no operation
  can leave the range;
* `LiveBook.Decimal.compareValue` – the order of values, blind to scales;
* `LiveBook.Decimal.text` – the printed form, which shows every digit of the scale.

A zero can have a sign: a negation turns the sign over whatever the digits are. A
signed zero is zero all the same, and not below zero (`LiveBook.Decimal.isNegative`).
A decimal that is made of its parts has no such sign (`LiveBook.Decimal.IsNormal`).
-/

namespace LiveBook

/-- The largest coefficient: 96 bits. -/
def Decimal.maxCoefficient : Nat := Number.twoTo 96 - 1

/-- The largest number of digits behind the point. -/
def Decimal.maxScale : Nat := 28

/-- **A decimal**: a sign, a coefficient and the number of its digits that stand
behind the point. -/
structure Decimal where
  /-- Whether there is a minus sign in front. -/
  negative : Bool
  /-- The digits, read as one number. -/
  coefficient : Nat
  /-- How many of the digits stand behind the point. -/
  scale : Nat
  coefficient_le : coefficient ≤ Decimal.maxCoefficient
  scale_le : scale ≤ Decimal.maxScale
deriving DecidableEq

namespace Decimal

open Number (tenTo)

/-- The decimal with the given parts, unless one of them is out of range. The sign
of a zero is dropped. -/
def ofParts? (negative : Bool) (coefficient scale : Nat) : Option Decimal :=
  if h : coefficient ≤ maxCoefficient ∧ scale ≤ maxScale then
    some {
      negative := negative && coefficient != 0
      coefficient := coefficient
      scale := scale
      coefficient_le := h.1
      scale_le := h.2 }
  else
    none

/-- Zero without digits behind the point. -/
def zero : Decimal := ⟨false, 0, 0, by decide, by decide⟩

instance : Inhabited Decimal := ⟨zero⟩

/-- A small natural number as a decimal. -/
def ofNat (n : Nat) (h : n ≤ maxCoefficient := by decide) : Decimal :=
  ⟨false, n, 0, h, by decide⟩

/-- The coefficient with its sign. -/
def signed (d : Decimal) : Int :=
  if d.negative then -(d.coefficient : Int) else d.coefficient

/-- Whether the value is zero, at any scale. -/
def isZero (d : Decimal) : Bool := d.coefficient == 0

/-- Whether the value is below zero. A sign alone does not make it so: `-0` is zero. -/
def isNegative (d : Decimal) : Bool := !d.isZero && d.negative

/-- **A decimal in normal form**: if it is zero, it has no sign. -/
def IsNormal (d : Decimal) : Prop := d.coefficient = 0 → d.negative = false

instance (d : Decimal) : Decidable d.IsNormal :=
  inferInstanceAs (Decidable (_ → _))

/-- The order of the values: both coefficients are brought to one scale. -/
def compareValue (a b : Decimal) : Ordering :=
  compare (a.signed * tenTo b.scale) (b.signed * tenTo a.scale)

/-- Whether two decimals have the same value, whatever their scales. -/
def sameValue (a b : Decimal) : Bool := a.compareValue b == .eq

/-- The characters of a decimal: a sign, at least one digit before the point, and
one digit behind it for each step of the scale. -/
def chars (d : Decimal) : List Char :=
  let digits := Digits.padded (d.scale + 1) d.coefficient
  let whole := digits.take (digits.length - d.scale)
  let fraction := digits.drop (digits.length - d.scale)
  (if d.negative then ['-'] else []) ++ whole ++
    (if d.scale = 0 then [] else '.' :: fraction)

/-- The printed form. -/
def text (d : Decimal) : String := String.ofList d.chars

theorem isNormal_of_ofParts? {n : Bool} {c s : Nat} {d : Decimal}
    (h : ofParts? n c s = some d) : d.IsNormal := by
  unfold ofParts? at h
  split at h
  next =>
    obtain rfl := Option.some.inj h
    intro h0
    simp_all
  next => cases h

/-- A decimal in normal form is the one that is made of its parts. -/
theorem IsNormal.ofParts?_self {d : Decimal} (h : d.IsNormal) :
    ofParts? d.negative d.coefficient d.scale = some d := by
  have hb : d.coefficient ≤ maxCoefficient ∧ d.scale ≤ maxScale := ⟨d.coefficient_le, d.scale_le⟩
  rw [ofParts?, dif_pos hb]
  congr 1
  cases d with
  | mk n c s hc hs =>
    simp only [mk.injEq, and_true]
    by_cases h0 : c = 0
    · have hn : n = false := h h0
      simp [hn]
    · simp [h0]

end Decimal

end LiveBook
