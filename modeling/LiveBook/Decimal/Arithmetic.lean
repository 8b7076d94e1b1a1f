import LiveBook.Decimal.Basic
import LiveBook.Number.Power

/-!
# Arithmetic on decimals

Every operation works on the exact result first and then makes it fit: a result
that needs more than 96 bits, or more than 28 digits behind the point, gives up
digits behind the point until it fits, and the last digit kept is rounded to the
nearest, a half going to the even neighbour. A result that does not fit without
any digit behind the point is an overflow, and the operation answers `none`.

* `LiveBook.Decimal.add?`, `LiveBook.Decimal.sub?` – sum and difference, at the
  larger of the two scales; a zero operand leaves the other one as it is;
* `LiveBook.Decimal.mul?` – the product;
* `LiveBook.Decimal.div?` – long division, nine digits at a time, with the
  superfluous zeros of the result taken off at the end;
* `LiveBook.Decimal.mid?` – half of the sum.
-/

namespace LiveBook.Decimal

open Number (tenTo twoTo)

/-! ### Fitting an exact result -/

/-- The quotient rounded to the nearest integer, a half to the even neighbour. -/
def roundDiv (n d : Nat) : Nat :=
  let q := n / d
  let r := n % d
  if d < 2 * r || (2 * r == d && q % 2 == 1) then q + 1 else q

/-- The first `k` of `candidates`, a number of digits to give up, after which the
rounded coefficient fits. -/
def firstFit (negative : Bool) (coefficient scale : Nat) : List Nat → Option Decimal
  | [] => none
  | k :: rest =>
    (ofParts? negative (roundDiv coefficient (tenTo k)) (scale - k)).or
      (firstFit negative coefficient scale rest)

/-- The exact number `coefficient / 10 ^ scale`, with as many digits behind the
point as fit. -/
def fit (negative : Bool) (coefficient scale : Nat) : Option Decimal :=
  firstFit negative coefficient scale (List.range (scale + 1))

/-- The exact number `i / 10 ^ scale`, with as many digits behind the point as fit. -/
def fitInt (i : Int) (scale : Nat) : Option Decimal :=
  fit (decide (i < 0)) i.natAbs scale

/-! ### Sum, difference and product -/

/-- The negated decimal: the same digits under the other sign, those of a zero as well. -/
def neg (d : Decimal) : Decimal where
  negative := !d.negative
  coefficient := d.coefficient
  scale := d.scale
  coefficient_le := d.coefficient_le
  scale_le := d.scale_le

/-- The sum, `none` if it does not fit. -/
def add? (a b : Decimal) : Option Decimal :=
  if a.isZero then some b
  else if b.isZero then some a
  else
    let scale := max a.scale b.scale
    fitInt (a.signed * tenTo (scale - a.scale) + b.signed * tenTo (scale - b.scale)) scale

/-- The difference, `none` if it does not fit. A zero is taken away without a look at its
sign. -/
def sub? (a b : Decimal) : Option Decimal := a.add? (if b.isZero then b else b.neg)

/-- The product, `none` if it does not fit. -/
def mul? (a b : Decimal) : Option Decimal :=
  if a.isZero || b.isZero then some zero
  else fit (a.negative != b.negative) (a.coefficient * b.coefficient) (a.scale + b.scale)

/-! ### Division -/

/-- The number of further digits that one step of a division brings in: at most
nine, none that would leave the scale or the 96 bits. -/
def stepDigits (q : Nat) (scale : Int) : Nat :=
  let limit := min 9 (maxScale - scale).toNat
  ((List.range (limit + 1)).reverse.find? fun p => q * tenTo p ≤ maxCoefficient).getD 0

/-- Takes off one power of ten, if the coefficient admits it. -/
def dropZeros (digits twos : Nat) (p : Nat × Nat) : Nat × Nat :=
  if p.1 % twos = 0 ∧ digits ≤ p.2 ∧ p.1 % tenTo digits = 0 then
    (p.1 / tenTo digits, p.2 - digits)
  else p

/-- Takes off superfluous zeros behind the point: eight at a time while the lowest
32 bits of the coefficient are zero, then four, two and one, each at most once. -/
def trimZeros (q scale : Nat) : Nat × Nat :=
  let eight := (List.range 3).foldl (fun p _ => dropZeros 8 (twoTo 32) p) (q, scale)
  dropZeros 1 2 (dropZeros 2 4 (dropZeros 4 16 eight))

/-- A quotient that has just left the 96 bits gives up its last digit. `sticky` says
that digits behind it were cut off. -/
def shrink (q : Nat) (scale : Int) (sticky : Bool) : Option (Nat × Int) :=
  if scale ≤ 0 then none
  else
    let r := q % 10
    let up := 5 < r || (r == 5 && (sticky || (q / 10) % 2 == 1))
    some (q / 10 + (if up then 1 else 0), scale - 1)

/-- Long division of a remainder: the quotient so far, the remainder, the scale so
far and whether a remainder was ever left. The answer has the final quotient and
scale. Each step either ends the division or brings the scale nearer to 28, so
`fuel` bounds the number of steps. -/
def divide (d : Nat) : Nat → Nat → Nat → Int → Bool → Option (Nat × Int × Bool)
  | 0, _, _, _, _ => none
  | fuel + 1, q, r, scale, inexact =>
    if r = 0 then
      if 0 ≤ scale then some (q, scale, inexact)
      else
        let p := min 9 scale.natAbs
        let q' := q * tenTo p
        if maxCoefficient < q' then none else divide d fuel q' 0 (scale + p) inexact
    else
      let p := stepDigits q scale
      if scale + p < 0 ∧ p < 9 then none
      else if p = 0 then
        let up := d < 2 * r || (2 * r == d && q % 2 == 1)
        let q' := if up then q + 1 else q
        if maxCoefficient < q' then (shrink q' scale true).map fun (q, s) => (q, s, true)
        else some (q', scale, true)
      else
        let q' := q * tenTo p + r * tenTo p / d
        let r' := r * tenTo p % d
        if maxCoefficient < q' then
          (shrink q' (scale + p) (r' != 0)).map fun (q, s) => (q, s, true)
        else divide d fuel q' r' (scale + p) true

/-- The quotient, `none` if it does not fit or the divisor is zero. -/
def div? (a b : Decimal) : Option Decimal :=
  if b.isZero then none
  else if a.isZero then some zero
  else do
    let (q, scale, inexact) ← divide b.coefficient 64 (a.coefficient / b.coefficient)
      (a.coefficient % b.coefficient) (a.scale - b.scale) false
    let (q, scale) := if inexact then trimZeros q scale.toNat else (q, scale.toNat)
    ofParts? (a.negative != b.negative) q scale

/-- Halfway between two decimals, `none` on overflow. -/
def mid? (a b : Decimal) : Option Decimal := do
  (← a.add? b).div? (ofNat 2)

end LiveBook.Decimal
