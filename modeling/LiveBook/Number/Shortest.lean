import LiveBook.Number.Power

/-!
# The shortest decimal of a floating number

A floating number stands for all the reals that round to it, an interval around it.
Its shortest decimal is the one with the fewest digits in that interval, and of two
such decimals the nearer one. Everything is decided in exact integer arithmetic.

* `LiveBook.Number.Binary` – a finite floating number as `significand * 2 ^ exponent`;
* `LiveBook.Number.Binary.interval` – the reals that round to it;
* `LiveBook.Number.shortest` – its shortest decimal.

For each number of digits there are only two decimals to look at, the neighbours of
the number itself on the grid of that many digits: if the interval has any point of
the grid, it has one of these two.
-/

namespace LiveBook.Number

/-- A finite positive floating number: `significand * 2 ^ exponent`. -/
structure Binary where
  significand : Nat
  exponent : Int
deriving DecidableEq, Repr

/-- The magnitude of a float from its bits, `none` for infinities and what is no number. -/
def Binary.ofBits (bits : UInt64) : Option Binary :=
  let n := bits.toNat
  let mantissa : Nat := n % twoTo 52
  let biased : Nat := n / twoTo 52 % twoTo 11
  if biased = 2047 then none
  else if biased = 0 then some ⟨mantissa, -1074⟩
  else some ⟨twoTo 52 + mantissa, (biased : Int) - 1075⟩

/-- A positive rational with its numerator and denominator. -/
structure Ratio where
  num : Nat
  den : Nat

/-- `n * 2 ^ e` as a quotient. -/
def Ratio.ofBinary (n : Nat) (e : Int) : Ratio :=
  if 0 ≤ e then ⟨n * twoTo e.natAbs, 1⟩ else ⟨n, twoTo e.natAbs⟩

/-- `r / 10 ^ k` as a quotient. -/
def Ratio.shift (r : Ratio) (k : Int) : Ratio :=
  if 0 ≤ k then ⟨r.num, r.den * tenTo k.natAbs⟩ else ⟨r.num * tenTo k.natAbs, r.den⟩

/-- Whether `10 ^ k ≤ r`. -/
def Ratio.atLeastPow (r : Ratio) (k : Int) : Bool :=
  let s := r.shift k
  s.den ≤ s.num

/-- The lower end, the number itself and the upper end, each times four, in units of a
quarter of the last bit. Below a power of two the floats lie closer together. -/
def Binary.interval (b : Binary) : Nat × Nat × Nat :=
  let below := if b.significand = twoTo 52 ∧ -1074 < b.exponent then 1 else 2
  (4 * b.significand - below, 4 * b.significand, 4 * b.significand + 2)

/-- The largest `k` with `10 ^ k` at most the number; the estimate from the highest
bit is right or one too small. -/
def Binary.magnitude (b : Binary) : Int :=
  let r := Ratio.ofBinary b.significand b.exponent
  let guess := ((Nat.log2 b.significand + b.exponent) * 30103).fdiv 100000
  if r.atLeastPow (guess + 1) then guess + 1 else guess

/-- The decimal `digits * 10 ^ k` that is nearest to the number among the two next to
it on the grid of `10 ^ k` and lies in the interval of the number. -/
def Binary.onGrid (b : Binary) (k : Int) : Option Nat :=
  let (low, mid, high) := b.interval
  let lowR := (Ratio.ofBinary low (b.exponent - 2)).shift k
  let midR := (Ratio.ofBinary mid (b.exponent - 2)).shift k
  let highR := (Ratio.ofBinary high (b.exponent - 2)).shift k
  let closed := b.significand % 2 == 0
  let inside (c : Nat) : Bool :=
    (lowR.num < c * lowR.den || (closed && lowR.num == c * lowR.den)) &&
      (c * highR.den < highR.num || (closed && c * highR.den == highR.num))
  let c := midR.num / midR.den
  let r := midR.num % midR.den
  let down := inside c && c != 0
  let up := inside (c + 1)
  if down && up then
    if 2 * r < midR.den then some c
    else if midR.den < 2 * r then some (c + 1)
    else some (if c % 2 = 0 then c else c + 1)
  else if down then some c
  else if up then some (c + 1)
  else none

/-- The first grid, from `count` digits on, that has a decimal of the number. Seventeen
digits always suffice. -/
def Binary.search (b : Binary) (fuel : Nat) (k : Int) : Nat × Int :=
  match fuel with
  | 0 => (b.significand, b.exponent)
  | fuel + 1 =>
    match b.onGrid k with
    | some digits => (digits, k)
    | none => b.search fuel (k - 1)

/-- Takes zeros off the end of the digits. -/
def dropTrailingZeros (fuel : Nat) (digits : Nat) (k : Int) : Nat × Int :=
  match fuel with
  | 0 => (digits, k)
  | fuel + 1 =>
    if digits ≠ 0 ∧ digits % 10 = 0 then dropTrailingZeros fuel (digits / 10) (k + 1)
    else (digits, k)

/-- **The shortest decimal** of a positive number: `(digits, k)` stands for
`digits * 10 ^ k`, and the digits do not end in a zero. -/
def shortest (b : Binary) : Nat × Int :=
  if b.significand = 0 then (0, 0)
  else
    let (digits, k) := b.search 18 b.magnitude
    dropTrailingZeros 18 digits k

end LiveBook.Number
