import LiveBook.Number.Power
import LiveBook.Number.Shortest
import LiveBook.Text.Digits

/-!
# How floating numbers are written

Two ways to write the shortest decimal of a float. The **plain** way never has an
exponent and gives whole numbers no point. The **scientific** way marks a float as
one: a whole number gets `.0`, and very large or very small numbers get an exponent
with its sign and at least two digits.

* `LiveBook.Number.plain` – as quantities are shown in a metrics text;
* `LiveBook.Number.scientific` – as a float is named in an error.
-/

namespace LiveBook.Number

/-- Whether the sign bit of a float is set. -/
def hasSign (x : Float) : Bool := x.toBits.toNat / twoTo 63 == 1

/-- The digits of a decimal with `digits * 10 ^ k`, split at the point. -/
def splitAtPoint (digits : Nat) (k : Int) : List Char × List Char :=
  let ds := Digits.ofNat digits
  if 0 ≤ k then (ds ++ List.replicate k.natAbs '0', [])
  else
    let padded := List.replicate (k.natAbs + 1 - ds.length) '0' ++ ds
    (padded.take (padded.length - k.natAbs), padded.drop (padded.length - k.natAbs))

/-- The text of a float without exponent. -/
def plain (x : Float) : String :=
  if x.isNaN then "NaN"
  else
    let sign := if hasSign x then "-" else ""
    match Binary.ofBits x.toBits with
    | none => sign ++ "inf"
    | some b =>
      let (digits, k) := shortest b
      let (whole, fraction) := splitAtPoint digits k
      sign ++ String.ofList (whole ++ (if fraction.isEmpty then [] else '.' :: fraction))

/-- The exponents that are written out in the scientific way. -/
def positionalFrom : Int := -5

/-- The first exponent that is no longer written out in the scientific way. -/
def positionalBelow : Int := 16

/-- The text of a float that shows that it is one. -/
def scientific (x : Float) : String :=
  if x.isNaN then "NaN"
  else
    let sign := if hasSign x then "-" else ""
    match Binary.ofBits x.toBits with
    | none => sign ++ "inf"
    | some b =>
      let (digits, k) := shortest b
      let ds := Digits.ofNat digits
      let e : Int := k + ds.length - 1
      if positionalFrom ≤ e ∧ e < positionalBelow then
        let (whole, fraction) := splitAtPoint digits k
        sign ++ String.ofList (whole ++ '.' :: (if fraction.isEmpty then ['0'] else fraction))
      else
        let point := match ds.tail with
          | [] => []
          | rest => '.' :: rest
        let mark := if e < 0 then '-' else '+'
        sign ++ String.ofList
          (ds.take 1 ++ point ++ ['e', mark] ++ Digits.padded 2 e.natAbs)

end LiveBook.Number
