import LiveBook.Decimal.Arithmetic
import LiveBook.Number.Power

/-!
# Reading decimals

A decimal is written as an optional sign, digits with at most one point among
them, and an optional exponent. Underscores may stand anywhere behind the first
digit. Digits that no longer fit are treated in one of two ways: before the point
they are an error, behind the point the first of them decides the rounding, a
half going up, and nothing behind it is looked at any more.

* `LiveBook.Decimal.ParseError` – the ways in which a text is no decimal, with
  their wording in `LiveBook.Decimal.ParseError.message`;
* `LiveBook.Decimal.parsePlain` – a decimal without exponent;
* `LiveBook.Decimal.parse` – a decimal.
-/

namespace LiveBook.Decimal

open Number (tenTo twoTo)

/-- Why a text is not a decimal. -/
inductive ParseError where
  /-- There is nothing to read. -/
  | empty
  /-- There is no digit. -/
  | noDigits
  /-- A character that has no place in a number. -/
  | unknownCharacter
  /-- A second point. -/
  | secondPoint
  /-- An underscore before the first digit. -/
  | leadingUnderscore
  /-- The digits before the point do not fit. -/
  | tooManyDigits
  /-- Rounding up the last digit left no room for it. -/
  | roundedOut
  /-- The exponent is no number. -/
  | badExponent
  /-- The exponent asks for this many digits behind the point, or zeros before it. -/
  | scaleTooLarge (digits : Nat)
  /-- The number is too large. -/
  | tooLarge
deriving DecidableEq, Repr

/-- The wording of an error. -/
def ParseError.message : ParseError → String
  | .empty => "Invalid decimal: empty"
  | .noDigits => "Invalid decimal: no digits found"
  | .unknownCharacter => "Invalid decimal: unknown character"
  | .secondPoint => "Invalid decimal: two decimal points"
  | .leadingUnderscore => "Invalid decimal: must start lead with a number"
  | .tooManyDigits => "Invalid decimal: overflow from too many digits"
  | .roundedOut => "Invalid decimal: overflow from mantissa after rounding"
  | .badExponent => "Failed to parse"
  | .scaleTooLarge n =>
    "Scale exceeds the maximum precision allowed: " ++ Digits.natText n ++ " > 28"
  | .tooLarge => "Number exceeds maximum value that can be represented."

/-- The error for a character that cannot stand where it does. -/
def strayCharacter : Char → ParseError
  | '.' => .secondPoint
  | '_' => .leadingUnderscore
  | _ => .unknownCharacter

/-- Rounds at the first character behind the point that is not kept. -/
def roundAt (coefficient scale : Nat) (next : Char) : Except ParseError (Nat × Nat) :=
  match Digits.digit? next with
  | some d =>
    if d < 5 then .ok (coefficient, scale)
    else if coefficient + 1 ≤ maxCoefficient then .ok (coefficient + 1, scale)
    else if scale = 0 then .error .roundedOut
    else .ok ((coefficient + 5) / 10, scale - 1)
  | none =>
    if next = '_' ∨ next = '.' then .ok (coefficient, scale) else .error .unknownCharacter

/-- Reads digits on top of a coefficient. `fraction` is the number of digits behind
the point so far, if the point was seen, and `started` whether a digit was. -/
def scan (coefficient : Nat) (fraction : Option Nat) (started : Bool) :
    List Char → Except ParseError (Nat × Nat)
  | [] => if started then .ok (coefficient, fraction.getD 0) else .error .noDigits
  | c :: rest =>
    if fraction = some maxScale then roundAt coefficient maxScale c
    else
      match Digits.digit? c with
      | some d =>
        let next := coefficient * 10 + d
        if next ≤ maxCoefficient then scan next (fraction.map (· + 1)) true rest
        else
          match fraction with
          | none => .error .tooManyDigits
          | some scale => roundAt coefficient scale c
      | none =>
        if c = '.' ∧ fraction.isNone then scan coefficient (some 0) started rest
        else if c = '_' ∧ started then scan coefficient fraction started rest
        else .error (strayCharacter c)

/-- The decimal with the given parts; only a scale or a coefficient out of range
stands in the way. -/
def build (negative : Bool) (coefficient scale : Nat) : Except ParseError Decimal :=
  if maxScale < scale then .error (.scaleTooLarge scale)
  else
    match ofParts? negative coefficient scale with
    | some d => .ok d
    | none => .error .tooLarge

/-- Reads a decimal without exponent. -/
def parsePlain (cs : List Char) : Except ParseError Decimal := do
  let (negative, digits) :=
    match cs with
    | '-' :: rest => (true, rest)
    | '+' :: rest => (false, rest)
    | _ => (false, cs)
  if cs.isEmpty then throw .empty
  let (coefficient, scale) ← scan 0 none false digits
  build negative coefficient scale

/-- The number that the characters of an exponent denote: digits, with an optional
plus sign in front, below 2^32. -/
def exponentValue? (cs : List Char) : Option Nat :=
  let digits := match cs with
    | '+' :: rest => rest
    | _ => cs
  if digits.isEmpty || !digits.all Digits.isDigit then none
  else
    let n := Digits.value digits
    if n < twoTo 32 then some n else none

/-- A decimal times ten to the `e`: first the digits behind the point are used up,
then zeros are added. -/
def scaleUp (d : Decimal) (e : Nat) : Except ParseError Decimal :=
  if e ≤ d.scale then build d.negative d.coefficient (d.scale - e)
  else if maxScale < e then .error (.scaleTooLarge e)
  else build d.negative (d.coefficient * tenTo (e - d.scale)) 0

/-- A decimal with the exponent whose characters are given. -/
def withExponent (d : Decimal) (cs : List Char) : Except ParseError Decimal :=
  match cs with
  | '-' :: rest =>
    match exponentValue? rest with
    | some e =>
      if maxScale < e then .error (.scaleTooLarge e)
      else build d.negative d.coefficient (d.scale + e)
    | none => .error .badExponent
  | _ =>
    match exponentValue? cs with
    | some e => scaleUp d e
    | none => .error .badExponent

/-- Whether a character introduces an exponent. -/
def isExponentMark (c : Char) : Bool := c == 'e' || c == 'E'

/-- **Reads a decimal.** The mark of an exponent is looked for before a digit is read, so
an exponent counts as well where digits behind the point are rounded away. -/
def parse (text : String) : Except ParseError Decimal :=
  let cs := text.toList
  let base := cs.takeWhile (!isExponentMark ·)
  match cs.drop base.length with
  | [] => parsePlain base
  | _ :: exponent => do withExponent (← parsePlain base) exponent

end LiveBook.Decimal
