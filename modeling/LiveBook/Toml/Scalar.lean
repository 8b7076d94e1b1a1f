import LiveBook.Json.Document
import LiveBook.Number.Power

/-!
# Scalars of a configuration file

Strings, numbers, truth values and dates as TOML writes them. A reader takes the
characters from the current position on and gives a value and the characters behind it;
it gives nothing if the text is not in order.

* `LiveBook.Toml.readString` – strings of the four kinds;
* `LiveBook.Toml.readNumber` – integers of 64 bits, in four bases, and floating numbers;
* `LiveBook.Toml.readDate`, `LiveBook.Toml.readTime` – dates and times of day. They have
  no counterpart in a JSON document; they become an object with a single member.
-/

namespace LiveBook.Toml

open Json (Document)
open Number (tenTo twoTo)

/-- Whether a character is blank within a line. -/
def isSpace (c : Char) : Bool := c == ' ' || c == '\t'

/-- The characters without blanks in front. -/
def skipSpace (cs : List Char) : List Char := cs.dropWhile isSpace

/-- The characters behind a line break. -/
def lineBreak? : List Char → Option (List Char)
  | '\n' :: rest => some rest
  | '\r' :: '\n' :: rest => some rest
  | _ => none

/-- Whether a character may stand in a comment: no control character but the tab. -/
def isText (c : Char) : Bool := c == '\t' || (' ' ≤ c && c != '\x7f')

/-! ### Strings -/

/-- The character with a number given by hexadecimal digits. -/
def hexChar? (digits : List Char) : Option Char := do
  let n ← digits.foldlM (fun n c => do return n * 16 + (← Json.hexValue? c)) 0
  if n < 0xD800 ∨ (0xDFFF < n ∧ n < 0x110000) then some (Char.ofNat n) else none

/-- The character of an escape, which begins behind the backslash. -/
def readEscape : List Char → Option (Char × List Char)
  | 'b' :: rest => some ('\x08', rest)
  | 'f' :: rest => some ('\x0c', rest)
  | 'n' :: rest => some ('\n', rest)
  | 'r' :: rest => some ('\r', rest)
  | 't' :: rest => some ('\t', rest)
  | '"' :: rest => some ('"', rest)
  | '\\' :: rest => some ('\\', rest)
  | 'u' :: rest => do
    if rest.length < 4 then none
    return (← hexChar? (rest.take 4), rest.drop 4)
  | 'U' :: rest => do
    if rest.length < 8 then none
    return (← hexChar? (rest.take 8), rest.drop 8)
  | _ => none

/-- A string on one line up to its quote. -/
def readBasic (fuel : Nat) (acc cs : List Char) : Option (String × List Char) :=
  match fuel, cs with
  | 0, _ => none
  | _, [] => none
  | _, '"' :: rest => some (String.ofList acc.reverse, rest)
  | fuel + 1, '\\' :: rest => do
    let (c, rest) ← readEscape rest
    readBasic fuel (c :: acc) rest
  | fuel + 1, c :: rest => if isText c then readBasic fuel (c :: acc) rest else none

/-- A string without escapes on one line up to its quote. -/
def readLiteral (acc : List Char) : List Char → Option (String × List Char)
  | [] => none
  | '\'' :: rest => some (String.ofList acc.reverse, rest)
  | c :: rest => if isText c then readLiteral (c :: acc) rest else none

/-- The end of a string of several lines, behind three quotes: up to two more of them
belong to the string. -/
def closeLines (quote : Char) (acc rest : List Char) : String × List Char :=
  let extra := (rest.take 2).takeWhile (· == quote)
  (String.ofList (acc.reverse ++ extra), rest.drop extra.length)

/-- The characters behind the blanks and line breaks that follow. -/
def skipLines (fuel : Nat) (cs : List Char) : List Char :=
  match fuel with
  | 0 => cs
  | fuel + 1 =>
    let cs := skipSpace cs
    match lineBreak? cs with
    | some rest => skipLines fuel rest
    | none => cs

/-- A string of several lines up to its three quotes. A backslash at the end of a line
takes away the line break and all blanks behind it. -/
def readLines (fuel : Nat) (acc cs : List Char) : Option (String × List Char) :=
  match fuel, cs with
  | 0, _ => none
  | _, [] => none
  | _, '"' :: '"' :: '"' :: rest => some (closeLines '"' acc rest)
  | fuel + 1, '"' :: rest => readLines fuel ('"' :: acc) rest
  | fuel + 1, '\n' :: rest => readLines fuel ('\n' :: acc) rest
  | fuel + 1, '\r' :: rest =>
    match rest with
    | '\n' :: rest => readLines fuel ('\n' :: acc) rest
    | _ => none
  | fuel + 1, '\\' :: rest =>
    match lineBreak? (skipSpace rest) with
    | some rest => readLines fuel acc (skipLines rest.length rest)
    | none => do
      let (c, rest) ← readEscape rest
      readLines fuel (c :: acc) rest
  | fuel + 1, c :: rest => if isText c then readLines fuel (c :: acc) rest else none

/-- A string of several lines without escapes up to its three quotes. -/
def readLiteralLines (fuel : Nat) (acc cs : List Char) : Option (String × List Char) :=
  match fuel, cs with
  | 0, _ => none
  | _, [] => none
  | _, '\'' :: '\'' :: '\'' :: rest => some (closeLines '\'' acc rest)
  | fuel + 1, '\n' :: rest => readLiteralLines fuel ('\n' :: acc) rest
  | fuel + 1, '\r' :: rest =>
    match rest with
    | '\n' :: rest => readLiteralLines fuel ('\n' :: acc) rest
    | _ => none
  | fuel + 1, c :: rest =>
    if isText c then readLiteralLines fuel (c :: acc) rest else none

/-- The characters behind one line break, if there is one. -/
def afterBreak (cs : List Char) : List Char := (lineBreak? cs).getD cs

/-- A string of any kind. -/
def readString (cs : List Char) : Option (String × List Char) :=
  match cs with
  | '"' :: '"' :: '"' :: rest => readLines (cs.length + 1) [] (afterBreak rest)
  | '"' :: rest => readBasic (cs.length + 1) [] rest
  | '\'' :: '\'' :: '\'' :: rest => readLiteralLines (cs.length + 1) [] (afterBreak rest)
  | '\'' :: rest => readLiteral [] rest
  | _ => none

/-! ### Numbers -/

/-- Digits with single underscores between them, behind a first digit. -/
def readMoreDigits (ok : Char → Bool) : List Char → Option (List Char × List Char)
  | [] => some ([], [])
  | ['_'] => none
  | '_' :: c :: rest =>
    if ok c then (readMoreDigits ok rest).map fun (ds, rest) => (c :: ds, rest) else none
  | c :: rest =>
    if ok c then (readMoreDigits ok rest).map fun (ds, rest) => (c :: ds, rest)
    else some ([], c :: rest)

/-- Digits with single underscores between them. -/
def readDigits (ok : Char → Bool) : List Char → Option (List Char × List Char)
  | [] => none
  | c :: rest =>
    if ok c then (readMoreDigits ok rest).map fun (ds, rest) => (c :: ds, rest) else none

/-- The digits in front of the point: a zero stands alone. -/
def readWhole : List Char → Option (List Char × List Char)
  | '0' :: rest => some (['0'], rest)
  | cs => readDigits Digits.isDigit cs

/-- The value of digits in a base. -/
def valueIn (base : Nat) (digits : List Char) : Nat :=
  digits.foldl (fun n c => n * base + (Json.hexValue? c).getD 0) 0

/-- An integer of 64 bits with sign. -/
def integer? (i : Int) : Option Document :=
  if -twoTo 63 ≤ i ∧ i < twoTo 63 then some (.int i) else none

/-- An integer in another base, behind its mark. -/
def readInBase (base : Nat) (cs : List Char) : Option (Document × List Char) := do
  let (ds, rest) ← readDigits (fun c => (Json.hexValue? c).any (· < base)) cs
  return (← integer? (valueIn base ds), rest)

/-- An exponent behind its letter. -/
def readExponent (cs : List Char) : Option (Int × List Char) := do
  let (negative, cs) := match cs with
    | '-' :: rest => (true, rest)
    | '+' :: rest => (false, rest)
    | _ => (false, cs)
  let (ds, rest) ← readDigits Digits.isDigit cs
  let n : Int := Digits.value ds
  return (if negative then -n else n, rest)

/-- The least number above all finite floating numbers that rounds to none of them. -/
def overflowFrom : Nat := twoTo 1024 - twoTo 970

/-- The exponents of ten beyond which a number is too large or too small whatever its
digits are. -/
def exponentLimit : Int := 400

/-- The floating number nearest to `digits * 10 ^ exponent`; none if it is too large. -/
def nearest? (digits : Nat) (exponent : Int) : Option Float :=
  let size : Int := (Digits.ofNat digits).length + exponent
  if digits = 0 ∨ size < -exponentLimit then some 0.0
  else if exponentLimit < size then none
  else
    match exponent with
    | .ofNat e =>
      if overflowFrom ≤ digits * tenTo e then none
      else some (Float.ofScientific digits false e)
    | .negSucc e =>
      if overflowFrom * tenTo (e + 1) ≤ digits then none
      else some (Float.ofScientific digits true (e + 1))

/-- A floating number; one that is too large is in order only below zero. -/
def float? (negative : Bool) (digits : Nat) (exponent : Int) : Option Document :=
  match nearest? digits exponent, negative with
  | some x, false => some (.float x)
  | some x, true => some (.float (-x))
  | none, true => some (.float (-1.0 / 0.0))
  | none, false => none

/-- What follows the digits in front of the point. -/
def readFraction (negative : Bool) (whole cs : List Char) : Option (Document × List Char) := do
  let isE (c : Char) : Bool := c == 'e' || c == 'E'
  match cs with
  | '.' :: rest =>
    let (fraction, rest) ← readDigits Digits.isDigit rest
    let digits := Digits.value (whole ++ fraction)
    let (e, rest) ← match rest with
      | c :: more => if isE c then readExponent more else some (0, rest)
      | [] => some (0, rest)
    return (← float? negative digits (e - fraction.length), rest)
  | c :: more =>
    if isE c then
      let (e, rest) ← readExponent more
      return (← float? negative (Digits.value whole) e, rest)
    else
      let n : Int := Digits.value whole
      return (← integer? (if negative then -n else n), cs)
  | [] =>
    let n : Int := Digits.value whole
    return (← integer? (if negative then -n else n), cs)

/-- A number. -/
def readNumber (cs : List Char) : Option (Document × List Char) :=
  let (negative, bare) := match cs with
    | '-' :: rest => (true, rest)
    | '+' :: rest => (false, rest)
    | _ => (false, cs)
  match bare with
  | 'i' :: 'n' :: 'f' :: rest => some (.float ((if negative then -1.0 else 1.0) / 0.0), rest)
  | 'n' :: 'a' :: 'n' :: rest => some (.float (0.0 / 0.0), rest)
  | _ =>
    match cs with
    | '0' :: 'x' :: rest => readInBase 16 rest
    | '0' :: 'o' :: rest => readInBase 8 rest
    | '0' :: 'b' :: rest => readInBase 2 rest
    | _ => do
      let (whole, rest) ← readWhole bare
      readFraction negative whole rest

/-! ### Dates and times -/

/-- A number of `width` digits that is at most `limit`. -/
def readFixed (width limit : Nat) (cs : List Char) : Option (Nat × List Char) := do
  let ds := cs.take width
  if ds.length < width ∨ ¬ ds.all Digits.isDigit then none
  let n := Digits.value ds
  if limit < n then none
  return (n, cs.drop width)

/-- The characters behind a mark. -/
def expect (mark : Char) : List Char → Option (List Char)
  | c :: rest => if c == mark then some rest else none
  | [] => none

/-- Whether a time of day begins here. -/
def startsTime (cs : List Char) : Bool :=
  (cs.take 2).all Digits.isDigit && (cs.drop 2).head? == some ':'

/-- Whether a date begins here. -/
def startsDate (cs : List Char) : Bool :=
  (cs.take 4).all Digits.isDigit && (cs.drop 4).head? == some '-'

/-- A time of day. -/
def readTime (cs : List Char) : Option (Unit × List Char) := do
  let (_, cs) ← readFixed 2 23 cs
  let (_, cs) ← readFixed 2 59 (← expect ':' cs)
  let (_, cs) ← readFixed 2 60 (← expect ':' cs)
  match cs with
  | '.' :: rest =>
    let ds := rest.takeWhile Digits.isDigit
    if ds.isEmpty then none
    return ((), rest.drop ds.length)
  | _ => return ((), cs)

/-- The distance of a time from universal time, if any is given. -/
def readOffset (cs : List Char) : Option (Unit × List Char) :=
  match cs with
  | 'Z' :: rest => some ((), rest)
  | 'z' :: rest => some ((), rest)
  | c :: rest =>
    if c == '+' || c == '-' then do
      let (_, rest) ← readFixed 2 23 rest
      let (_, rest) ← readFixed 2 59 (← expect ':' rest)
      return ((), rest)
    else some ((), cs)
  | [] => some ((), cs)

/-- The number of days of a month. -/
def daysOfMonth (year month : Nat) : Nat :=
  let leap := year % 4 = 0 ∧ (year % 100 ≠ 0 ∨ year % 400 = 0)
  if month = 2 then (if leap then 29 else 28)
  else if month ∈ [4, 6, 9, 11] then 30
  else 31

/-- A date, possibly with a time behind it. -/
def readDate (cs : List Char) : Option (Unit × List Char) := do
  let (year, cs) ← readFixed 4 9999 cs
  let (month, cs) ← readFixed 2 12 (← expect '-' cs)
  let (day, cs) ← readFixed 2 31 (← expect '-' cs)
  if month = 0 ∨ day = 0 ∨ daysOfMonth year month < day then none
  match cs with
  | c :: rest =>
    if (c == 'T' || c == 't' || c == ' ') && startsTime rest then
      let (_, rest) ← readTime rest
      readOffset rest
    else return ((), cs)
  | [] => return ((), cs)

/-- What stands for a date in a document. -/
def dated (cs rest : List Char) : Document :=
  .object [("datetime", .string (String.ofList (cs.take (cs.length - rest.length))))] none

/-- A number, a date or a time. -/
def readNumeric (cs : List Char) : Option (Document × List Char) :=
  if startsDate cs then (readDate cs).map fun (_, rest) => (dated cs rest, rest)
  else if startsTime cs then (readTime cs).map fun (_, rest) => (dated cs rest, rest)
  else readNumber cs

/-- The characters behind a name. -/
def readName (name cs : List Char) : Option (List Char) :=
  if cs.take name.length = name then some (cs.drop name.length) else none

end LiveBook.Toml
