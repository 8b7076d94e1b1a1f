import LiveBook.Number.Power
import LiveBook.Text.Blank
import LiveBook.Text.Digits
import LiveBook.Time.Calendar

/-!
# Timestamps and their text

A timestamp is an instant in universal time with a resolution of a nanosecond. It is
written as a date and a time with a `Z` behind it, and read more generously: blanks
may stand in front of numbers, months and days may have one digit, the offset may be
any number of hours and minutes.

* `LiveBook.Time.Timestamp` – the instant; a leap second is the second before it with
  a billion nanoseconds more;
* `LiveBook.Time.Timestamp.text` – the written form: no fraction, or three, six or nine
  digits of it, whichever is exact;
* `LiveBook.Time.Timestamp.parse` – the reader;
* `LiveBook.Time.TimeError` – what can be wrong with a text.
-/

namespace LiveBook.Time

open Number (tenTo twoTo)

/-- An instant: seconds since the epoch and nanoseconds of the second. During a leap
second the nanoseconds run on past a billion. -/
structure Timestamp where
  seconds : Int
  nanoseconds : Nat
deriving DecidableEq, Repr

instance : Inhabited Timestamp := ⟨⟨0, 0⟩⟩

/-- Why a text is no timestamp. -/
inductive TimeError where
  | invalid
  | outOfRange
  | tooShort
  | tooLong
  /-- In universal time it is no day of the calendar. -/
  | impossible
deriving DecidableEq, Repr

/-- The wording of an error. -/
def TimeError.message : TimeError → String
  | .invalid => "input contains invalid characters"
  | .outOfRange => "input is out of range"
  | .tooShort => "premature end of input"
  | .tooLong => "trailing input"
  | .impossible => "no possible date and time matching input"

/-- The day, in universal time. -/
def Timestamp.date (t : Timestamp) : Date := .ofDays (t.seconds.fdiv 86400)

/-- The second of the day. -/
def Timestamp.secondOfDay (t : Timestamp) : Nat := (t.seconds - t.seconds.fdiv 86400 * 86400).toNat

/-! ### Writing -/

/-- A year: four digits, and a sign when these do not suffice. -/
def yearChars (year : Int) : List Char :=
  if 0 ≤ year ∧ year ≤ 9999 then Digits.padded 4 year.toNat
  else (if year < 0 then '-' else '+') :: Digits.padded 4 year.natAbs

/-- The fraction of a second with the fewest digits that are exact, in groups of three. -/
def fractionChars (nanoseconds : Nat) : List Char :=
  let n := nanoseconds % 1000000000
  if n = 0 then []
  else if n % 1000000 = 0 then '.' :: Digits.padded 3 (n / 1000000)
  else if n % 1000 = 0 then '.' :: Digits.padded 6 (n / 1000)
  else '.' :: Digits.padded 9 n

/-- The characters of a timestamp. -/
def Timestamp.chars (t : Timestamp) : List Char :=
  let date := t.date
  let second := t.secondOfDay
  let leap := if 1000000000 ≤ t.nanoseconds then 1 else 0
  yearChars date.year ++ '-' :: Digits.padded 2 date.month ++ '-' :: Digits.padded 2 date.day ++
    'T' :: Digits.padded 2 (second / 3600) ++ ':' :: Digits.padded 2 (second / 60 % 60) ++
    ':' :: Digits.padded 2 (second % 60 + leap) ++ fractionChars t.nanoseconds ++ ['Z']

/-- The written form. -/
def Timestamp.text (t : Timestamp) : String := String.ofList t.chars

/-! ### Reading -/

/-- At least one and at most `width` digits; more than fit into 63 bits are out of range. -/
def readNumber (width : Option Nat) (cs : List Char) : Except TimeError (Nat × List Char) :=
  let run := cs.takeWhile Digits.isDigit
  let ds := match width with
    | none => run
    | some w => run.take w
  match cs, ds with
  | [], _ => .error .tooShort
  | _, [] => .error .invalid
  | _, _ =>
    let n := Digits.value ds
    if n < twoTo 63 then .ok (n, cs.drop ds.length) else .error .outOfRange

/-- A number of at most two digits in a range, with blanks in front of it. -/
def readField (low high : Nat) (cs : List Char) : Except TimeError (Nat × List Char) := do
  let (n, rest) ← readNumber (some 2) (Text.trimStart cs)
  if low ≤ n ∧ n ≤ high then return (n, rest) else throw .outOfRange

/-- A whole number: four digits, or any number of them behind a sign. -/
def readWhole (cs : List Char) : Except TimeError (Int × List Char) :=
  match Text.trimStart cs with
  | '-' :: rest => do
    let (n, rest) ← readNumber none rest
    return (-(n : Int), rest)
  | '+' :: rest => do
    let (n, rest) ← readNumber none rest
    return ((n : Int), rest)
  | cs => do
    let (n, rest) ← readNumber (some 4) cs
    return ((n : Int), rest)

/-- A year: a whole number of 32 bits. -/
def readYear (cs : List Char) : Except TimeError (Int × List Char) := do
  let (year, rest) ← readWhole cs
  if -twoTo 31 ≤ year ∧ year < twoTo 31 then return (year, rest) else throw .outOfRange

/-- A separator, with blanks in front of it. -/
def readMark (mark : Char) (cs : List Char) : Except TimeError (List Char) :=
  match Text.trimStart cs with
  | [] => .error .tooShort
  | c :: rest => if c = mark then .ok rest else .error .invalid

/-- What stands between the date and the time. -/
def readBreak (cs : List Char) : Except TimeError (List Char) :=
  match cs with
  | [] => .error .tooShort
  | c :: rest => if c = 't' ∨ c = 'T' ∨ c = ' ' then .ok rest else .error .invalid

/-- The fraction of a second, in nanoseconds: nine digits count, further ones are
passed over. -/
def readFraction (cs : List Char) : Except TimeError (Nat × List Char) :=
  match cs with
  | '.' :: rest => do
    let (n, after) ← readNumber (some 9) rest
    let taken := rest.length - after.length
    return (n * tenTo (9 - taken), after.dropWhile Digits.isDigit)
  | _ => .ok (0, cs)

/-- Two digits next to each other. -/
def readPair (cs : List Char) : Except TimeError ((Nat × Nat) × List Char) :=
  match cs with
  | a :: b :: rest =>
    match Digits.digit? a, Digits.digit? b with
    | some a, some b => .ok ((a, b), rest)
    | _, _ => .error .invalid
  | _ => if (String.ofList cs).utf8ByteSize < 2 then .error .tooShort else .error .invalid

/-- Hours and minutes of an offset, in seconds; colons and blanks may stand between them. -/
def readOffsetTime (cs : List Char) : Except TimeError (Nat × List Char) := do
  let ((a, b), rest) ← readPair cs
  let rest := rest.dropWhile fun c => c == ':' || Text.isBlankChar c
  let ((c, d), rest) ← readPair rest
  if c < 6 then return ((a * 10 + b) * 3600 + (c * 10 + d) * 60, rest) else throw .outOfRange

/-- The offset from universal time, in seconds. -/
def readOffset (cs : List Char) : Except TimeError (Int × List Char) :=
  match cs with
  | [] => .error .tooShort
  | 'Z' :: rest => .ok (0, rest)
  | 'z' :: rest => .ok (0, rest)
  | a :: rest =>
    if (cs.take 3).map Char.toUpper = ['U', 'T', 'C'] then .ok (0, cs.drop 3)
    else if a = '+' then do
      let (n, rest) ← readOffsetTime rest
      return ((n : Int), rest)
    else if a = '-' ∨ a = '\u2212' then do
      let (n, rest) ← readOffsetTime rest
      return (-(n : Int), rest)
    else .error .invalid

/-- Puts the parts of a timestamp together. -/
def assemble (date : Date) (hour minute second nanoseconds : Nat) (offset : Int) :
    Except TimeError Timestamp :=
  if !date.isValid then .error .outOfRange
  else if 86400 ≤ offset.natAbs then .error .outOfRange
  else
    let (second, leap) := if second = 60 then (59, 1000000000) else (second, 0)
    let t : Timestamp := {
      seconds := date.toDays * 86400 + hour * 3600 + minute * 60 + second - offset
      nanoseconds := nanoseconds + leap }
    if t.date.isValid then .ok t else .error .impossible

/-- Reads the characters of a timestamp. -/
def Timestamp.parseChars (cs : List Char) : Except TimeError Timestamp := do
  let (year, cs) ← readYear cs
  let cs ← readMark '-' cs
  let (month, cs) ← readField 1 12 cs
  let cs ← readMark '-' cs
  let (day, cs) ← readField 1 31 cs
  let cs ← readBreak cs
  let (hour, cs) ← readField 0 23 cs
  let cs ← readMark ':' cs
  let (minute, cs) ← readField 0 59 cs
  let cs ← readMark ':' cs
  let (second, cs) ← readField 0 60 cs
  let (nanoseconds, cs) ← readFraction cs
  let (offset, cs) ← readOffset (Text.trimStart cs)
  if (Text.trimStart cs).isEmpty then
    assemble ⟨year, month, day⟩ hour minute second nanoseconds offset
  else throw .tooLong

/-- **Reads a timestamp.** -/
def Timestamp.parse (text : String) : Except TimeError Timestamp :=
  Timestamp.parseChars text.toList

end LiveBook.Time
