import LiveBook.Number.Power
import LiveBook.Text.Digits

/-!
# Reading JSON, broken or not

A reader that meets a fault does not forget what it has read before: a decoder that
walks the document from its start may find something wrong with it earlier, and then
that is the error to report. So reading never fails. It gives a document whose
arrays and objects end in one of two ways, closed or at a fault, and whose innermost
broken part stands where the fault is.

* `LiveBook.Json.Document` – a document as far as it could be read;
* `LiveBook.Json.read` – reads a text, and says whether anything follows the value;
* `LiveBook.Json.Document.fault?` – the first fault of a document, if any.

## Numbers

A whole number in the range of 64 bits, signed or not, is an integer; `-0` and all
else is floating. The digits of a floating number are read as one integer, as many
as fit into 64 bits, and then scaled by a power of ten.
-/

namespace LiveBook.Json

open Number (twoTo)

/-- What can be wrong with a text that ought to be JSON. -/
inductive Fault where
  | endsInValue
  | endsInString
  | endsInArray
  | endsInObject
  | expectedValue
  | expectedName
  | expectedColon
  | expectedArrayEnd
  | expectedObjectEnd
  | trailingComma
  | keyNotString
  | invalidNumber
  | numberOutOfRange
  | controlCharacter
  | invalidEscape
  | loneSurrogate
  | missingSurrogate
  | tooDeep
  | trailingText
deriving DecidableEq, Repr

/-- Whether the fault is that the text ends too early. -/
def Fault.isCutShort : Fault → Bool
  | .endsInValue | .endsInString | .endsInArray | .endsInObject => true
  | _ => false

/-- The wording of a fault. -/
def Fault.message : Fault → String
  | .endsInValue => "EOF while parsing a value"
  | .endsInString => "EOF while parsing a string"
  | .endsInArray => "EOF while parsing a list"
  | .endsInObject => "EOF while parsing an object"
  | .expectedValue => "expected value"
  | .expectedName => "expected ident"
  | .expectedColon => "expected `:`"
  | .expectedArrayEnd => "expected `,` or `]`"
  | .expectedObjectEnd => "expected `,` or `\x7d`"
  | .trailingComma => "trailing comma"
  | .keyNotString => "key must be a string"
  | .invalidNumber => "invalid number"
  | .numberOutOfRange => "number out of range"
  | .controlCharacter =>
    "control character (\\u0000-\\u001F) found while parsing a string"
  | .invalidEscape => "invalid escape"
  | .loneSurrogate => "lone leading surrogate in hex escape"
  | .missingSurrogate => "unexpected end of hex escape"
  | .tooDeep => "recursion limit exceeded"
  | .trailingText => "trailing characters"

/-- **A document**, as far as it could be read. An array or an object is closed when
its ending is `none`. -/
inductive Document where
  | null
  | bool (b : Bool)
  | int (i : Int)
  | float (x : Float)
  | string (s : String)
  | array (items : List Document) (ending : Option Fault)
  | object (members : List (String × Document)) (ending : Option Fault)
  | broken (fault : Fault)

instance : Inhabited Document := ⟨.null⟩

/-- Whether a character is blank between the parts of a document. -/
def isSpace (c : Char) : Bool := c == ' ' || c == '\n' || c == '\t' || c == '\r'

/-- The characters without blanks in front. -/
def skipSpace (cs : List Char) : List Char := cs.dropWhile isSpace

/-! ### Strings -/

/-- The value of a hexadecimal digit. -/
def hexValue? (c : Char) : Option Nat :=
  if '0' ≤ c ∧ c ≤ '9' then some (c.toNat - '0'.toNat)
  else if 'a' ≤ c ∧ c ≤ 'f' then some (c.toNat - 'a'.toNat + 10)
  else if 'A' ≤ c ∧ c ≤ 'F' then some (c.toNat - 'A'.toNat + 10)
  else none

/-- Four hexadecimal digits and what follows them. -/
def readHex (cs : List Char) : Except Fault (Nat × List Char) :=
  match cs with
  | a :: b :: c :: d :: rest =>
    match hexValue? a, hexValue? b, hexValue? c, hexValue? d with
    | some a, some b, some c, some d => .ok (((a * 16 + b) * 16 + c) * 16 + d, rest)
    | _, _, _, _ => .error .invalidEscape
  | _ =>
    if (String.ofList cs).utf8ByteSize < 4 then .error .endsInString else .error .invalidEscape

/-- The character of a unit and of a second unit behind it, where a pair of units is
needed: the first unit decides. -/
def readUnit (cs : List Char) : Except Fault (Char × List Char) := do
  let (n, rest) ← readHex cs
  if 0xDC00 ≤ n ∧ n ≤ 0xDFFF then throw .loneSurrogate
  else if 0xD800 ≤ n ∧ n ≤ 0xDBFF then
    match rest with
    | [] => throw .endsInString
    | '\\' :: [] => throw .endsInString
    | '\\' :: 'u' :: rest =>
      let (m, rest) ← readHex rest
      if 0xDC00 ≤ m ∧ m ≤ 0xDFFF then
        return (Char.ofNat (0x10000 + (n - 0xD800) * 0x400 + (m - 0xDC00)), rest)
      else throw .loneSurrogate
    | _ => throw .missingSurrogate
  else return (Char.ofNat n, rest)

/-- The character of a one-letter escape. -/
def escaped? : Char → Option Char
  | '"' => some '"'
  | '\\' => some '\\'
  | '/' => some '/'
  | 'b' => some '\x08'
  | 'f' => some '\x0c'
  | 'n' => some '\n'
  | 'r' => some '\r'
  | 't' => some '\t'
  | _ => none

/-- The rest of a string whose opening quote was read, with `acc` its characters so
far in reverse. Each round takes at least one character, so `fuel` above the length
of the text suffices. -/
def readString (fuel : Nat) (acc : List Char) (cs : List Char) :
    Except Fault (String × List Char) :=
  match fuel with
  | 0 => .error .endsInString
  | fuel + 1 =>
    match cs with
    | [] => .error .endsInString
    | '"' :: rest => .ok (String.ofList acc.reverse, rest)
    | '\\' :: [] => .error .endsInString
    | '\\' :: 'u' :: rest => do
      let (c, rest) ← readUnit rest
      readString fuel (c :: acc) rest
    | '\\' :: e :: rest =>
      match escaped? e with
      | some c => readString fuel (c :: acc) rest
      | none => .error .invalidEscape
    | c :: rest =>
      if c.toNat < 0x20 then .error .controlCharacter else readString fuel (c :: acc) rest

/-! ### Numbers -/

/-- Ten to the `n`, the nearest float to it. -/
def tenPow (n : Nat) : Float := Float.ofScientific 1 false n

/-- Scales the float of a digit string by a power of ten; `none` when it is too large
to be a float. -/
def scaleFloat (fuel : Nat) (x : Float) (e : Int) : Option Float :=
  match fuel with
  | 0 => some x
  | fuel + 1 =>
    if e.natAbs ≤ 308 then
      if 0 ≤ e then
        let y := x * tenPow e.natAbs
        if y.isInf then none else some y
      else some (x / tenPow e.natAbs)
    else if x == 0.0 then some x
    else if 0 ≤ e then none
    else scaleFloat fuel (x / tenPow 308) (e + 308)

/-- The float with the given sign, digits and exponent. -/
def makeFloat (negative : Bool) (digits : Nat) (e : Int) : Document :=
  match scaleFloat 20 digits.toUInt64.toFloat e with
  | some x => .float (if negative then -x else x)
  | none => .broken .numberOutOfRange

/-- Takes digits as long as they fit into 64 bits, and gives the number, the count of
digits taken and the rest. -/
def takeDigits (n count : Nat) : List Char → Nat × Nat × List Char
  | [] => (n, count, [])
  | c :: rest =>
    match Digits.digit? c with
    | some d =>
      if n * 10 + d < twoTo 64 then takeDigits (n * 10 + d) (count + 1) rest
      else (n, count, c :: rest)
    | none => (n, count, c :: rest)

/-- What is read of a part of a document: the document and the rest of the text, which
is missing when there was a fault. -/
abbrev Reading := Document × Option (List Char)

/-- A fault in place of a document. -/
def fail (f : Fault) : Reading := (.broken f, none)

/-- What a document and the rest of the text make; nothing follows a fault. -/
def reading (d : Document) (rest : List Char) : Reading :=
  match d with
  | .broken f => fail f
  | _ => (d, some rest)

/-- The exponent of a number, whose mark was read. `e` is the exponent that the digits
have already. An exponent of more than 31 bits makes the number zero or too large. -/
def readExponent (negative : Bool) (digits : Nat) (e : Int) (cs : List Char) : Reading :=
  let (minus, cs) := match cs with
    | '-' :: rest => (true, rest)
    | '+' :: rest => (false, rest)
    | _ => (false, cs)
  let ds := cs.takeWhile Digits.isDigit
  let rest := cs.drop ds.length
  match ds with
  | [] => fail (if cs.isEmpty then .endsInValue else .invalidNumber)
  | _ :: _ =>
    let n := Digits.value ds
    if n < twoTo 31 then
      reading (makeFloat negative digits (if minus then e - n else e + n)) rest
    else if digits ≠ 0 ∧ ¬ minus then fail .numberOutOfRange
    else reading (makeFloat negative 0 0) rest

/-- An exponent, if one follows, or the end of the number. -/
def readTail (negative : Bool) (digits : Nat) (e : Int) (cs : List Char) : Reading :=
  match cs with
  | 'e' :: rest => readExponent negative digits e rest
  | 'E' :: rest => readExponent negative digits e rest
  | _ => reading (makeFloat negative digits e) cs

/-- The digits behind the point, which was read. -/
def readFraction (negative : Bool) (digits : Nat) (e : Int) (cs : List Char) : Reading :=
  let (n, count, rest) := takeDigits digits 0 cs
  if count = 0 ∧ !(rest.head?.any Digits.isDigit) then
    fail (if cs.isEmpty then .endsInValue else .invalidNumber)
  else readTail negative n (e - count) (rest.dropWhile Digits.isDigit)

/-- What follows the digits before the point. -/
def readAfterWhole (negative : Bool) (digits : Nat) (cs : List Char) : Reading :=
  match cs with
  | '.' :: rest => readFraction negative digits 0 rest
  | 'e' :: rest => readExponent negative digits 0 rest
  | 'E' :: rest => readExponent negative digits 0 rest
  | _ =>
    if !negative then (.int digits, some cs)
    else if digits = 0 ∨ twoTo 63 < digits then
      (.float (-digits.toUInt64.toFloat), some cs)
    else (.int (-digits), some cs)

/-- A number, whose minus sign was read. -/
def readNumber (negative : Bool) (cs : List Char) : Reading :=
  match cs with
  | '0' :: rest =>
    if rest.head?.any Digits.isDigit then fail .invalidNumber
    else readAfterWhole negative 0 rest
  | [] => fail .endsInValue
  | c :: _ =>
    if !Digits.isDigit c then fail .invalidNumber
    else
      let (n, _, rest) := takeDigits 0 0 cs
      let more := rest.takeWhile Digits.isDigit
      match more with
      | [] => readAfterWhole negative n rest
      | _ :: _ =>
        match rest.drop more.length with
        | '.' :: rest => readFraction negative n more.length rest
        | rest => readTail negative n more.length rest

/-! ### Values -/

/-- The rest of a literal name, whose first letter was read. -/
def readName (name : List Char) (d : Document) (cs : List Char) : Reading :=
  if name.isPrefixOf cs then (d, some (cs.drop name.length))
  else if cs.isPrefixOf name then fail .endsInValue
  else fail .expectedName

mutual

/-- A value. At most two rounds of the three readers pass before a character is taken,
so `fuel` above twice the length of the text suffices, also for the strings in it. -/
def readValue (fuel : Nat) (cs : List Char) : Reading :=
  match fuel with
  | 0 => fail .endsInValue
  | fuel + 1 =>
    match skipSpace cs with
    | [] => fail .endsInValue
    | 'n' :: rest => readName ['u', 'l', 'l'] .null rest
    | 't' :: rest => readName ['r', 'u', 'e'] (.bool true) rest
    | 'f' :: rest => readName ['a', 'l', 's', 'e'] (.bool false) rest
    | '"' :: rest =>
      match readString fuel [] rest with
      | .ok (s, rest) => (.string s, some rest)
      | .error f => fail f
    | '[' :: rest =>
      let (items, ending, rest) := readItems fuel true rest
      (.array items ending, rest)
    | '\x7b' :: rest =>
      let (members, ending, rest) := readMembers fuel true rest
      (.object members ending, rest)
    | '-' :: rest => readNumber true rest
    | c :: rest => if Digits.isDigit c then readNumber false (c :: rest) else fail .expectedValue

/-- The items of an array up to its bracket. -/
def readItems (fuel : Nat) (first : Bool) (cs : List Char) :
    List Document × Option Fault × Option (List Char) :=
  match fuel with
  | 0 => ([], some .endsInArray, none)
  | fuel + 1 =>
    let item (cs : List Char) :=
      let (d, rest) := readValue fuel cs
      match rest with
      | none => ([d], some Fault.expectedArrayEnd, none)
      | some rest =>
        let (ds, ending, rest) := readItems fuel false rest
        (d :: ds, ending, rest)
    match skipSpace cs with
    | [] => ([], some .endsInArray, none)
    | ']' :: rest => ([], none, some rest)
    | ',' :: rest =>
      if first then ([], some .expectedValue, none)
      else
        match skipSpace rest with
        | [] => ([], some .endsInValue, none)
        | ']' :: _ => ([], some .trailingComma, none)
        | rest => item rest
    | rest => if first then item rest else ([], some .expectedArrayEnd, none)

/-- The members of an object up to its bracket. -/
def readMembers (fuel : Nat) (first : Bool) (cs : List Char) :
    List (String × Document) × Option Fault × Option (List Char) :=
  match fuel with
  | 0 => ([], some .endsInObject, none)
  | fuel + 1 =>
    let member (cs : List Char) :=
      match readString fuel [] cs with
      | .error f => ([], some f, none)
      | .ok (key, rest) =>
        let (d, rest) := match skipSpace rest with
          | [] => fail .endsInObject
          | ':' :: rest => readValue fuel rest
          | _ => fail .expectedColon
        match rest with
        | none => ([(key, d)], some Fault.expectedObjectEnd, none)
        | some rest =>
          let (ds, ending, rest) := readMembers fuel false rest
          ((key, d) :: ds, ending, rest)
    match skipSpace cs with
    | [] => ([], some .endsInObject, none)
    | '\x7d' :: rest => ([], none, some rest)
    | ',' :: rest =>
      if first then ([], some .keyNotString, none)
      else
        match skipSpace rest with
        | [] => ([], some .endsInValue, none)
        | '"' :: rest => member rest
        | '\x7d' :: _ => ([], some .trailingComma, none)
        | _ => ([], some .keyNotString, none)
    | '"' :: rest => if first then member rest else ([], some .expectedObjectEnd, none)
    | _ => ([], some (if first then .keyNotString else .expectedObjectEnd), none)

end

/-- **Reads a document.** The second component says whether anything but blanks
follows the value. -/
def read (text : String) : Document × Bool :=
  let cs := text.toList
  let (d, rest) := readValue (2 * cs.length + 2) cs
  (d, rest.any fun rest => !(skipSpace rest).isEmpty)

/-! ### Faults -/

mutual

/-- The first fault of a document in which at most `depth` arrays and objects may stand
inside each other; more nesting is a fault where it occurs. -/
def Document.fault? (depth : Nat) : Document → Option Fault
  | .broken f => some f
  | .array items ending =>
    match depth with
    | 0 => some .tooDeep
    | depth + 1 => (itemsFault? depth items).or ending
  | .object members ending =>
    match depth with
    | 0 => some .tooDeep
    | depth + 1 => (membersFault? depth members).or ending
  | _ => none

/-- The first fault among the items of an array. -/
def itemsFault? (depth : Nat) : List Document → Option Fault
  | [] => none
  | d :: rest => (d.fault? depth).or (itemsFault? depth rest)

/-- The first fault among the members of an object. -/
def membersFault? (depth : Nat) : List (String × Document) → Option Fault
  | [] => none
  | (_, d) :: rest => (d.fault? depth).or (membersFault? depth rest)

end

mutual

/-- How deep arrays and objects stand inside each other. -/
def Document.depth : Document → Nat
  | .array items _ => itemsDepth items + 1
  | .object members _ => membersDepth members + 1
  | _ => 0

/-- The depth of the deepest item. -/
def itemsDepth : List Document → Nat
  | [] => 0
  | d :: rest => max d.depth (itemsDepth rest)

/-- The depth of the deepest member. -/
def membersDepth : List (String × Document) → Nat
  | [] => 0
  | (_, d) :: rest => max d.depth (membersDepth rest)

end

/-- The first fault of a document, however deep it is. -/
def Document.anyFault? (d : Document) : Option Fault := d.fault? d.depth

end LiveBook.Json
