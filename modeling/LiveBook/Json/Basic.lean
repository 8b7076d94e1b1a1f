import LiveBook.Number.Notation
import LiveBook.Text.Digits

/-!
# JSON values and their text

A value of JSON as the library writes it. Prices and sizes travel as text; floating
numbers are for measured quantities only, and one that is not finite is written as
`null`. Members of an object keep the order in which they were given.

`LiveBook.Json.Value.render` writes a value without any blank between its parts.
In a string the quote, the backslash and the control characters below the space
are escaped, and nothing else is.
-/

namespace LiveBook.Json

/-- A JSON value. -/
inductive Value where
  | null
  | bool (b : Bool)
  | int (i : Int)
  | float (x : Float)
  | string (s : String)
  | array (items : List Value)
  | object (members : List (String × Value))

instance : Inhabited Value := ⟨.null⟩

namespace Value

/-- A natural number as a JSON value. -/
def nat (n : Nat) : Value := .int n

/-- An optional value: `null` when absent. -/
def ofOption {α : Type} (f : α → Value) : Option α → Value
  | none => .null
  | some a => f a

/-- A list of values. -/
def list {α : Type} (f : α → Value) (as : List α) : Value := .array (as.map f)

end Value

/-- A hexadecimal digit. -/
def hexDigit (n : Nat) : Char :=
  if n < 10 then Digits.char n
  else Char.ofNat ('a'.toNat + (n - 10))

/-- The escape for a character of a string, or the character itself. -/
def escapeChar (c : Char) : List Char :=
  match c with
  | '"' => ['\\', '"']
  | '\\' => ['\\', '\\']
  | '\n' => ['\\', 'n']
  | '\r' => ['\\', 'r']
  | '\t' => ['\\', 't']
  | '\x08' => ['\\', 'b']
  | '\x0c' => ['\\', 'f']
  | _ =>
    if c.toNat < 0x20 then ['\\', 'u', '0', '0', hexDigit (c.toNat / 16), hexDigit (c.toNat % 16)]
    else [c]

/-- A string between quotes. -/
def quote (s : String) : String :=
  String.ofList ('"' :: (s.toList.flatMap escapeChar ++ ['"']))

/-- The parts joined by commas. -/
def commaJoin (parts : List String) : String := ",".intercalate parts

mutual

/-- The text of a value. -/
def Value.render : Value → String
  | .null => "null"
  | .bool true => "true"
  | .bool false => "false"
  | .int i => Digits.intText i
  | .float x => if x.isFinite then Number.scientific x else "null"
  | .string s => quote s
  | .array items => "[" ++ commaJoin (renderItems items) ++ "]"
  | .object members => "\x7b" ++ commaJoin (renderMembers members) ++ "\x7d"

/-- The texts of the items of an array. -/
def renderItems : List Value → List String
  | [] => []
  | v :: rest => v.render :: renderItems rest

/-- The texts of the members of an object. -/
def renderMembers : List (String × Value) → List String
  | [] => []
  | (k, v) :: rest => (quote k ++ ":" ++ v.render) :: renderMembers rest

end

end LiveBook.Json
