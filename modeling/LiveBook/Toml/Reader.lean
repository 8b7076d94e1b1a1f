import LiveBook.Toml.Scalar
import LiveBook.Toml.Table

/-!
# Configuration files

`LiveBook.Toml.read` reads a text in TOML and gives the document that it describes, or
nothing if the text is not in order: a character that cannot stand where it does, a key
given twice, a number that does not fit.
-/

namespace LiveBook.Toml

open Json (Document)

/-- A comment up to the end of its line. -/
def skipComment (cs : List Char) : List Char :=
  match cs with
  | '#' :: rest => rest.dropWhile isText
  | _ => cs

/-- The characters behind blanks, line breaks and comments. -/
def skipFiller (fuel : Nat) (cs : List Char) : List Char :=
  match fuel with
  | 0 => cs
  | fuel + 1 =>
    let cs := skipComment (skipSpace cs)
    match lineBreak? cs with
    | some rest => skipFiller fuel rest
    | none => cs

/-- The end of a line: blanks, perhaps a comment, and a line break or the end of the
text. -/
def endLine (cs : List Char) : Option (List Char) :=
  match skipComment (skipSpace cs) with
  | [] => some []
  | cs => lineBreak? cs

/-! ### Keys -/

/-- Whether a character may stand in a key without quotes. -/
def isKeyChar (c : Char) : Bool :=
  ('a' ≤ c && c ≤ 'z') || ('A' ≤ c && c ≤ 'Z') || Digits.isDigit c || c == '-' || c == '_'

/-- One part of a key. -/
def readKeyPart (cs : List Char) : Option (String × List Char) :=
  match cs with
  | '"' :: rest => readBasic (cs.length + 1) [] rest
  | '\'' :: rest => readLiteral [] rest
  | _ =>
    let name := cs.takeWhile isKeyChar
    if name.isEmpty then none else some (String.ofList name, cs.drop name.length)

/-- A key: its parts but the last, the last, and what follows. -/
def readKey (fuel : Nat) (cs : List Char) : Option ((List String × String) × List Char) :=
  match fuel with
  | 0 => none
  | fuel + 1 => do
    let (part, rest) ← readKeyPart (skipSpace cs)
    match skipSpace rest with
    | '.' :: rest =>
      let ((path, last), rest) ← readKey fuel rest
      return ((part :: path, last), rest)
    | rest => return (([], part), rest)

/-- The number of parts from which on a key has too many, and the number of arrays and
tables inside each other from which on there are too many. -/
def maxDepth : Nat := 80

/-- A key with not too many parts. -/
def readBoundedKey (cs : List Char) : Option ((List String × String) × List Char) := do
  let ((path, last), rest) ← readKey (cs.length + 1) cs
  if maxDepth ≤ path.length + 1 then none
  return ((path, last), rest)

/-! ### Values -/

mutual

/-- A value; `room` is the number of arrays and tables that may still stand inside it. -/
def readValue (fuel room : Nat) (cs : List Char) : Option (Document × List Char) :=
  match fuel with
  | 0 => none
  | fuel + 1 =>
    match cs with
    | '"' :: _ => (readString cs).map fun (s, rest) => (.string s, rest)
    | '\'' :: _ => (readString cs).map fun (s, rest) => (.string s, rest)
    | 't' :: rest => (readName ['r', 'u', 'e'] rest).map (.bool true, ·)
    | 'f' :: rest => (readName ['a', 'l', 's', 'e'] rest).map (.bool false, ·)
    | '[' :: rest =>
      match room with
      | 0 => none
      | room + 1 => do
        let (items, rest) ← readItems fuel room rest
        return (.array items none, rest)
    | '\x7b' :: rest =>
      match room with
      | 0 => none
      | room + 1 => do
        let (ms, rest) ← readPairs fuel room true [] rest
        return (.object (membersDocument ms) none, rest)
    | _ => readNumeric cs

/-- The items of an array up to its bracket. -/
def readItems (fuel room : Nat) (cs : List Char) : Option (List Document × List Char) :=
  match fuel with
  | 0 => none
  | fuel + 1 =>
    match skipFiller (cs.length + 1) cs with
    | ']' :: rest => some ([], rest)
    | cs => do
      let (v, rest) ← readValue fuel room cs
      match skipFiller (rest.length + 1) rest with
      | ',' :: rest =>
        let (vs, rest) ← readItems fuel room rest
        return (v :: vs, rest)
      | ']' :: rest => return ([v], rest)
      | _ => none

/-- The pairs of a table on one line up to its brace. -/
def readPairs (fuel room : Nat) (first : Bool) (ms : Members) (cs : List Char) :
    Option (Members × List Char) :=
  match fuel with
  | 0 => none
  | fuel + 1 =>
    match first, skipSpace cs with
    | true, '\x7d' :: rest => some (ms, rest)
    | _, cs => do
      let ((path, key), rest) ← readBoundedKey cs
      let (v, rest) ← readValue fuel room (skipSpace (← expect '=' rest))
      let ms ← define [] path key v ms
      match skipSpace rest with
      | ',' :: rest => readPairs fuel room false ms rest
      | '\x7d' :: rest => return (ms, rest)
      | _ => none

end

/-! ### Lines -/

/-- A line with a header: its path, its last part, whether it opens one more table of an
array, and what follows the line. -/
def readHeader (cs : List Char) : Option ((List String × String × Bool) × List Char) := do
  match cs with
  | '[' :: '[' :: rest =>
    let ((path, key), rest) ← readBoundedKey rest
    let rest ← expect ']' (← expect ']' rest)
    return ((path, key, true), ← endLine rest)
  | '[' :: rest =>
    let ((path, key), rest) ← readBoundedKey rest
    return ((path, key, false), ← endLine (← expect ']' rest))
  | _ => none

/-- The lines of a file, in the table that the last header has opened. -/
def readLinesOf (fuel : Nat) (header : List String) (root : Members) (cs : List Char) :
    Option Members :=
  match fuel with
  | 0 => none
  | fuel + 1 =>
    match skipFiller (cs.length + 1) cs with
    | [] => some root
    | '[' :: rest => do
      let ((path, key, isRow), rest) ← readHeader ('[' :: rest)
      let root ← if isRow then openRow path key root else openTable path key root
      readLinesOf fuel (path ++ [key]) root rest
    | cs => do
      let ((path, key), rest) ← readBoundedKey cs
      let (v, rest) ← readValue (2 * cs.length + 2) (maxDepth - 1)
        (skipSpace (← expect '=' rest))
      let root ← define header path key v root
      readLinesOf fuel header root (← endLine rest)

/-- **The document that a text in TOML describes.** -/
def read (text : String) : Option Document := do
  let cs := match text.toList with
    | '\uFEFF' :: rest => rest
    | cs => cs
  let root ← readLinesOf (cs.length + 1) [] [] cs
  return .object (membersDocument root) none

end LiveBook.Toml
