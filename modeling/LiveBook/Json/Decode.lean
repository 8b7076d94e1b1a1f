import LiveBook.Json.Document
import LiveBook.Number.Notation
import LiveBook.Number.Power
import LiveBook.Text.Quoted

/-!
# Decoding documents

A decoder gives a document a meaning, or says why it has none. It walks the document
in the order of its text, and the first thing that it finds wrong is the error: a
fault of the text, or data of the wrong shape, whichever comes first.

* `LiveBook.Json.DecodeError` – a fault, or a message about the data;
* `LiveBook.Json.Mode` – whether the document is decoded while it is read or from a
  buffered part of it, which by then is known to be free of faults, or from settings,
  which never were JSON;
* `LiveBook.Json.Record` – how the fields of a record are read, from an object by
  their names or from an array by their positions.
-/

namespace LiveBook.Json

open Number (twoTo)

/-- Why a document could not be decoded. -/
inductive DecodeError where
  /-- The text is no JSON. -/
  | fault (f : Fault)
  /-- The text is JSON of the wrong shape. -/
  | data (message : String)
deriving DecidableEq, Repr

/-- The wording of an error. -/
def DecodeError.message : DecodeError → String
  | .fault f => f.message
  | .data m => m

/-- What a decoder gives. -/
abbrev Decode (α : Type) := Except DecodeError α

/-- How a document is decoded. -/
inductive Mode where
  /-- While it is read: its end has not been seen yet. -/
  | streamed
  /-- From a part that was read and buffered before. -/
  | buffered
  /-- From the settings of a configuration file: items that are left over do no harm. -/
  | settings
deriving DecidableEq

/-- An error about the data. -/
def wrong {α : Type} (message : String) : Decode α := .error (.data message)

/-- Passes on the fault at the end of an array or an object. -/
def checkEnding (ending : Option Fault) : Decode Unit :=
  match ending with
  | none => .ok ()
  | some f => .error (.fault f)

/-- Passes on a fault of a document that nobody reads. -/
def skip (d : Document) : Decode Unit := checkEnding d.anyFault?

/-- A name between backquotes. -/
def ticked (s : String) : String := "`" ++ s ++ "`"

/-- What an error says that it has found. -/
def describe : Document → Decode String
  | .null => .ok "null"
  | .bool b => .ok ("boolean " ++ ticked (if b then "true" else "false"))
  | .int i => .ok ("integer " ++ ticked (Digits.intText i))
  | .float x => .ok ("floating point " ++ ticked (Number.scientific x))
  | .string s => .ok ("string " ++ Text.quoted s)
  | .array _ _ => .ok "sequence"
  | .object _ _ => .ok "map"
  | .broken f => .error (.fault f)

/-- The error for a document of another type than the expected one. -/
def wrongType {α : Type} (d : Document) (expected : String) : Decode α := do
  wrong ("invalid type: " ++ (← describe d) ++ ", expected " ++ expected)

/-- The error for a document of the right type with a value that does not do. -/
def wrongValue {α : Type} (d : Document) (expected : String) : Decode α := do
  wrong ("invalid value: " ++ (← describe d) ++ ", expected " ++ expected)

/-! ### Simple values -/

/-- An unsigned integer below `bound`. -/
def unsigned (name : String) (bound : Nat) (d : Document) : Decode Nat :=
  match d with
  | .int i =>
    if 0 ≤ i ∧ i < bound then .ok i.toNat else wrongValue d name
  | _ => wrongType d name

/-- An unsigned integer of 64 bits. -/
def u64 : Document → Decode Nat := unsigned "u64" (twoTo 64)

/-- A size: an unsigned integer of 64 bits, called by its other name. -/
def usize : Document → Decode Nat := unsigned "usize" (twoTo 64)

/-- An unsigned integer of 32 bits. -/
def u32 : Document → Decode Nat := unsigned "u32" (twoTo 32)

/-- A truth value. -/
def boolean : Document → Decode Bool
  | .bool b => .ok b
  | d => wrongType d "a boolean"

/-- A string. -/
def string : Document → Decode String
  | .string s => .ok s
  | d => wrongType d "a string"

/-- The items of an array, each read by `item`. -/
def list {α : Type} (item : Document → Decode α) (d : Document) : Decode (List α) :=
  match d with
  | .array items ending => do
    let as ← items.mapM item
    checkEnding ending
    return as
  | _ => wrongType d "a sequence"

/-! ### Names from a fixed choice -/

/-- The names of a choice, as an error lists them. -/
def listNames (names : List String) : String :=
  match names with
  | [] => "there are no variants"
  | [a] => ticked a
  | [a, b] => ticked a ++ " or " ++ ticked b
  | _ => "one of " ++ ", ".intercalate (names.map ticked)

/-- The value with the given name. -/
def named {α : Type} (choices : List (String × α)) (name : String) : Decode α :=
  match choices.find? (·.1 == name) with
  | some c => .ok c.2
  | none =>
    wrong ("unknown variant " ++ ticked name ++ ", expected " ++ listNames (choices.map (·.1)))

/-- A name given as a string. -/
def identifier {α : Type} (choices : List (String × α)) (d : Document) : Decode α :=
  match d with
  | .string s => named choices s
  | _ => wrongType d "variant identifier"

/-- Nothing, as the content of a name from a choice. -/
def nothing (mode : Mode) (d : Document) : Decode Unit :=
  match d with
  | .null => .ok ()
  | .object [] none => if mode = .streamed then wrongType d "unit" else .ok ()
  | .array [] none => if mode = .settings then .ok () else wrongType d "unit"
  | _ => wrongType d "unit"

/-- A name from a fixed choice: a string, or an object whose only key is the name and
holds nothing. -/
def choice {α : Type} (mode : Mode) (choices : List (String × α)) (d : Document) : Decode α :=
  match d with
  | .string s => named choices s
  | .object [(name, content)] ending => do
    let a ← named choices name
    nothing mode content
    checkEnding ending
    return a
  | .object members ending =>
    match mode, members with
    | .streamed, [] => .error (.fault (ending.getD .expectedValue))
    | .streamed, (name, content) :: _ => do
      let _ ← named choices name
      nothing mode content
      .error (.fault .expectedValue)
    | _, _ => wrong "invalid value: map, expected map with a single key"
  | .broken f => .error (.fault f)
  | _ =>
    match mode with
    | .streamed => .error (.fault .expectedValue)
    | _ => wrongType d "string or map"

/-! ### Records -/

/-- A field of a record under construction. -/
structure Field (σ : Type) where
  /-- The name of the field. -/
  name : String
  /-- Whether the field has no default. -/
  required : Bool
  /-- Reads the field and puts it into the record. -/
  read : Document → σ → Decode σ

/-- The fields of a record, in their order, and the name of its type. -/
structure Record (σ : Type) where
  name : String
  fields : List (Field σ)

namespace Record

variable {σ : Type}

/-- Reads members by their names. A name that is no field is skipped, one that comes
twice is an error. -/
def readMembers (r : Record σ) (seen : List String) (s : σ) :
    List (String × Document) → Decode σ
  | [] => .ok s
  | (key, d) :: rest =>
    match r.fields.find? (·.name == key) with
    | none => do
      skip d
      r.readMembers seen s rest
    | some f =>
      if seen.contains key then wrong ("duplicate field " ++ ticked key)
      else do
        let s ← f.read d s
        r.readMembers (key :: seen) s rest

/-- The words for a record of this type and size. -/
def sizeText (r : Record σ) : String :=
  "struct " ++ r.name ++ " with " ++ Digits.natText r.fields.length ++ " element" ++
    (if r.fields.length = 1 then "" else "s")

/-- Reads items by their positions, from position `n` on, and gives the number of items
that are left over. -/
def readItems (r : Record σ) (n : Nat) (s : σ) (ending : Option Fault) :
    List (Field σ) → List Document → Decode (σ × Nat)
  | [], ds => .ok (s, ds.length)
  | f :: fs, [] => do
    checkEnding ending
    if f.required then
      wrong ("invalid length " ++ Digits.natText n ++ ", expected " ++ r.sizeText)
    else r.readItems (n + 1) s ending fs []
  | f :: fs, d :: ds => do
    let s ← f.read d s
    r.readItems (n + 1) s ending fs ds

/-- The error for items that are left over. -/
def surplus {α : Type} (r : Record σ) (mode : Mode) (extra : Nat) : Decode α :=
  match mode with
  | .streamed => .error (.fault .trailingText)
  | _ =>
    let n := r.fields.length
    wrong ("invalid length " ++ Digits.natText (n + extra) ++ ", expected " ++
      Digits.natText n ++ " element" ++ (if n = 1 then "" else "s") ++ " in sequence")

/-- Reads the fields of a record on top of `start`, and lets `finish` make the result
of them; what `finish` finds wrong comes before what is left over. -/
def decode {α : Type} (r : Record σ) (mode : Mode) (start : σ) (finish : σ → Decode α)
    (d : Document) : Decode α :=
  match d with
  | .object members ending => do
    let s ← r.readMembers [] start members
    checkEnding ending
    finish s
  | .array items ending => do
    let (s, extra) ← r.readItems 0 start ending r.fields items
    let a ← finish s
    if extra ≠ 0 ∧ mode ≠ .settings then r.surplus mode extra
    else
      checkEnding ending
      return a
  | _ => wrongType d ("struct " ++ r.name)

end Record

/-- The value of a field that must be there. -/
def present {α : Type} (name : String) : Option α → Decode α
  | some a => .ok a
  | none => wrong ("missing field " ++ ticked name)

/-- Decodes a whole text. What follows the value is looked at last. -/
def decodeText {α : Type} (decode : Document → Decode α) (text : String) : Decode α := do
  let (d, trailing) := read text
  let a ← decode d
  if trailing then .error (.fault .trailingText) else return a

end LiveBook.Json
