import LiveBook.Json.Document

/-!
# The tables of a configuration file

A TOML file describes one table of values, and says in three ways where a value stands:
by headers, by headers of arrays of tables, and by dotted keys. Each table of the file
is described once. How a table came about decides what may still be added to it.

* `LiveBook.Toml.Node` – a table under construction;
* `LiveBook.Toml.define`, `LiveBook.Toml.openTable`, `LiveBook.Toml.openRow` – a value, a
  header and a header of an array of tables;
* `LiveBook.Toml.Node.toDocument` – the document that results.
-/

namespace LiveBook.Toml

open Json (Document)

/-- How a table came about. -/
inductive Origin where
  /-- By a header of its own; the table of the whole file counts as such. -/
  | header
  /-- By the header of a table inside it. -/
  | implied
  /-- By a dotted key. -/
  | dotted
deriving DecidableEq, Repr

/-- What stands at a key of a table under construction. -/
inductive Node where
  | value (v : Document)
  | table (origin : Origin) (members : List (String × Node))
  | rows (tables : List (List (String × Node)))

/-- The members of a table under construction. -/
abbrev Members := List (String × Node)

/-- What stands at a key. -/
def Members.get? (ms : Members) (key : String) : Option Node :=
  (ms.find? (·.1 == key)).map (·.2)

/-- Puts something at a key. -/
def Members.put (key : String) (n : Node) : Members → Members
  | [] => [(key, n)]
  | (k, old) :: rest => if k == key then (k, n) :: rest else (k, old) :: Members.put key n rest

/-- Changes the table at the end of a path, which `change` gets with its origin. Tables
that are missing on the way are made. Of an array of tables the last is meant. A dotted
key does not lead into a table that has a header. -/
def descend (byDots : Bool) (change : Origin → Members → Option Members) :
    List String → Origin → Members → Option Members
  | [], origin, ms => change origin ms
  | key :: path, _, ms => do
    let missing := if byDots then Origin.dotted else .implied
    match ms.get? key with
    | none => return ms.put key (.table missing (← descend byDots change path missing []))
    | some (.value _) => none
    | some (.table origin inner) =>
      if byDots ∧ origin = .header then none
      else return ms.put key (.table origin (← descend byDots change path origin inner))
    | some (.rows tables) =>
      match tables.getLast? with
      | none => none
      | some last =>
        let last ← descend byDots change path .header last
        return ms.put key (.rows (tables.dropLast ++ [last]))

/-- Sets a value in a table that was reached by a path of dots or directly. -/
def assign (direct : Bool) (key : String) (v : Document) (origin : Origin) (ms : Members) :
    Option Members :=
  if (origin = .dotted) = direct then none
  else if (ms.get? key).isSome then none
  else some (ms.put key (.value v))

/-- Sets the value of a dotted key, in the table that a header has opened. -/
def define (header path : List String) (key : String) (v : Document) (root : Members) :
    Option Members :=
  descend false (descend true (assign path.isEmpty key v) path) header .header root

/-- A table as its header finds it: either new or so far only implied. -/
def headed (key : String) (_ : Origin) (ms : Members) : Option Members :=
  match ms.get? key with
  | none => some (ms.put key (.table .header []))
  | some (.table .implied inner) => some (ms.put key (.table .header inner))
  | some _ => none

/-- Opens the table at a path. -/
def openTable (path : List String) (key : String) (root : Members) : Option Members :=
  descend false (headed key) path .header root

/-- An array of tables with one more. -/
def extended (key : String) (_ : Origin) (ms : Members) : Option Members :=
  match ms.get? key with
  | none => some (ms.put key (.rows [[]]))
  | some (.rows tables) => some (ms.put key (.rows (tables ++ [[]])))
  | some _ => none

/-- Opens one more table of the array at a path. -/
def openRow (path : List String) (key : String) (root : Members) : Option Members :=
  descend false (extended key) path .header root

mutual

/-- The document for what stands at a key. -/
def Node.toDocument : Node → Document
  | .value v => v
  | .table _ ms => .object (membersDocument ms) none
  | .rows tables => .array (rowsDocument tables) none

/-- The members of the document for a table. -/
def membersDocument : List (String × Node) → List (String × Document)
  | [] => []
  | (k, n) :: rest => (k, n.toDocument) :: membersDocument rest

/-- The items of the document for an array of tables. -/
def rowsDocument : List (List (String × Node)) → List Document
  | [] => []
  | ms :: rest => .object (membersDocument ms) none :: rowsDocument rest

end

end LiveBook.Toml
