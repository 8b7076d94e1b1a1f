import LiveBook.Json.Basic
import LiveBook.Json.Decode

/-!
# Markets

A market is known by its identifier, an opaque text that is only compared and shown.
A tracked market moves through four phases:

`unregistered → initializing → active → removed`.

Only an active market takes part in live updates; an initializing one has its diffs
set aside; events of any other are dropped.

* `LiveBook.MarketId`, `LiveBook.MarketId.parse` – identifiers, and those a user gives:
  white space at the ends is dropped and nothing but white space is refused;
* `LiveBook.MarketId.ascending_mergeSort` – what is sorted by its markets;
* `LiveBook.Phase` – the phases.
-/

namespace LiveBook

/-- The identifier of a market. -/
structure MarketId where
  name : String
deriving DecidableEq, Repr, Inhabited

namespace MarketId

/-- Identifiers are ordered by the code points of their names. -/
instance : Ord MarketId := ⟨fun a b => compare a.name b.name⟩

instance : LT MarketId := ⟨fun a b => a.name < b.name⟩

instance (a b : MarketId) : Decidable (a < b) := inferInstanceAs (Decidable (a.name < b.name))

/-- Whether nothing of an identifier can be seen. -/
def isBlank (m : MarketId) : Bool := Text.isBlank m.name

/-- Why a text is no identifier. -/
inductive ParseError where
  /-- Nothing of it can be seen; `shown` is a form of it that can. -/
  | blank (shown : String)
deriving DecidableEq, Repr

/-- The wording of an error. -/
def ParseError.message : ParseError → String
  | .blank shown => "market id " ++ shown ++ " is blank"

/-- An identifier as a user gives it. -/
def parse (text : String) : Except ParseError MarketId :=
  if Text.isBlank text then .error (.blank (Text.quoted text))
  else .ok ⟨Text.trim text⟩

/-- An identifier in a document: any string. -/
def decode (d : Json.Document) : Json.Decode MarketId :=
  return ⟨← Json.string d⟩

/-- An identifier as a JSON value. -/
def toJson (m : MarketId) : Json.Value := .string m.name

/-- Parsing never gives a blank identifier for one that is not. -/
theorem parse_ok {text : String} (h : Text.isBlank text = false) :
    parse text = .ok ⟨Text.trim text⟩ := by
  simp [parse, h]

/-! ### The order of identifiers -/

theorem isLE_trans {a b c : MarketId} (hab : (compare a b).isLE = true)
    (hbc : (compare b c).isLE = true) : (compare a c).isLE = true :=
  @Std.TransCmp.isLE_trans String compare _ a.name b.name c.name hab hbc

theorem isLE_total (a b : MarketId) : ((compare a b).isLE || (compare b a).isLE) = true := by
  change ((compare a.name b.name).isLE || (compare b.name a.name).isLE) = true
  rw [@Std.OrientedCmp.eq_swap String compare _ a.name b.name]
  cases compare b.name a.name <;> rfl

/-- What comes no later comes earlier, or is the same. -/
theorem lt_or_eq_of_isLE {a b : MarketId} (h : (compare a b).isLE = true) : a < b ∨ a = b := by
  obtain ⟨s⟩ := a
  obtain ⟨s'⟩ := b
  change (compareOfLessAndEq s s').isLE = true at h
  unfold compareOfLessAndEq at h
  split at h
  next hlt => exact .inl hlt
  next =>
    split at h
    next heq => exact .inr (congrArg _ heq)
    next => cases h

/-- What is sorted by different markets is in strictly ascending order. -/
theorem ascending_mergeSort {α : Type} (key : α → MarketId) {xs : List α}
    (distinct : xs.Pairwise fun a b => key a ≠ key b) :
    (xs.mergeSort fun a b => (compare (key a) (key b)).isLE).Pairwise fun a b => key a < key b := by
  have sorted := List.pairwise_mergeSort
    (fun a b c (hab : (compare (key a) (key b)).isLE = true) hbc => isLE_trans hab hbc)
    (fun a b => isLE_total (key a) (key b)) xs
  have distinct' := (List.mergeSort_perm xs fun a b => (compare (key a) (key b)).isLE).pairwise_iff
    (fun h => Ne.symm h) |>.mpr distinct
  exact (sorted.and distinct').imp fun h => (lt_or_eq_of_isLE h.1).resolve_right h.2

end MarketId

/-- Where a market is in its life. -/
inductive Phase where
  | unregistered
  | initializing
  | active
  | removed
deriving DecidableEq, Repr, Inhabited

namespace Phase

/-- The name of a phase in a document. -/
def name : Phase → String
  | .unregistered => "unregistered"
  | .initializing => "initializing"
  | .active => "active"
  | .removed => "removed"

/-- All phases, in the order of a market's life. -/
def all : List Phase := [.unregistered, .initializing, .active, .removed]

/-- A phase as it is shown. -/
def text : Phase → String
  | .unregistered => "UNREGISTERED"
  | .initializing => "INITIALIZING"
  | .active => "ACTIVE"
  | .removed => "REMOVED"

/-- Whether the market takes part in live updates. -/
def isActive (p : Phase) : Bool := p == .active

/-- Whether diffs of the market are set aside. -/
def buffersDiffs (p : Phase) : Bool := p == .initializing

/-- A phase in a document. -/
def decode (d : Json.Document) : Json.Decode Phase :=
  Json.choice .streamed (all.map fun p => (p.name, p)) d

end Phase

end LiveBook
