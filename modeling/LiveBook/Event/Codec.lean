import LiveBook.Event.Basic

/-!
# Events in JSON

A recorded feed has one event per line, a JSON object whose member `type` says what
the event is. Prices and sizes are written as strings, which keeps every digit; a
number is read as well, a floating one through its shortest decimal. An event without
a timestamp gets the time at which it is received.

* `LiveBook.Event.decode` – reads an event;
* `LiveBook.Event.toJson` – the event as a JSON value.

The tag may stand anywhere in the object, so the other members are set aside until the
object is closed, and decoded then. An array does as well: the tag comes first, and the
fields follow in their order.
-/

namespace LiveBook

open Json (Decode Document Field Mode Record Value)

namespace Decimal

/-- What an error says that a decimal should have been. -/
def expected : String := "a Decimal type representing a fixed-point number"

/-- A decimal in a document. -/
def decode (d : Document) : Decode Decimal :=
  let ofText (text : String) : Decode Decimal :=
    match parse text with
    | .ok x => .ok x
    | .error _ => Json.wrongValue d expected
  match d with
  | .string s => ofText s
  | .int i => ofText (Digits.intText i)
  | .float x => ofText (Number.plain x)
  | _ => Json.wrongType d expected

/-- A decimal as a JSON value. -/
def toJson (d : Decimal) : Value := .string d.text

end Decimal

namespace Time.Timestamp

/-- A timestamp in a document. -/
def decode (d : Document) : Decode Timestamp :=
  match d with
  | .string s =>
    match parse s with
    | .ok t => .ok t
    | .error e => Json.wrong e.message
  | _ => Json.wrongType d "an RFC 3339 formatted date and time string"

end Time.Timestamp

/-! ### Levels -/

namespace Level

/-- The fields of a level. -/
def fields : Record (Option Decimal × Option Decimal) where
  name := "PriceLevel"
  fields := [
    ⟨"price", true, fun d s => return (some (← Decimal.decode d), s.2)⟩,
    ⟨"size", true, fun d s => return (s.1, some (← Decimal.decode d))⟩]

/-- A level in a document. -/
def decode (d : Document) : Decode Level :=
  fields.decode .buffered (none, none)
    (fun s => return {
      price := ← Json.present "price" s.1
      size := ← Json.present "size" s.2 }) d

/-- A level as a JSON value. -/
def toJson (l : Level) : Value := .object [("price", l.price.toJson), ("size", l.size.toJson)]

end Level

/-! ### Diffs and snapshots -/

/-- The fields that diffs and snapshots have in common, as far as they were read. -/
structure LevelsDraft where
  market : Option MarketId := none
  sequence : Option Nat := none
  timestamp : Option Time.Timestamp := none
  bids : List Level := []
  asks : List Level := []

/-- How the fields of a diff or of a snapshot are read. -/
def LevelsDraft.fields (name : String) : Record LevelsDraft where
  name := name
  fields := [
    ⟨"market", true, fun d s => return { s with market := some (← MarketId.decode d) }⟩,
    ⟨"sequence", true, fun d s => return { s with sequence := some (← Json.u64 d) }⟩,
    ⟨"timestamp", false,
      fun d s => return { s with timestamp := some (← Time.Timestamp.decode d) }⟩,
    ⟨"bids", false, fun d s => return { s with bids := ← Json.list Level.decode d }⟩,
    ⟨"asks", false, fun d s => return { s with asks := ← Json.list Level.decode d }⟩]

/-- The members that diffs and snapshots have in common. -/
def levelsMembers (market : MarketId) (sequence : Nat) (timestamp : Time.Timestamp)
    (bids asks : List Level) : List (String × Value) :=
  [("market", market.toJson), ("sequence", .nat sequence), ("timestamp", .string timestamp.text),
    ("bids", .list Level.toJson bids), ("asks", .list Level.toJson asks)]

/-- A diff in a document. -/
def Diff.decode (received : Time.Timestamp) (d : Document) : Decode Diff :=
  (LevelsDraft.fields "DiffEvent").decode .buffered {}
    (fun s => return {
      market := ← Json.present "market" s.market
      sequence := ← Json.present "sequence" s.sequence
      timestamp := s.timestamp.getD received
      bids := s.bids
      asks := s.asks }) d

/-- A snapshot in a document. -/
def Snapshot.decode (received : Time.Timestamp) (d : Document) : Decode Snapshot :=
  (LevelsDraft.fields "SnapshotEvent").decode .buffered {}
    (fun s => return {
      market := ← Json.present "market" s.market
      sequence := ← Json.present "sequence" s.sequence
      timestamp := s.timestamp.getD received
      bids := s.bids
      asks := s.asks }) d

/-! ### Trades -/

/-- The name of a side in a document. -/
def TradeSide.name : TradeSide → String
  | .buy => "buy"
  | .sell => "sell"

/-- A side in a document. -/
def TradeSide.decode (d : Document) : Decode TradeSide :=
  Json.choice .buffered [("buy", .buy), ("sell", .sell)] d

/-- The fields of a trade, as far as they were read. -/
structure TradeDraft where
  market : Option MarketId := none
  id : Option String := none
  timestamp : Option Time.Timestamp := none
  price : Option Decimal := none
  amount : Option Decimal := none
  side : Option TradeSide := none

/-- How the fields of a trade are read. -/
def TradeDraft.fields : Record TradeDraft where
  name := "TradeEvent"
  fields := [
    ⟨"market", true, fun d s => return { s with market := some (← MarketId.decode d) }⟩,
    ⟨"trade_id", true, fun d s => return { s with id := some (← Json.string d) }⟩,
    ⟨"timestamp", false,
      fun d s => return { s with timestamp := some (← Time.Timestamp.decode d) }⟩,
    ⟨"price", true, fun d s => return { s with price := some (← Decimal.decode d) }⟩,
    ⟨"amount", true, fun d s => return { s with amount := some (← Decimal.decode d) }⟩,
    ⟨"side", true, fun d s => return { s with side := some (← TradeSide.decode d) }⟩]

/-- A trade in a document. -/
def Trade.decode (received : Time.Timestamp) (d : Document) : Decode Trade :=
  TradeDraft.fields.decode .buffered {}
    (fun s => return {
      market := ← Json.present "market" s.market
      id := ← Json.present "trade_id" s.id
      timestamp := s.timestamp.getD received
      price := ← Json.present "price" s.price
      amount := ← Json.present "amount" s.amount
      side := ← Json.present "side" s.side }) d

/-! ### Events -/

namespace Event

/-- How deep arrays and objects may stand inside each other in an event. -/
def maxDepth : Nat := 127

/-- Sets a member aside: it must be free of faults, one level below the event. -/
def setAside (d : Document) : Decode Unit :=
  Json.checkEnding (d.fault? (maxDepth - 1))

/-- The type of an event, as its tag gives it. -/
def tag (d : Document) : Decode EventStream :=
  Json.identifier (EventStream.all.map fun s => (s.name, s)) d

/-- Looks for the tag among the members, and gives the members that were set aside. -/
def readTagged (found : Option EventStream) :
    List (String × Document) → Decode (Option EventStream × List (String × Document))
  | [] => .ok (found, [])
  | (key, d) :: rest =>
    if key = "type" then
      match found with
      | some _ => Json.wrong "duplicate field `type`"
      | none => do readTagged (some (← tag d)) rest
    else do
      setAside d
      let (found, others) ← readTagged found rest
      return (found, (key, d) :: others)

/-- Decodes the fields of an event of the given type. -/
def decodeAs (received : Time.Timestamp) (s : EventStream) (d : Document) : Decode Event :=
  match s with
  | .diff => return .diff (← Diff.decode received d)
  | .snapshot => return .snapshot (← Snapshot.decode received d)
  | .trade => return .trade (← Trade.decode received d)

/-- An event in a document; `received` is the time for an event that has none. -/
def ofDocument (received : Time.Timestamp) (d : Document) : Decode Event :=
  match d with
  | .object members ending => do
    let (found, others) ← readTagged none members
    Json.checkEnding ending
    decodeAs received (← Json.present "type" found) (.object others none)
  | .array [] ending => do
    Json.checkEnding ending
    Json.wrong "missing field `type`"
  | .array (first :: rest) ending => do
    let s ← tag first
    let _ ← rest.mapM setAside
    Json.checkEnding ending
    decodeAs received s (.array rest none)
  | _ => Json.wrongType d "internally tagged enum StreamEvent"

/-- **Decodes the text of an event.** -/
def decode (received : Time.Timestamp) (text : String) : Decode Event :=
  Json.decodeText (ofDocument received) text

/-- An event as a JSON value. -/
def toJson : Event → Value
  | .diff e =>
    .object (("type", .string "diff") ::
      levelsMembers e.market e.sequence e.timestamp e.bids e.asks)
  | .snapshot e =>
    .object (("type", .string "snapshot") ::
      levelsMembers e.market e.sequence e.timestamp e.bids e.asks)
  | .trade e =>
    .object [("type", .string "trade"), ("market", e.market.toJson), ("trade_id", .string e.id),
      ("timestamp", .string e.timestamp.text), ("price", e.price.toJson),
      ("amount", e.amount.toJson), ("side", .string e.side.name)]

/-- The text of an event. -/
def text (e : Event) : String := e.toJson.render

end Event

end LiveBook
