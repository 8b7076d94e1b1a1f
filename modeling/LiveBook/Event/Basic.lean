import LiveBook.Decimal.Parse
import LiveBook.Market
import LiveBook.Time.Timestamp

/-!
# Market events

What a market data source sends: diffs, which change some levels of a book, full
snapshots, which replace it, and trades. Events carry the sequence number that the
market gave them; trades carry an identifier instead.

* `LiveBook.Level` – a price and the size resting at it; size zero means that the level
  is gone;
* `LiveBook.Diff`, `LiveBook.Snapshot`, `LiveBook.Trade` – the events;
* `LiveBook.Event` – any of them;
* `LiveBook.BookMessage` – those that change the levels of a book.
-/

namespace LiveBook

/-- A price and the size resting at it. -/
structure Level where
  price : Decimal
  size : Decimal
deriving DecidableEq, Inhabited

/-- Changes to some levels of a book. -/
structure Diff where
  market : MarketId
  sequence : Nat
  timestamp : Time.Timestamp
  bids : List Level
  asks : List Level
deriving DecidableEq, Inhabited

/-- All levels of a book at a sequence number. -/
structure Snapshot where
  market : MarketId
  sequence : Nat
  timestamp : Time.Timestamp
  bids : List Level
  asks : List Level
deriving DecidableEq, Inhabited

/-- The side that started a trade. -/
inductive TradeSide where
  | buy
  | sell
deriving DecidableEq, Repr, Inhabited

/-- A public trade. -/
structure Trade where
  market : MarketId
  id : String
  timestamp : Time.Timestamp
  price : Decimal
  amount : Decimal
  side : TradeSide
deriving DecidableEq, Inhabited

/-- An event of a market data source. -/
inductive Event where
  | diff (e : Diff)
  | snapshot (e : Snapshot)
  | trade (e : Trade)
deriving DecidableEq

/-- The three streams into which events are sorted. -/
inductive EventStream where
  | diff
  | snapshot
  | trade
deriving DecidableEq, Repr, Inhabited

/-- A message in the queue of a market. -/
inductive BookMessage where
  | diff (e : Diff)
  | snapshot (e : Snapshot)
deriving DecidableEq

/-- The sequence number of a message. -/
def BookMessage.sequence : BookMessage → Nat
  | .diff e => e.sequence
  | .snapshot e => e.sequence

/-- The market of a message. -/
def BookMessage.market : BookMessage → MarketId
  | .diff e => e.market
  | .snapshot e => e.market

namespace Event

/-- The market of an event. -/
def market : Event → MarketId
  | .diff e => e.market
  | .snapshot e => e.market
  | .trade e => e.market

/-- The stream of an event. -/
def stream : Event → EventStream
  | .diff _ => .diff
  | .snapshot _ => .snapshot
  | .trade _ => .trade

/-- The message that an event puts into the queue of its market; trades put none. -/
def message? : Event → Option BookMessage
  | .diff e => some (.diff e)
  | .snapshot e => some (.snapshot e)
  | .trade _ => none

end Event

/-- The name of a stream. -/
def EventStream.name : EventStream → String
  | .diff => "diff"
  | .snapshot => "snapshot"
  | .trade => "trade"

/-- All streams. -/
def EventStream.all : List EventStream := [.diff, .snapshot, .trade]

end LiveBook
