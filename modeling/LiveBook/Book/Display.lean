import LiveBook.Book.View
import LiveBook.Event.Codec

/-!
# Books as JSON

The short forms in which levels, snapshots and books are shown: a level is a pair of its
price and its size.
-/

namespace LiveBook

open Json (Value)

/-- A level as a pair. -/
def Level.toPair (l : Level) : Value := .array [l.price.toJson, l.size.toJson]

/-- A price that may be absent. -/
def Decimal.optionToJson (d : Option Decimal) : Value := Value.ofOption Decimal.toJson d

/-- A number that may be absent. -/
def natOptionToJson (n : Option Nat) : Value := Value.ofOption Value.nat n

/-- A snapshot without its time. -/
def Snapshot.summaryJson (s : Snapshot) : Value :=
  .object [("market", s.market.toJson), ("sequence", .nat s.sequence),
    ("bids", .list Level.toPair s.bids), ("asks", .list Level.toPair s.asks)]

/-- A book as it is seen. -/
def BookView.toJson (v : BookView) : Value :=
  .object [("market", v.market.toJson), ("sequence", .nat v.snapshotSequence),
    ("last_diff", natOptionToJson v.lastDiff), ("bids", .list Level.toPair v.bids),
    ("asks", .list Level.toPair v.asks), ("trade", Decimal.optionToJson v.lastTrade)]

/-- The levels of a book in some depth, its best prices, and what follows from them. -/
def Book.stateJson (depth : Nat) (b : Book) : Value :=
  let v := b.view
  let best (p q : Option Level) : Value :=
    .array [Value.ofOption Level.toPair p, Value.ofOption Level.toPair q]
  let (topBids, topAsks) := v.top depth
  .object [("book", v.toJson), ("depth", .list Value.nat [b.bids.length, b.asks.length]),
    ("best", best b.bestBid b.bestAsk), ("view_best", best v.bestBid v.bestAsk),
    ("mid", Decimal.optionToJson v.mid?), ("spread_bps", Decimal.optionToJson v.spreadBps?),
    ("top", .array [.list Level.toPair topBids, .list Level.toPair topAsks])]

end LiveBook
