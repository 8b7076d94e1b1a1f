import LiveBook.Connection.Registry
import LiveBook.Source.Error

/-!
# What an exchange says and understands

Exchanges differ in how a subscription is asked for and how events are written down. A
dialect says so for one exchange; all else about a connection is common to them. A
request may take several frames, and may be impossible to build. Building one uses up
request numbers, also when it fails.
-/

namespace LiveBook

/-- How to speak with an exchange. -/
structure Dialect where
  /-- The frames that subscribe to a market. -/
  subscribe : MarketId → RequestIds → RequestIds × Except SourceError (List String)
  /-- The frames that end the subscription to a market. -/
  unsubscribe : MarketId → RequestIds → RequestIds × Except SourceError (List String)
  /-- A ping of the exchange's own, if it has one. -/
  ping : RequestIds → RequestIds × Option String
  /-- The events in a text frame: all of them or, if one is faulty, none. -/
  parse : String → Except SourceError (List Event)

end LiveBook
