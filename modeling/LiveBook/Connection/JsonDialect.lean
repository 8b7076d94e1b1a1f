import LiveBook.Connection.Dialect
import LiveBook.Event.Codec

/-!
# A dialect in JSON

A plain dialect: requests are objects with the members `op`, `market` and `id`; a frame
with an `op` says nothing about a market, an array holds several events, and anything else
is one event.
-/

namespace LiveBook

open Json (Document Value)

/-- The settings of a dialect in JSON. -/
structure JsonDialect where
  /-- The number of frames in a request. -/
  framesPerRequest : Nat := 1
  /-- Whether pings are requests, too. -/
  hasPing : Bool := false
  /-- The requests, such as `subscribe:M`, that cannot be built. -/
  refused : List String := []
deriving DecidableEq, Repr, Inhabited

namespace JsonDialect

/-- One frame of a request. -/
def frame (op : String) (market? : Option MarketId) (ids : RequestIds) : RequestIds × String :=
  let (ids, n) := ids.take
  let market := market?.toList.map fun m => ("market", m.toJson)
  (ids, (Value.object (("op", .string op) :: market ++ [("id", .nat n)])).render)

/-- The frames of a request, each with a number of its own. -/
def frames (op : String) (m : MarketId) : Nat → RequestIds → RequestIds × List String
  | 0, ids => (ids, [])
  | n + 1, ids =>
    let (ids, f) := frame op (some m) ids
    let (ids, fs) := frames op m n ids
    (ids, f :: fs)

/-- A request, unless it cannot be built. -/
def request (d : JsonDialect) (op : String) (m : MarketId) (ids : RequestIds) :
    RequestIds × Except SourceError (List String) :=
  if d.refused.contains (op ++ ":" ++ m.name) then (ids, .error (.request "refused"))
  else
    let (ids, fs) := frames op m d.framesPerRequest ids
    (ids, .ok fs)

/-- The events in the document of a frame. -/
def decodeFrame (received : Time.Timestamp) (d : Document) : Json.Decode (List Event) :=
  match d with
  | .array ds _ => ds.mapM (Event.ofDocument received)
  | .object members _ =>
    if members.any fun m => m.1 == "op" then return [] else return [← Event.ofDocument received d]
  | _ => return [← Event.ofDocument received d]

/-- The events in a text frame: all or, if one is faulty, none. -/
def parse (received : Time.Timestamp) (text : String) : Except SourceError (List Event) :=
  match Json.decodeText (decodeFrame received) text with
  | .ok es => .ok es
  | .error e => .error (.parse e.message)

/-- The dialect. Events without a time get the time `received`. -/
def toDialect (d : JsonDialect) (received : Time.Timestamp) : Dialect where
  subscribe := d.request "subscribe"
  unsubscribe := d.request "unsubscribe"
  ping := fun ids =>
    if d.hasPing then
      let (ids, f) := frame "ping" none ids
      (ids, some f)
    else (ids, none)
  parse := parse received

end JsonDialect

end LiveBook
