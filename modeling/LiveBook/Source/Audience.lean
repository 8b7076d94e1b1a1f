import LiveBook.Jobs
import LiveBook.Source.Error
import LiveBook.Source.Fanout

/-!
# Forwarders with outputs of their own

An audience is a set of forwarders at the streams of a source, each with an output that
keeps what was handed on until it is collected. An output can be closed, whereupon its
forwarder ends with an error, and a forwarder can be dropped.
-/

namespace LiveBook

/-- What came out of a forwarder. -/
structure Output where
  stream : EventStream
  received : List Event := []
  isClosed : Bool := false
deriving DecidableEq, Inhabited

/-- **Forwarders with their outputs,** known by numbers. -/
structure Audience where
  fanout : Fanout Int := .empty
  outputs : Table Int Output := .empty
  /-- With which errors the forwarders have ended. -/
  forwarders : Jobs SourceError := {}

namespace Audience

/-- Takes note of what has happened in a stream. -/
def note (a : Audience) (s : EventStream) : Relay.Effect Int Event → Audience
  | .delivered f e =>
    { a with outputs := a.outputs.adjust f fun o => { o with received := o.received ++ [e] } }
  | .lost _ _ => a
  | .ended f => { a with forwarders := a.forwarders.finish f (.outputClosed s) }

/-- Lets everything in the streams come to rest. -/
def settle (a : Audience) : Audience :=
  EventStream.all.foldl (fun a s =>
    let (fanout, es) := a.fanout.settle s
    es.foldl (fun a e => a.note s e) { a with fanout := fanout }) a

/-- The stream of a forwarder. -/
def streamOf (a : Audience) (id : Int) : EventStream :=
  ((a.outputs.get? id).map Output.stream).getD .diff

/-- An event comes in. -/
def dispatch (a : Audience) (e : Event) : Audience :=
  { a with fanout := a.fanout.dispatch e }.settle

/-- A forwarder begins. -/
def listen (a : Audience) (id : Int) (s : EventStream) : Audience :=
  { fanout := a.fanout.apply s (.join id)
    outputs := a.outputs.set id { stream := s }
    forwarders := a.forwarders.begin id : Audience }.settle

/-- Collects what an output has received; nothing if it is closed or was never there. -/
def collect (a : Audience) (id : Int) : Audience × Option (List Event) :=
  match a.outputs.get? id with
  | some o =>
    if o.isClosed then (a, none)
    else ({ a with outputs := a.outputs.set id { o with received := [] } }, some o.received)
  | none => (a, none)

/-- Closes an output, and asks what became of its forwarder. -/
def close (a : Audience) (id : Int) : Audience × Polled SourceError :=
  let a := { a with
    fanout := a.fanout.apply (a.streamOf id) (.close id)
    outputs := a.outputs.adjust id fun o => { o with isClosed := true } }.settle
  let (forwarders, polled) := a.forwarders.poll id
  ({ a with forwarders := forwarders }, polled)

/-- Drops a forwarder. -/
def drop (a : Audience) (id : Int) : Audience :=
  { a with
    fanout := a.fanout.apply (a.streamOf id) (.leave id)
    forwarders := a.forwarders.abandon id }.settle

end Audience

end LiveBook
