import LiveBook.Event.PerStream

/-!
# A run of a tracker

Between a start and a stop, a tracker has a number of tasks: it listens to the streams of
the source, routes what comes in, fetches the first books, and asks for prices of last
trades. A stop cancels them all. A task that waits for something then sees this and
ends; no task ends in the middle of anything else.

Here are the stages of these tasks. A stage is a place where a task waits.
-/

namespace LiveBook

/-- What a source is listened to for. -/
inductive Listener where
  | stream (s : EventStream)
  /-- The connection itself, which carries the streams. -/
  | subscriptions
deriving DecidableEq, Repr, Inhabited

/-- All listeners. -/
def Listener.all : List Listener := EventStream.all.map .stream ++ [.subscriptions]

/-- The name of a listener: that of its stream, in the plural. -/
def Listener.name : Listener → String
  | .stream .diff => "diffs"
  | .stream .snapshot => "snapshots"
  | .stream .trade => "trades"
  | .subscriptions => "subscriptions"

/-- How far a listener has come. -/
inductive ListenerStage where
  | starting
  | listening
  | backingOff (due : Nat)
  | ended
deriving DecidableEq, Repr, Inhabited

/-- How far the router of a stream has come. -/
inductive RouterStage where
  | awaitingReady
  | routing
  | ended
deriving DecidableEq, Repr, Inhabited

/-- How far the fetching of first books has come. -/
inductive StartupStage where
  /-- The book of the first of these markets comes next. -/
  | next (markets : List MarketId)
  | fetching (market : MarketId) (rest : List MarketId)
  /-- The book has come and waits for the lock. -/
  | locking (market : MarketId) (rest : List MarketId) (book : Snapshot)
  | backingOff (market : MarketId) (rest : List MarketId) (due : Nat)
  | pausing (rest : List MarketId) (due : Nat)
  | ended
deriving DecidableEq, Inhabited

/-- How far the asking for prices of last trades has come. -/
inductive RefreshStage where
  | awaitingReady
  | checking
  /-- Prices were asked for some markets, whose books have these workers. -/
  | asking (markets : List (MarketId × Nat))
  | sleeping (due : Nat)
  | ended
deriving DecidableEq, Repr, Inhabited

/-- A run of a tracker. -/
structure Run where
  isCancelled : Bool
  /-- The events that were received and not yet routed. -/
  inbox : PerStream (List Event)
  listeners : PerStream ListenerStage
  subscriptions : ListenerStage
  routers : PerStream RouterStage
  startup : StartupStage
  refresh : RefreshStage
deriving DecidableEq, Inhabited

namespace Run

/-- A run that begins. Diffs are routed at once; snapshots and trades once all first books
are there. -/
def begin (markets : List MarketId) (refreshes : Bool) : Run where
  isCancelled := false
  inbox := .const []
  listeners := .const .starting
  subscriptions := .starting
  routers := ⟨.routing, .awaitingReady, .awaitingReady⟩
  startup := .next markets
  refresh := if refreshes then .awaitingReady else .ended

/-- The stage of a listener. -/
def listener (r : Run) : Listener → ListenerStage
  | .stream s => r.listeners.get s
  | .subscriptions => r.subscriptions

/-- Changes the stage of a listener. -/
def setListener (r : Run) (l : Listener) (stage : ListenerStage) : Run :=
  match l with
  | .stream s => { r with listeners := r.listeners.update s fun _ => stage }
  | .subscriptions => { r with subscriptions := stage }

/-- Changes the stage of a router. -/
def setRouter (r : Run) (s : EventStream) (stage : RouterStage) : Run :=
  { r with routers := r.routers.update s fun _ => stage }

/-- Whether all tasks have ended. -/
def hasEnded (r : Run) : Bool :=
  Listener.all.all (fun l => r.listener l = .ended) &&
    EventStream.all.all (fun s => r.routers.get s = .ended) &&
    r.startup = .ended && r.refresh = .ended

@[simp]
theorem listener_setListener (r : Run) (l l' : Listener) (stage : ListenerStage) :
    (r.setListener l stage).listener l' = if l = l' then stage else r.listener l' := by
  cases l <;> cases l' <;> simp [setListener, listener]

end Run

end LiveBook
