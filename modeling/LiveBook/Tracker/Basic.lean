import LiveBook.Book.View
import LiveBook.Ready
import LiveBook.Tracker.Config
import LiveBook.Tracker.Request
import LiveBook.Tracker.Routing

/-!
# Trackers

A tracker keeps the books of some markets up to date, from what a source sends. It is a
state in which many things go on side by side: the tasks of its runs, the workers at its
desk, and the requests that were made of it. What each of them does is in the modules
that follow; `LiveBook.Tracker.step` puts them together.

Two clocks are kept. One, in milliseconds, tells pauses to end; the other, in nanoseconds,
stamps what happens to books.

* `LiveBook.Tracker`, `LiveBook.Tracker.ofConfig` – a tracker, and one that was never
  started;
* `LiveBook.Tracker.start`, `LiveBook.Tracker.abandon` – the start of a run, and the end of
  the tracker itself;
* `LiveBook.SourceCall`, `LiveBook.SourceAnswer` – what is asked of the source.
-/

namespace LiveBook

/-- What a tracker asks of its source. -/
inductive SourceCall where
  | book (market : MarketId)
  | subscribe (market : MarketId)
  | unsubscribe (market : MarketId)
  | prices (markets : List MarketId)
deriving DecidableEq, Repr, Inhabited

/-- What a source answers. -/
inductive SourceAnswer where
  | book (r : Except SourceError Snapshot)
  | flag (b : Bool)
  | prices (r : Except SourceError (Table MarketId Decimal))

/-- What others see of a tracker. -/
inductive TrackerEffect where
  /-- Something is asked of the source. -/
  | called (actor : Actor) (call : SourceCall)
  /-- The source is listened to. -/
  | listened (run : Nat) (l : Listener)
  /-- The source has ended what a listener listens to. -/
  | hungUp (run : Nat) (l : Listener) (error? : Option SourceError)
  /-- A first book could not be had, or not be used. -/
  | failed (actor : Actor) (cause : TrackerError)
  /-- An event was routed. -/
  | routed (run : Nat) (e : Event) (outcome : RouteOutcome)
  /-- A worker has done something. -/
  | worked (i : Nat) (act : WorkerAct)
  /-- A request was answered. -/
  | answered (i : Nat) (reply : Reply)
  /-- A tracker that runs was to be started. -/
  | alreadyStarted

/-- **A tracker.** -/
structure Tracker where
  config : TrackerConfig
  desk : Desk
  ready : ReadySignal
  /-- The run that was started and not yet stopped. -/
  run : Option Nat
  /-- All runs there ever were; a run is known by its place. -/
  runs : List Run
  /-- All requests there ever were; a request is known by its place. -/
  requests : List RequestStage
  /-- Who has the lock, and who waits for it, in this order. -/
  lock : List Actor
  /-- The time in milliseconds. -/
  clock : Nat
  /-- The time on the clock that stamps books. -/
  now : Instant

/-- What a step leads to, if it is possible. -/
abbrev Tracker.Outcome := Option (Tracker × List TrackerEffect)

namespace Tracker

/-- A tracker that was never started. -/
def ofConfig (config : TrackerConfig) : Except TrackerError Tracker := do
  config.validate
  return {
    config := config
    desk := .empty config.policy (.ofConfig config.metrics 0)
    ready := {}
    run := none
    runs := []
    requests := []
    lock := []
    clock := 0
    now := 0 }

/-- A run by its number. -/
def run? (t : Tracker) (r : Nat) : Option Run := t.runs[r]?

/-- Changes a run. -/
def setRun (t : Tracker) (r : Nat) (run : Run) : Tracker := { t with runs := t.runs.set r run }

/-- Whether a run was cancelled. -/
def isCancelled (t : Tracker) (r : Nat) : Bool :=
  match t.run? r with
  | some run => run.isCancelled
  | none => true

/-- A request by its number. -/
def request? (t : Tracker) (i : Nat) : Option RequestStage := t.requests[i]?

/-- Changes a request. -/
def setRequest (t : Tracker) (i : Nat) (stage : RequestStage) : Tracker :=
  { t with requests := t.requests.set i stage }

/-- Answers a request. -/
def answer (t : Tracker) (i : Nat) (reply : Reply) : Tracker × List TrackerEffect :=
  (t.setRequest i (.answered reply), [.answered i reply])

/-! ### The lock -/

/-- Asks for the lock. -/
def queueForLock (t : Tracker) (a : Actor) : Tracker := { t with lock := t.lock ++ [a] }

/-- Whether somebody has the lock. -/
def holdsLock (t : Tracker) (a : Actor) : Bool := t.lock.head? = some a

/-- Gives the lock to the next who asked for it. -/
def unlock (t : Tracker) : Tracker := { t with lock := t.lock.tail }

/-! ### Start and end -/

/-- Starts a run: the configured markets are registered, so that diffs which come early
are set aside. -/
def start (t : Tracker) : Except TrackerError Tracker :=
  match t.run with
  | some _ => .error .alreadyStarted
  | none =>
    let desk := { t.desk with metrics := t.desk.metrics.markStarted t.now }
    let desk := t.config.markets.foldl (fun d m => d.register m t.config.pendingCapacity) desk
    .ok { t with
      desk := desk
      run := some t.runs.length
      runs := t.runs ++ [.begin t.config.markets t.config.tradeRefresh.enabled] }

/-- Cancels all tasks and workers of a run. -/
def cancelRun (t : Tracker) (r : Nat) : Tracker :=
  match t.run? r with
  | some run =>
    { t.setRun r { run with isCancelled := true } with desk := t.desk.cancelRun r }
  | none => t

/-- The tracker is given up: the tasks of its run are cancelled, and nobody waits for
them. -/
def abandon (t : Tracker) : Tracker :=
  match t.run with
  | some r => t.cancelRun r
  | none => t

/-! ### Looking at a tracker -/

/-- Whether it was started and not yet stopped. -/
def isRunning (t : Tracker) : Bool := t.run.isSome

/-- Whether all first books are there. -/
def isReady (t : Tracker) : Bool := t.ready.raised

/-- The active markets, in their order. -/
def tracked (t : Tracker) : List MarketId := t.desk.activeMarkets.map (·.1)

/-- The views of the books of the active markets. -/
def views (t : Tracker) : List (MarketId × BookView) :=
  t.tracked.filterMap fun m => (t.desk.book? m).map fun b => (m, b.view)

end Tracker

end LiveBook
