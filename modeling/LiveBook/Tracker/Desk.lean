import LiveBook.Book.Keeper
import LiveBook.Metrics.Basic
import LiveBook.Tracker.Error
import LiveBook.Tracker.Slot

/-!
# The desk of a tracker

The desk is where the markets of a tracker are kept. Every tracked market has a *slot*.
While the market waits for its first book, the slot sets its diffs aside. When the book
has come, the market is activated: a *worker* is set to the book, which takes first the
diffs set aside and then whatever comes into its queue. Workers are known by numbers and
are never forgotten, so that one market may have had several, but a slot leads to at most
one.

A worker whose slot no longer leads to it gets no more messages and ends once its queue
is empty; one that is cancelled ends before its next message.

* `LiveBook.Worker`, `LiveBook.Desk` – the desk;
* `LiveBook.Desk.slot?` – what the slot of a market shows, through which it is looked at;
* `LiveBook.Desk.activate`, `LiveBook.Desk.discard` – a market gets its first book, or is
  given up;
* `LiveBook.Desk.work` – a worker does what it does next.
-/

namespace LiveBook

/-- How far a worker has come. -/
inductive WorkerStage where
  | running
  /-- It lets some time pass after a message was refused. -/
  | backingOff (due : Nat)
  | ended
deriving DecidableEq, Repr, Inhabited

/-- What keeps the book of one market. -/
structure Worker where
  market : MarketId
  /-- The run of the tracker to which it belongs. -/
  run : Nat
  keeper : BookKeeper
  /-- The diffs set aside before there was a book, which come first. -/
  pending : List Diff
  /-- The messages that came since. -/
  queue : List BookMessage
  isCancelled : Bool
  stage : WorkerStage
deriving DecidableEq, Inhabited

namespace Worker

/-- The messages that it has still to take, in order. -/
def backlog (w : Worker) : List BookMessage := w.pending.map .diff ++ w.queue

/-- Takes the next message. -/
def take? (w : Worker) : Option (BookMessage × Worker) :=
  match w.pending, w.queue with
  | d :: rest, _ => some (.diff d, { w with pending := rest })
  | [], m :: rest => some (m, { w with queue := rest })
  | [], [] => none

theorem backlog_of_take? {w w' : Worker} {m : BookMessage} (h : w.take? = some (m, w')) :
    w.backlog = m :: w'.backlog := by
  unfold take? at h
  unfold backlog
  grind

theorem take?_eq_none {w : Worker} : w.take? = none ↔ w.backlog = [] := by
  unfold take? backlog
  grind

end Worker

/-- **The desk of a tracker.** -/
structure Desk where
  policy : StalenessPolicy
  slots : Table MarketId MarketSlot
  /-- All workers there ever were; a worker is known by its place. -/
  staff : List Worker
  /-- The worker in charge of a market. -/
  inCharge : Table MarketId Nat
  metrics : Metrics

/-- What a worker has done. -/
inductive WorkerAct where
  /-- It has taken a message. -/
  | took (m : BookMessage) (verdict : Verdict)
  /-- It goes on after a pause. -/
  | resumed
  | ended
deriving DecidableEq

namespace Desk

/-- A desk without any market. -/
def empty (policy : StalenessPolicy) (metrics : Metrics) : Desk where
  policy := policy
  slots := .empty
  staff := []
  inCharge := .empty
  metrics := metrics

/-- What the slot of a market shows. -/
def slot? (d : Desk) (m : MarketId) : Option Slot := (d.slots.get? m).map (·.view)

/-- Puts other diffs aside for a market that waits. -/
def setPending (d : Desk) (m : MarketId) (pending : PendingDiffs) : Desk :=
  { d with slots := d.slots.adjust m (·.setPending pending) }

/-- A worker by its number. -/
def worker? (d : Desk) (i : Nat) : Option Worker := d.staff[i]?

/-- Changes a worker. -/
def setWorker (d : Desk) (i : Nat) (w : Worker) : Desk := { d with staff := d.staff.set i w }

/-- How long it takes to bring an event to its market: no step takes any time. -/
def elapsed : Float := 0.0

/-- Records what happened to an event, and how long that took, if it was measured. -/
def record (d : Desk) (market : Option MarketId) (stream : EventStream) (outcome : Outcome)
    (latency : Option Float) (now : Instant) : Desk :=
  { d with metrics := d.metrics.record ⟨market, stream, outcome, latency, now⟩ }

/-! ### Markets come and go -/

/-- Begins to track a market; its diffs are set aside. -/
def register (d : Desk) (m : MarketId) (capacity : Nat) : Desk :=
  { d with slots := d.slots.set m (.initializing capacity) }

/-- Gives a waiting market its first book, and sets a worker to it, which may be cancelled
from the start. -/
def activate (d : Desk) (m : MarketId) (s : Snapshot) (run : Nat) (isCancelled : Bool)
    (recentDiffs : Nat) : Except TrackerError Desk :=
  if s.market ≠ m then .error (.book (.marketMismatch m s.market))
  else
    match Book.ofSnapshot s with
    | .error e => .error (.book e)
    | .ok book =>
      match d.slot? m with
      | some (.initializing pending) =>
        let worker : Worker :=
          { market := m, run := run, keeper := .ofBook book recentDiffs,
            pending := pending.take.2, queue := [], isCancelled := isCancelled,
            stage := .running }
        .ok { d with
          slots := d.slots.adjust m (·.activated d.staff.length)
          staff := d.staff ++ [worker]
          inCharge := d.inCharge.set m d.staff.length }
      | _ => .error (.notInitializing m)

/-- Forgets a market. -/
def discard (d : Desk) (m : MarketId) : Desk :=
  { d with slots := d.slots.erase m, metrics := d.metrics.removeMarket m }

/-- Takes an active market away from its worker, the first half of removing it. The second
result is the worker that was in charge. -/
def retire (d : Desk) (m : MarketId) : Desk × Option Nat :=
  ({ d with slots := d.slots.adjust m (·.retired), inCharge := d.inCharge.erase m },
    d.inCharge.get? m)

/-- Cancels a worker. -/
def cancel (d : Desk) (i : Nat) : Desk :=
  match d.worker? i with
  | some w => d.setWorker i { w with isCancelled := true }
  | none => d

/-- Cancels all workers of a run. -/
def cancelRun (d : Desk) (run : Nat) : Desk :=
  { d with staff := d.staff.map fun w => if w.run = run then { w with isCancelled := true } else w }

/-- Dismisses all workers. The second result tells which were in charge. -/
def dismiss (d : Desk) : Desk × List Nat :=
  ({ d with inCharge := .empty }, d.inCharge.entries.map (·.2))

/-- Forgets all markets. -/
def clear (d : Desk) : Desk :=
  { d with
    slots := .empty
    metrics := d.slots.keys.foldl (fun ms m => ms.removeMarket m) d.metrics }

/-! ### Workers -/

/-- Whether a worker can still get messages: the slot of its market has its queue. -/
def isSupplied (d : Desk) (i : Nat) (w : Worker) : Bool :=
  (d.slots.get? w.market).bind (·.queue) = some i

/-- Whether a worker has ended. -/
def hasEnded (d : Desk) (i : Nat) : Bool :=
  match d.worker? i with
  | some w => w.stage = .ended
  | none => true

/-- A worker takes its next message, if there is one; it ends when there will be none. A
refused message makes it pause for `backoff`. -/
def takeNext (d : Desk) (i : Nat) (w : Worker) (backoff clock : Nat) (now : Instant) :
    Option (Desk × WorkerAct) :=
  match w.take? with
  | some (m, w) =>
    let (keeper, verdict) := w.keeper.process d.policy m
    let w := { w with keeper := keeper }
    match verdict with
    | .stale =>
      some ((d.setWorker i w).record (some w.market) .diff .rejected none now, .took m verdict)
    | .refused _ =>
      some (d.setWorker i { w with stage := .backingOff (clock + backoff) }, .took m verdict)
    | _ => some (d.setWorker i w, .took m verdict)
  | none =>
    if d.isSupplied i w then none
    else some (d.setWorker i { w with stage := .ended }, .ended)

/-- **A worker does what it does next,** if there is anything. -/
def work (d : Desk) (i : Nat) (backoff clock : Nat) (now : Instant) : Option (Desk × WorkerAct) :=
  match d.worker? i with
  | none => none
  | some w =>
    match w.stage with
    | .ended => none
    | .backingOff due =>
      if due ≤ clock then some (d.setWorker i { w with stage := .running }, .resumed) else none
    | .running =>
      if w.isCancelled then some (d.setWorker i { w with stage := .ended }, .ended)
      else d.takeNext i w backoff clock now

/-- A worker that pauses sees that it was cancelled, and ends. -/
def workerQuits (d : Desk) (i : Nat) : Option Desk :=
  match d.worker? i with
  | none => none
  | some w =>
    match w.stage with
    | .backingOff _ =>
      if w.isCancelled then some (d.setWorker i { w with stage := .ended }) else none
    | _ => none

/-! ### Looking at the desk -/

/-- The phase of a market. -/
def phase (d : Desk) (m : MarketId) : Phase :=
  match d.slots.get? m with
  | some s => s.phase
  | none => .unregistered

/-- The book of an active market. -/
def book? (d : Desk) (m : MarketId) : Option Book :=
  match d.slot? m with
  | some (.active i) => (d.worker? i).map fun w => w.keeper.book
  | _ => none

/-- The number of diffs set aside for a market. -/
def pendingSize (d : Desk) (m : MarketId) : Nat :=
  match d.slots.get? m with
  | some s => s.pending.size
  | none => 0

/-- The active markets with their workers, in the order of the markets. -/
def activeMarkets (d : Desk) : List (MarketId × Nat) :=
  (d.slots.entries.filterMap fun (m, s) =>
    match s.view with
    | .active i => some (m, i)
    | _ => none).mergeSort fun a b => (compare a.1 b.1).isLE

end Desk

end LiveBook
