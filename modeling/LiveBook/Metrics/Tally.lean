import LiveBook.Book.Basic
import LiveBook.Event.PerStream
import LiveBook.Metrics.Latency

/-!
# Counting what happens to messages

Each message that comes in is recorded with what happened to it. The records are
counted twice: in the totals of the whole tracker, and in the tally of the market that
the record names. The two tell the outcomes apart differently: the totals count every
snapshot or trade that was not processed as rejected, whatever the reason, while the
tally of a market leaves some outcomes uncounted.

* `LiveBook.Outcome`, `LiveBook.MessageRecord` – what is recorded;
* `LiveBook.Totals.add`, `LiveBook.MarketTally.add` – how it is counted.
-/

namespace LiveBook

/-- What happened to a message. -/
inductive Outcome where
  /-- It was applied, or put into the queue of its market. -/
  | processed
  /-- It was too old, or its market could not take it. -/
  | rejected
  /-- It was set aside until its market has a book. -/
  | queued
  /-- Its market is not tracked. -/
  | unknown
deriving DecidableEq, Repr, Inhabited

/-- The name of an outcome. -/
def Outcome.name : Outcome → String
  | .processed => "processed"
  | .rejected => "rejected"
  | .queued => "queued"
  | .unknown => "unknown"

/-- All outcomes. -/
def Outcome.all : List Outcome := [.processed, .rejected, .queued, .unknown]

/-- A message and what happened to it. -/
structure MessageRecord where
  /-- The market it is counted for, if any. -/
  market : Option MarketId
  stream : EventStream
  outcome : Outcome
  /-- How long it took, in milliseconds, if that was measured. -/
  latency : Option Float
  /-- When it is recorded. -/
  time : Instant

/-- Adds the latency of a record to the statistics of its stream. -/
def MessageRecord.measure (r : MessageRecord) (p : PerStream LatencyStats) :
    PerStream LatencyStats :=
  match r.latency with
  | some x => p.update r.stream fun s => s.record x
  | none => p

/-! ### The totals -/

/-- The counts of the whole tracker. -/
structure Totals where
  diffsProcessed : Nat
  diffsRejected : Nat
  diffsQueued : Nat
  diffsUnknown : Nat
  snapshotsProcessed : Nat
  snapshotsRejected : Nat
  tradesProcessed : Nat
  tradesRejected : Nat
  latency : PerStream LatencyStats

namespace Totals

/-- Nothing counted yet. -/
def zero (stats : LatencyStats) : Totals := ⟨0, 0, 0, 0, 0, 0, 0, 0, .const stats⟩

/-- Counts an outcome. -/
def count (t : Totals) : EventStream → Outcome → Totals
  | .diff, .processed => { t with diffsProcessed := t.diffsProcessed + 1 }
  | .diff, .rejected => { t with diffsRejected := t.diffsRejected + 1 }
  | .diff, .queued => { t with diffsQueued := t.diffsQueued + 1 }
  | .diff, .unknown => { t with diffsUnknown := t.diffsUnknown + 1 }
  | .snapshot, .processed => { t with snapshotsProcessed := t.snapshotsProcessed + 1 }
  | .snapshot, _ => { t with snapshotsRejected := t.snapshotsRejected + 1 }
  | .trade, .processed => { t with tradesProcessed := t.tradesProcessed + 1 }
  | .trade, _ => { t with tradesRejected := t.tradesRejected + 1 }

/-- Counts a record. -/
def add (t : Totals) (r : MessageRecord) : Totals :=
  let t := t.count r.stream r.outcome
  { t with latency := r.measure t.latency }

end Totals

/-! ### The tally of a market -/

/-- The counts of one market. -/
structure MarketTally where
  diffsProcessed : Nat
  diffsRejected : Nat
  snapshotsProcessed : Nat
  tradesProcessed : Nat
  tradesRejected : Nat
  /-- When a message of a stream was last processed. -/
  lastSeen : PerStream (Option Instant)
  /-- When counting began. -/
  since : Instant
  latency : PerStream LatencyStats

namespace MarketTally

/-- Nothing counted yet. -/
def zero (stats : LatencyStats) (since : Instant) : MarketTally :=
  ⟨0, 0, 0, 0, 0, .const none, since, .const stats⟩

/-- Counts an outcome. -/
def count (t : MarketTally) : EventStream → Outcome → MarketTally
  | .diff, .processed => { t with diffsProcessed := t.diffsProcessed + 1 }
  | .diff, .rejected => { t with diffsRejected := t.diffsRejected + 1 }
  | .snapshot, .processed => { t with snapshotsProcessed := t.snapshotsProcessed + 1 }
  | .trade, .processed => { t with tradesProcessed := t.tradesProcessed + 1 }
  | .trade, .rejected => { t with tradesRejected := t.tradesRejected + 1 }
  | _, _ => t

/-- Counts a record. -/
def add (t : MarketTally) (r : MessageRecord) : MarketTally :=
  let t := t.count r.stream r.outcome
  { t with
    lastSeen :=
      if r.outcome = .processed then t.lastSeen.update r.stream fun _ => some r.time
      else t.lastSeen
    latency := r.measure t.latency }

end MarketTally

end LiveBook
