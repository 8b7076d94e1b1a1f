import LiveBook.Tracker.Desk

/-!
# Bringing events to the desk

Where an event goes depends on the slot of its market. A diff is set aside while its
market waits for a book. If there is a book, diffs that are already stale are dropped
right here, and all others go into the queue of the worker, which judges again. Snapshots
go into the queue as well; trades go straight to the book. Whatever happens to an event is
recorded.

`LiveBook.Desk.route` brings one event to the desk.
-/

namespace LiveBook

/-- What became of an event. -/
inductive RouteOutcome where
  /-- It went into the queue or, if a trade, to the book. -/
  | delivered
  /-- It was set aside, and perhaps took the place of another. -/
  | buffered (evicted : Option Diff)
  /-- It is older than the book. -/
  | stale
  /-- The market cannot take it. -/
  | rejected
  /-- The market is not tracked. -/
  | unknown
deriving DecidableEq

namespace Desk

/-- Puts a message into the queue of a worker, unless that has ended. -/
def deliver (d : Desk) (i : Nat) (w : Worker) (m : BookMessage) (market : MarketId)
    (stream : EventStream) (now : Instant) : Desk × RouteOutcome :=
  if w.stage = .ended then (d.record (some market) stream .rejected none now, .rejected)
  else
    ((d.setWorker i { w with queue := w.queue ++ [m] }).record (some market) stream .processed
      (some elapsed) now, .delivered)

/-- Brings a diff to its market. -/
def routeDiff (d : Desk) (e : Diff) (now : Instant) : Desk × RouteOutcome :=
  match d.slot? e.market with
  | none | some .removed => (d.record none .diff .unknown none now, .unknown)
  | some (.initializing pending) =>
    let (pending, evicted) := pending.push e
    let d := d.setPending e.market pending
    let d := if evicted.isSome then d.record none .diff .rejected none now else d
    (d.record none .diff .queued none now, .buffered evicted)
  | some (.active i) =>
    match d.worker? i with
    | none => (d.record none .diff .rejected none now, .rejected)
    | some w =>
      if w.keeper.book.isStale d.policy e.sequence then
        (d.record (some e.market) .diff .rejected none now, .stale)
      else d.deliver i w (.diff e) e.market .diff now

/-- Brings a snapshot to its market. -/
def routeSnapshot (d : Desk) (e : Snapshot) (now : Instant) : Desk × RouteOutcome :=
  match d.slot? e.market with
  | some (.active i) =>
    match d.worker? i with
    | none => (d.record none .snapshot .rejected none now, .rejected)
    | some w => d.deliver i w (.snapshot e) e.market .snapshot now
  | _ => (d.record none .snapshot .rejected none now, .rejected)

/-- Brings a trade to its market. -/
def routeTrade (d : Desk) (e : Trade) (now : Instant) : Desk × RouteOutcome :=
  match d.slot? e.market with
  | some (.active i) =>
    match d.worker? i with
    | none => (d.record none .trade .rejected none now, .rejected)
    | some w =>
      let keeper := { w.keeper with book := w.keeper.book.applyTrade e.price now }
      ((d.setWorker i { w with keeper := keeper }).record (some e.market) .trade .processed
        (some elapsed) now, .delivered)
  | _ => (d.record none .trade .rejected none now, .rejected)

/-- **Brings an event to its market.** -/
def route (d : Desk) (e : Event) (now : Instant) : Desk × RouteOutcome :=
  match e with
  | .diff e => d.routeDiff e now
  | .snapshot e => d.routeSnapshot e now
  | .trade e => d.routeTrade e now

/-! ### Prices that were asked for -/

/-- Whether the price of the last trade of a worker's book should be asked for. -/
def isDue (d : Desk) (i : Nat) (now : Instant) (staleAfter minInterval : Nat) : Bool :=
  match d.worker? i with
  | some w => w.keeper.book.needsRefresh now staleAfter minInterval
  | none => false

/-- The active markets whose price of the last trade should be asked for. -/
def dueMarkets (d : Desk) (now : Instant) (staleAfter minInterval : Nat) : List (MarketId × Nat) :=
  d.activeMarkets.filter fun p => d.isDue p.2 now staleAfter minInterval

/-- Writes the price that was asked for into a book, or that there was none. -/
def refreshBook (b : Book) (price? : Option Decimal) (now : Instant) : Book :=
  match price? with
  | some p => b.applyRefresh p now
  | none => b.touchRefresh now

/-- Writes prices into the books for which they were asked. -/
def refresh (d : Desk) (asked : List (MarketId × Nat)) (prices : Table MarketId Decimal)
    (now : Instant) : Desk :=
  asked.foldl (fun d (m, i) =>
    match d.worker? i with
    | some w =>
      let book := refreshBook w.keeper.book (prices.get? m) now
      d.setWorker i { w with keeper := { w.keeper with book := book } }
    | none => d) d

end Desk

end LiveBook
