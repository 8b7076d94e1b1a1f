import LiveBook.Market
import LiveBook.Tracker.Run

/-!
# What is asked of a tracker

While a tracker runs, markets can be added and removed. Adding and removing, activating
the first books, and the second half of stopping exclude each other: they wait for one
lock, which they get in the order in which they ask for it.

Here are the stages of such requests. A stage is a place where a request waits.
-/

namespace LiveBook

/-- What can be asked of a tracker. -/
inductive Request where
  | add (market : MarketId)
  | remove (market : MarketId)
  | stop
  | awaitReady
deriving DecidableEq, Repr, Inhabited

/-- How far the adding of a market has come. -/
inductive AddStage where
  | awaitingReady
  | locking
  | subscribing
  /-- The subscription was accepted. -/
  | subscribed
  | fetching
  /-- It has failed, and the market is being unsubscribed. -/
  | rollingBack
deriving DecidableEq, Repr, Inhabited

/-- How far the removal of a market has come. -/
inductive RemoveStage where
  | locking
  /-- The worker was cancelled and has still to end. -/
  | awaitingWorker (worker : Nat)
  | unsubscribing
deriving DecidableEq, Repr, Inhabited

/-- How far a stop has come. -/
inductive StopStage where
  | awaitingTasks (run : Nat)
  | locking
  /-- The first of these workers was cancelled and has still to end. -/
  | draining (workers : List Nat)
deriving DecidableEq, Repr, Inhabited

/-- The answer to a request. -/
inductive Reply where
  | flag (b : Bool)
  | done
deriving DecidableEq, Repr, Inhabited

/-- How far a request has come. -/
inductive RequestStage where
  /-- A market is being added for a run of the tracker. -/
  | add (market : MarketId) (run : Nat) (stage : AddStage)
  | remove (market : MarketId) (stage : RemoveStage)
  | stop (stage : StopStage)
  | awaitReady
  | answered (reply : Reply)
deriving DecidableEq, Repr, Inhabited

/-- Whatever acts in a tracker. Runs, workers and requests are known by numbers. -/
inductive Actor where
  | listener (run : Nat) (l : Listener)
  | router (run : Nat) (s : EventStream)
  | startup (run : Nat)
  | refresh (run : Nat)
  | worker (i : Nat)
  | request (i : Nat)
deriving DecidableEq, Repr, Inhabited

end LiveBook
