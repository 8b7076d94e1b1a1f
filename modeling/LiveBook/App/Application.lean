import LiveBook.App.Report
import LiveBook.Tracker.Step

/-!
# The application

The application starts a tracker over a recorded feed. Once the tracker is ready, it
reports from time to time and carries out a schedule of markets to add and to remove. It
ends a while after the end of the feed, or when a shutdown is asked for. No scheduled
action is begun then any more, but one that was begun is awaited. After a last report the
tracker is stopped.

* `LiveBook.Application`, `LiveBook.Application.start` – the application and its start;
* `LiveBook.Application.step` – everything that can happen to it.
-/

namespace LiveBook

/-- How far the application has come. -/
inductive AppStage where
  | awaitingReady
  /-- It reports from time to time. -/
  | reporting (due : Nat)
  /-- The feed has ended, and events may still be at work. -/
  | draining (due : Nat)
  /-- A scheduled action may still be at work. -/
  | awaitingSchedule
  /-- The tracker is being stopped. -/
  | stopping (request : Nat)
  | ended
deriving DecidableEq, Repr, Inhabited

/-- How far the schedule was carried out. -/
inductive ScheduleStage where
  | idle
  /-- The first of these entries comes next. -/
  | waiting (entries : List ScheduledAction)
  /-- An action was begun and is awaited. -/
  | acting (entry : ScheduledAction) (rest : List ScheduledAction) (request : Nat)
  | ended
deriving DecidableEq, Repr, Inhabited

/-- What is left of a run of the application. -/
structure RunSummary where
  views : List (MarketId × BookView)
  metrics : Metrics
  /-- The number of scheduled actions that succeeded. -/
  completed : Nat

/-- **The application.** -/
structure Application where
  config : AppConfig
  tracker : Tracker
  stage : AppStage
  schedule : ScheduleStage
  /-- When the tracker was ready. -/
  readySince : Nat
  /-- Whether no further scheduled action is to be begun. -/
  isCut : Bool
  completed : Nat
  /-- Whether a shutdown was asked for. -/
  isInterrupted : Bool
  /-- Whether the feed has ended. -/
  isReplayed : Bool
  summary? : Option RunSummary

namespace Application

/-- What can happen to the application. -/
inductive Label where
  | tracker (l : Tracker.Label)
  /-- A shutdown is asked for. -/
  | shutdown
  /-- The feed ends. -/
  | replayed
  /-- The application sees that the tracker is ready. -/
  | ready
  /-- It sees that a shutdown was asked for. -/
  | interrupt
  /-- It is time for a report. -/
  | report
  /-- The application sees that the feed has ended. -/
  | drain
  /-- The wait after the end of the feed is over. -/
  | drained
  /-- The application sees that the schedule has ended. -/
  | settled
  /-- It sees that the tracker was stopped. -/
  | stopped
  /-- The schedule goes on. -/
  | act
  /-- The schedule sees that no further action is to be begun. -/
  | cut

/-- What others see of the application. -/
inductive Effect where
  | tracker (e : TrackerEffect)
  | reported (r : Report)
  /-- A scheduled action was begun. -/
  | begun (entry : ScheduledAction)

/-- What a step leads to, if it is possible. -/
abbrev Outcome := Option (Application × List Effect)

/-- The application with its tracker just started. -/
def start (config : AppConfig) (t : Tracker) : Except TrackerError Application :=
  t.start.map fun t =>
    { config := config, tracker := t, stage := .awaitingReady, schedule := .idle,
      readySince := 0, isCut := false, completed := 0, isInterrupted := false,
      isReplayed := false, summary? := none }

/-- The reports on all books and on the metrics. -/
def reports (a : Application) : List Effect :=
  let views := a.tracker.views
  views.map (fun p => .reported (.book p.2 a.config.reportDepth)) ++
    [.reported (.metrics views.length a.tracker.desk.metrics.totals)]

/-- Asks something of the tracker. -/
def ask (a : Application) (q : Request) : Application × List Effect :=
  let (t, es) := a.tracker.ask q
  ({ a with tracker := t }, es.map .tracker)

/-- Reports for the last time and stops the tracker. -/
def close (a : Application) (completed : Nat) : Application × List Effect :=
  let i := a.tracker.requests.length
  let summary : RunSummary := ⟨a.tracker.views, a.tracker.desk.metrics, completed⟩
  let (b, es) := a.ask .stop
  ({ b with stage := .stopping i, summary? := some summary }, a.reports ++ es)

/-- Lets the schedule begin no further action. -/
def cutSchedule (a : Application) : Application :=
  { a with stage := .awaitingSchedule, isCut := true }

/-- What is asked of the tracker for an entry of the schedule. -/
def requestOf (e : ScheduledAction) : Request :=
  match e.action with
  | .add => .add e.market
  | .remove => .remove e.market

/-- The schedule goes on: it begins the next action, or learns how the last one went. -/
def actNext (a : Application) : Outcome :=
  match a.schedule with
  | .waiting [] => some ({ a with schedule := .ended }, [])
  | .waiting (e :: rest) =>
    if a.readySince + e.due ≤ a.tracker.clock then
      let i := a.tracker.requests.length
      let (b, es) := a.ask (requestOf e)
      some ({ b with schedule := .acting e rest i }, .begun e :: es)
    else none
  | .acting e rest i =>
    match a.tracker.request? i with
    | some (.answered (.flag applied)) =>
      some ({ a with schedule := .waiting rest, completed := a.completed + applied.toNat },
        [.reported (.action e applied)])
    | _ => none
  | _ => none

/-- The application sees that a shutdown was asked for. -/
def seeInterrupt (a : Application) : Outcome :=
  if a.isInterrupted then
    match a.stage with
    | .awaitingReady => some (a.close 0)
    | .reporting _ => some (a.cutSchedule, [])
    | _ => none
  else none

/-- **What happens to the application,** where it can. -/
def step (a : Application) : Label → Outcome
  | .tracker l =>
    (a.tracker.step l).map fun (t, es) => ({ a with tracker := t }, es.map .tracker)
  | .shutdown => some ({ a with isInterrupted := true }, [])
  | .replayed => some ({ a with isReplayed := true }, [])
  | .ready =>
    if a.stage = .awaitingReady ∧ a.tracker.ready.raised then
      some ({ a with stage := .reporting (a.tracker.clock + a.config.reportInterval),
                     schedule := .waiting a.config.orderedSchedule,
                     readySince := a.tracker.clock }, [])
    else none
  | .interrupt => a.seeInterrupt
  | .report =>
    match a.stage with
    | .reporting due =>
      if due ≤ a.tracker.clock then
        some ({ a with stage := .reporting (due + a.config.reportInterval) }, a.reports)
      else none
    | _ => none
  | .drain =>
    match a.stage with
    | .reporting _ =>
      if a.isReplayed then
        some ({ a with stage := .draining (a.tracker.clock + a.config.replay.drain) }, [])
      else none
    | _ => none
  | .drained =>
    match a.stage with
    | .draining due => if due ≤ a.tracker.clock then some (a.cutSchedule, []) else none
    | _ => none
  | .settled =>
    if a.stage = .awaitingSchedule ∧ a.schedule = .ended then some (a.close a.completed)
    else none
  | .stopped =>
    match a.stage with
    | .stopping i =>
      match a.tracker.request? i with
      | some (.answered _) => some ({ a with stage := .ended }, [])
      | _ => none
    | _ => none
  | .act => a.actNext
  | .cut =>
    match a.schedule with
    | .waiting (_ :: _) => if a.isCut then some ({ a with schedule := .ended }, []) else none
    | _ => none

/-- Whether it has ended. -/
def hasEnded (a : Application) : Bool := a.stage = .ended

/-- The times at which something is due. -/
def dues (a : Application) : List Nat :=
  (match a.stage with
    | .reporting due | .draining due => [due]
    | _ => []) ++
  (match a.schedule with
    | .waiting (e :: _) => [a.readySince + e.due]
    | _ => [])

end Application

end LiveBook
