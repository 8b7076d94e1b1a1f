import LiveBook.Tracker.Basic

/-!
# The tasks of a run

What each task of a run does next, from one place where it waits to the following one.

* A listener listens to a stream until that ends, and then begins anew, unless it has
  ended well or there is no hope.
* A router brings the events of a stream to the desk, one at a time; those of snapshots and
  trades begin once all first books are there.
* The startup fetches the first books of the configured markets, one after the other, and
  then raises the ready signal. A book that cannot be had is asked for again after a
  pause.
* The refresh asks for prices of last trades, and never without a pause in between.

Each is cancelled with its run, at the places where it waits; only a startup that waits for
the lock is not.
-/

namespace LiveBook.Tracker

/-! ### Listeners -/

/-- Changes the stage of a listener. -/
def setListener (t : Tracker) (r : Nat) (run : Run) (l : Listener) (stage : ListenerStage) :
    Tracker :=
  t.setRun r (run.setListener l stage)

/-- A listener does what it does next. -/
def listenerProceeds (t : Tracker) (r : Nat) (l : Listener) : Outcome := do
  let run ← t.run? r
  match run.listener l with
  | .starting => some (t.setListener r run l .listening, [.listened r l])
  | .backingOff due =>
    if due ≤ t.clock then some (t.setListener r run l .starting, []) else none
  | _ => none

/-- A listener sees that its run was cancelled. -/
def listenerQuits (t : Tracker) (r : Nat) (l : Listener) : Outcome := do
  let run ← t.run? r
  if run.isCancelled ∧ run.listener l ≠ .ended then some (t.setListener r run l .ended, [])
  else none

/-- What a listener does when it was hung up on. -/
def afterHangUp (t : Tracker) : Option SourceError → ListenerStage
  | none => .ended
  | some e => if e.isFatal then .ended else .backingOff (t.clock + t.config.listenerBackoff)

/-- The source ends what a listener listens to, with an error or without. -/
def hangUp (t : Tracker) (r : Nat) (l : Listener) (error? : Option SourceError) : Outcome := do
  let run ← t.run? r
  if run.listener l = .listening then
    some (t.setListener r run l (t.afterHangUp error?), [.hungUp r l error?])
  else none

/-- An event comes in where a stream is listened to. -/
def receive (t : Tracker) (r : Nat) (e : Event) : Outcome := do
  let run ← t.run? r
  if run.listener (.stream e.stream) = .listening ∧ run.routers.get e.stream ≠ .ended then
    some (t.setRun r { run with inbox := run.inbox.update e.stream fun es => es ++ [e] }, [])
  else none

/-! ### Routers -/

/-- A router takes the next event to the desk. It ends when there is none and nobody
listens any more. -/
def routeNext (t : Tracker) (r : Nat) (run : Run) (s : EventStream) : Outcome :=
  match run.inbox.get s with
  | e :: rest =>
    let (desk, outcome) := t.desk.route e t.now
    some ({ t.setRun r { run with inbox := run.inbox.update s fun _ => rest } with desk := desk },
      [.routed r e outcome])
  | [] =>
    if run.listener (.stream s) = .ended then some (t.setRun r (run.setRouter s .ended), [])
    else none

/-- A router does what it does next. -/
def routerProceeds (t : Tracker) (r : Nat) (s : EventStream) : Outcome := do
  let run ← t.run? r
  match run.routers.get s with
  | .awaitingReady =>
    if t.ready.raised then some (t.setRun r (run.setRouter s .routing), []) else none
  | .routing => t.routeNext r run s
  | .ended => none

/-- A router sees that its run was cancelled. -/
def routerQuits (t : Tracker) (r : Nat) (s : EventStream) : Outcome := do
  let run ← t.run? r
  if run.isCancelled ∧ run.routers.get s ≠ .ended then
    some (t.setRun r (run.setRouter s .ended), [])
  else none

/-! ### Startup -/

/-- Changes the stage of the startup. -/
def setStartup (t : Tracker) (r : Nat) (run : Run) (stage : StartupStage) : Tracker :=
  t.setRun r { run with startup := stage }

/-- The startup pauses before it asks for the same book again. -/
def retryBook (t : Tracker) (r : Nat) (run : Run) (m : MarketId) (rest : List MarketId) :
    Tracker :=
  t.setStartup r run (.backingOff m rest (t.clock + t.config.workerBackoff))

/-- The startup goes on after a market was activated: it pauses, or all first books are
there. -/
def afterActivation (t : Tracker) (r : Nat) (run : Run) (rest : List MarketId) : Tracker :=
  if rest.isEmpty then { t.setStartup r run .ended with ready := t.ready.raise }
  else t.setStartup r run (.pausing rest (t.clock + t.config.initDelay))

/-- The startup does what it does next. -/
def startupProceeds (t : Tracker) (r : Nat) : Outcome := do
  let run ← t.run? r
  match run.startup with
  | .next [] => some ({ t.setStartup r run .ended with ready := t.ready.raise }, [])
  | .next (m :: rest) =>
    some (t.setStartup r run (.fetching m rest), [.called (.startup r) (.book m)])
  | .locking m rest book =>
    if t.holdsLock (.startup r) then
      match t.desk.activate m book r run.isCancelled t.config.recentDiffs with
      | .ok desk => some (({ t with desk := desk }.afterActivation r run rest).unlock, [])
      | .error e => some ((t.retryBook r run m rest).unlock, [.failed (.startup r) e])
    else none
  | .backingOff m rest due =>
    if due ≤ t.clock then some (t.setStartup r run (.next (m :: rest)), []) else none
  | .pausing rest due =>
    if due ≤ t.clock then some (t.setStartup r run (.next rest), []) else none
  | _ => none

/-- The startup sees that its run was cancelled. -/
def startupQuits (t : Tracker) (r : Nat) : Outcome := do
  let run ← t.run? r
  if run.isCancelled then
    match run.startup with
    | .next [] | .locking .. | .ended => none
    | _ => some (t.setStartup r run .ended, [])
  else none

/-- The startup gets the book that it asked for, or an error. -/
def startupHears (t : Tracker) (r : Nat) : SourceAnswer → Outcome
  | .book result => do
    let run ← t.run? r
    match run.startup, result with
    | .fetching m rest, .ok book =>
      some ((t.setStartup r run (.locking m rest book)).queueForLock (.startup r), [])
    | .fetching m rest, .error e =>
      some (t.retryBook r run m rest, [.failed (.startup r) (.source e)])
    | _, _ => none
  | _ => none

/-! ### Refresh -/

/-- Changes the stage of the refresh. -/
def setRefresh (t : Tracker) (r : Nat) (run : Run) (stage : RefreshStage) : Tracker :=
  t.setRun r { run with refresh := stage }

/-- The nanoseconds in so many milliseconds. -/
def ofMillis (ms : Nat) : Nat := ms * 1000000

/-- The markets whose prices are to be asked for. -/
def dueMarkets (t : Tracker) : List (MarketId × Nat) :=
  t.desk.dueMarkets t.now (ofMillis t.config.tradeRefresh.staleAfter)
    (ofMillis t.config.tradeRefresh.minInterval)

/-- The refresh does what it does next. -/
def refreshProceeds (t : Tracker) (r : Nat) : Outcome := do
  let run ← t.run? r
  match run.refresh with
  | .awaitingReady =>
    if t.ready.raised then some (t.setRefresh r run .checking, []) else none
  | .checking =>
    match t.dueMarkets with
    | [] => some (t.setRefresh r run (.sleeping (t.clock + t.config.tradeRefresh.pollInterval)), [])
    | due =>
      some (t.setRefresh r run (.asking due), [.called (.refresh r) (.prices (due.map (·.1)))])
  | .sleeping due => if due ≤ t.clock then some (t.setRefresh r run .checking, []) else none
  | _ => none

/-- The refresh sees that its run was cancelled. -/
def refreshQuits (t : Tracker) (r : Nat) : Outcome := do
  let run ← t.run? r
  if run.isCancelled ∧ run.refresh ≠ .ended then some (t.setRefresh r run .ended, []) else none

/-- The refresh gets the prices that it asked for, or an error. -/
def refreshHears (t : Tracker) (r : Nat) : SourceAnswer → Outcome
  | .prices result => do
    let run ← t.run? r
    match run.refresh, result with
    | .asking due, .ok prices =>
      let t := { t with desk := t.desk.refresh due prices t.now }
      some (t.setRefresh r run (.sleeping (t.clock + t.config.tradeRefresh.pollInterval)), [])
    | .asking _, .error _ =>
      some (t.setRefresh r run (.sleeping (t.clock + t.config.tradeRefresh.errorBackoff)), [])
    | _, _ => none
  | _ => none

/-! ### Workers -/

/-- A worker does what it does next. -/
def workerProceeds (t : Tracker) (i : Nat) : Outcome := do
  let (desk, act) ← t.desk.work i t.config.workerBackoff t.clock t.now
  some ({ t with desk := desk }, [.worked i act])

/-- A worker that pauses sees that it was cancelled. -/
def workerQuits (t : Tracker) (i : Nat) : Outcome := do
  let desk ← t.desk.workerQuits i
  some ({ t with desk := desk }, [.worked i .ended])

end LiveBook.Tracker
