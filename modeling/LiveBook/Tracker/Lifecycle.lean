import LiveBook.Tracker.Basic

/-!
# Adding, removing and stopping

What each request does next, from one place where it waits to the following one.

* **Adding** a market waits until all first books are there. Then the market is
  registered, subscribed to, its book is fetched, and it is activated. If anything fails
  on the way, or the run is cancelled, the market is forgotten, and unsubscribed unless
  the subscription was refused.
* **Removing** an active market takes it away from its worker, waits until that has
  ended, and unsubscribes the market. It is forgotten whatever the source says.
* **Stopping** cancels the run, waits until all its tasks have ended, and then, under the
  lock, dismisses all workers and forgets all markets.
-/

namespace LiveBook.Tracker

/-- Makes a request. -/
def ask (t : Tracker) (q : Request) : Tracker × List TrackerEffect :=
  let i := t.requests.length
  let waits (t : Tracker) (stage : RequestStage) : Tracker :=
    { t with requests := t.requests ++ [stage] }
  let returns (reply : Reply) : Tracker × List TrackerEffect :=
    (waits t (.answered reply), [.answered i reply])
  match q with
  | .add m =>
    match t.run with
    | none => returns (.flag false)
    | some r => (waits t (.add m r .awaitingReady), [])
  | .remove m => ((waits t (.remove m .locking)).queueForLock (.request i), [])
  | .stop =>
    match t.run with
    | none => returns .done
    | some r => (waits ({ t with run := none }.cancelRun r) (.stop (.awaitingTasks r)), [])
  | .awaitReady => (waits t .awaitReady, [])

/-- Answers a request that has the lock, and gives the lock back. -/
def conclude (t : Tracker) (i : Nat) (reply : Reply) : Outcome :=
  let (t, es) := t.answer i reply
  some (t.unlock, es)

/-- Asks something of the source for a request. -/
def callFor (t : Tracker) (i : Nat) (stage : RequestStage) (call : SourceCall) : Outcome :=
  some (t.setRequest i stage, [.called (.request i) call])

/-! ### Adding -/

/-- Forgets a market whose adding has failed, and unsubscribes it. -/
def rollBack (t : Tracker) (i : Nat) (m : MarketId) (r : Nat) : Outcome :=
  { t with desk := t.desk.discard m }.callFor i (.add m r .rollingBack) (.unsubscribe m)

/-- The first book of a market that is being added could not be had, or not be used. -/
def failAdd (t : Tracker) (i : Nat) (m : MarketId) (r : Nat) (cause : TrackerError) : Outcome :=
  (t.rollBack i m r).map fun (t, es) => (t, .failed (.request i) cause :: es)

/-- Registers a market that is being added and subscribes to it. -/
def beginAdd (t : Tracker) (i : Nat) (m : MarketId) (r : Nat) : Outcome :=
  if t.isCancelled r then t.conclude i (.flag false)
  else if (t.desk.slot? m).isSome then t.conclude i (.flag false)
  else
    { t with desk := t.desk.register m t.config.pendingCapacity }.callFor i
      (.add m r .subscribing) (.subscribe m)

/-- The adding of a market does what it does next. -/
def addProceeds (t : Tracker) (i : Nat) (m : MarketId) (r : Nat) : AddStage → Outcome
  | .awaitingReady =>
    if t.ready.raised then
      some ((t.setRequest i (.add m r .locking)).queueForLock (.request i), [])
    else none
  | .locking => if t.holdsLock (.request i) then t.beginAdd i m r else none
  | .subscribed => t.callFor i (.add m r .fetching) (.book m)
  | _ => none

/-- The adding of a market sees that its run was cancelled. -/
def addQuits (t : Tracker) (i : Nat) (m : MarketId) (r : Nat) : AddStage → Outcome
  | .awaitingReady => some (t.answer i (.flag false))
  | .subscribing | .subscribed | .fetching => t.rollBack i m r
  | _ => none

/-- The adding of a market gets an answer of the source. -/
def addHears (t : Tracker) (i : Nat) (m : MarketId) (r : Nat) (stage : AddStage)
    (a : SourceAnswer) : Outcome :=
  match stage, a with
  | .subscribing, .flag true => some (t.setRequest i (.add m r .subscribed), [])
  | .subscribing, .flag false =>
    { t with desk := t.desk.discard m }.conclude i (.flag false)
  | .fetching, .book (.ok book) =>
    match t.desk.activate m book r (t.isCancelled r) t.config.recentDiffs with
    | .ok desk => { t with desk := desk }.conclude i (.flag true)
    | .error e => t.failAdd i m r e
  | .fetching, .book (.error e) => t.failAdd i m r (.source e)
  | .rollingBack, .flag _ => t.conclude i (.flag false)
  | _, _ => none

/-! ### Removing -/

/-- Takes a market away from its worker. -/
def beginRemove (t : Tracker) (i : Nat) (m : MarketId) : Outcome :=
  match t.desk.slot? m with
  | some (.active _) =>
    match t.desk.retire m with
    | (desk, some w) =>
      some ({ t with desk := desk.cancel w }.setRequest i (.remove m (.awaitingWorker w)), [])
    | (desk, none) => { t with desk := desk }.callFor i (.remove m .unsubscribing) (.unsubscribe m)
  | _ => t.conclude i (.flag false)

/-- The removal of a market does what it does next. -/
def removeProceeds (t : Tracker) (i : Nat) (m : MarketId) : RemoveStage → Outcome
  | .locking => if t.holdsLock (.request i) then t.beginRemove i m else none
  | .awaitingWorker w =>
    if t.desk.hasEnded w then t.callFor i (.remove m .unsubscribing) (.unsubscribe m) else none
  | .unsubscribing => none

/-- The removal of a market gets an answer of the source. -/
def removeHears (t : Tracker) (i : Nat) (m : MarketId) (stage : RemoveStage)
    (a : SourceAnswer) : Outcome :=
  match stage, a with
  | .unsubscribing, .flag _ => { t with desk := t.desk.discard m }.conclude i (.flag true)
  | _, _ => none

/-! ### Stopping -/

/-- Forgets all markets and lowers the ready signal. -/
def finishStop (t : Tracker) (i : Nat) : Outcome :=
  { t with desk := t.desk.clear, ready := t.ready.clear }.conclude i .done

/-- Waits for the first of some workers to end, or finishes. -/
def drain (t : Tracker) (i : Nat) : List Nat → Outcome
  | [] => t.finishStop i
  | w :: ws =>
    some ({ t with desk := t.desk.cancel w }.setRequest i (.stop (.draining (w :: ws))), [])

/-- A stop does what it does next. -/
def stopProceeds (t : Tracker) (i : Nat) : StopStage → Outcome
  | .awaitingTasks r =>
    match t.run? r with
    | some run =>
      if run.hasEnded then
        some ((t.setRequest i (.stop .locking)).queueForLock (.request i), [])
      else none
    | none => none
  | .locking =>
    if t.holdsLock (.request i) then
      let (desk, workers) := t.desk.dismiss
      { t with desk := desk }.drain i workers
    else none
  | .draining (w :: ws) => if t.desk.hasEnded w then t.drain i ws else none
  | .draining [] => none

/-! ### Any request -/

/-- A request does what it does next. -/
def requestProceeds (t : Tracker) (i : Nat) : Outcome := do
  match ← t.request? i with
  | .add m r stage => t.addProceeds i m r stage
  | .remove m stage => t.removeProceeds i m stage
  | .stop stage => t.stopProceeds i stage
  | .awaitReady => if t.ready.raised then some (t.answer i .done) else none
  | .answered _ => none

/-- A request sees that its run was cancelled. -/
def requestQuits (t : Tracker) (i : Nat) : Outcome := do
  match ← t.request? i with
  | .add m r stage => if t.isCancelled r then t.addQuits i m r stage else none
  | _ => none

/-- A request gets an answer of the source. -/
def requestHears (t : Tracker) (i : Nat) (a : SourceAnswer) : Outcome := do
  match ← t.request? i with
  | .add m r stage => t.addHears i m r stage a
  | .remove m stage => t.removeHears i m stage a
  | _ => none

end LiveBook.Tracker
