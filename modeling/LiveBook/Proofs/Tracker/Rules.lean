import LiveBook.Proofs.Desk.Staff
import LiveBook.Proofs.Tracker.Order

/-!
# The rules by which a tracker goes on

Everything that can happen to a tracker, as a list of rules. A request goes on by one of the
rules of `LiveBook.Tracker.Goes`, and whatever belongs to a run by one of those of
`LiveBook.Tracker.Tends`; what is left are starts and the making of requests.

* `LiveBook.Tracker.step_happens` – every step follows one of these rules
  (`LiveBook.Tracker.Happens`);
* `LiveBook.Tracker.Happens.run?`, `LiveBook.Tracker.Happens.request?_of_ne`,
  `LiveBook.Tracker.Happens.shown` – what all rules leave alone.

What is said of all steps in other modules is said of each rule.
-/

namespace LiveBook

/-- What an effect shows of the desk. -/
def TrackerEffect.act? : TrackerEffect → Option DeskAct
  | .routed _ e outcome => some (.routed e outcome)
  | .worked i act => some (.worked i act)
  | _ => none

/-- The request whose effect it is. -/
def TrackerEffect.request? : TrackerEffect → Option ℕ
  | .called (.request i) _ | .failed (.request i) _ | .answered i _ => some i
  | _ => none

/-- The request that goes on. -/
def Tracker.Label.request? : Tracker.Label → Option ℕ
  | .proceed (.request i) | .quit (.request i) | .hear (.request i) _ => some i
  | _ => none

/-- A request waits for the lock, and will go on once it has it. -/
def RequestStage.IsLocking : RequestStage → Prop
  | .add _ _ .locking | .remove _ .locking | .stop .locking => True
  | _ => False

theorem RequestStage.IsLocking.not_hasLock {s : RequestStage} (h : s.IsLocking) : ¬s.HasLock := by
  rcases s with ⟨m, r, - | - | - | - | - | -⟩ | ⟨m, - | w | -⟩ | (- | - | ws) | - | -
  all_goals first | exact id | exact absurd h id

/-- A startup waits for the lock. -/
def StartupStage.IsLocking : StartupStage → Prop
  | .locking _ _ _ => True
  | _ => False

/-! ### Runs and desks -/

/-- **A run has gone on**: it was not cancelled, and what has ended has ended for good. -/
structure Run.Later (run run' : Run) : Prop where
  cancelled : run'.isCancelled = run.isCancelled
  listener : ∀ l, run.listener l = .ended → run'.listener l = .ended
  router : ∀ s, run.routers.get s = .ended → run'.routers.get s = .ended
  startup : run.startup = .ended → run'.startup = .ended
  refresh : run.refresh = .ended → run'.refresh = .ended

namespace Run.Later

variable {run run' : Run}

theorem hasEnded (h : run.Later run') (hended : run.hasEnded = true) : run'.hasEnded = true := by
  simp only [Run.hasEnded, Bool.and_eq_true, List.all_eq_true, decide_eq_true_eq] at hended ⊢
  obtain ⟨⟨⟨hl, hs⟩, hstartup⟩, hrefresh⟩ := hended
  exact ⟨⟨⟨fun l hmem => h.listener l (hl l hmem), fun s hmem => h.router s (hs s hmem)⟩,
    h.startup hstartup⟩, h.refresh hrefresh⟩

theorem refl (run : Run) : run.Later run := ⟨rfl, fun _ => id, fun _ => id, id, id⟩

theorem startup_setListener (run : Run) (l : Listener) (stage : ListenerStage) :
    (run.setListener l stage).startup = run.startup := by
  cases l <;> rfl

theorem setListener (run : Run) {l : Listener} (stage : ListenerStage)
    (going : run.listener l ≠ .ended ∨ stage = .ended) : run.Later (run.setListener l stage) where
  cancelled := by cases l <;> rfl
  listener l' hended := by
    rw [listener_setListener]
    split
    next heq =>
      subst heq
      exact going.resolve_left (not_not.mpr hended)
    next => exact hended
  router s hended := by cases l <;> exact hended
  startup hended := (startup_setListener run l stage).trans hended
  refresh hended := by cases l <;> exact hended

theorem setRouter (run : Run) {s : EventStream} (stage : RouterStage)
    (going : run.routers.get s ≠ .ended ∨ stage = .ended) : run.Later (run.setRouter s stage) where
  cancelled := rfl
  listener l hended := by cases l <;> exact hended
  router s' hended := by
    by_cases heq : s = s'
    · subst heq
      simpa [Run.setRouter] using going.resolve_left (not_not.mpr hended)
    · simpa [Run.setRouter, heq] using hended
  startup hended := hended
  refresh hended := hended

theorem setInbox (run : Run) (inbox : PerStream (List Event)) :
    run.Later { run with inbox := inbox } where
  cancelled := rfl
  listener l hended := by cases l <;> exact hended
  router _ hended := hended
  startup hended := hended
  refresh hended := hended

theorem setStartup (run : Run) (stage : StartupStage) (going : run.startup ≠ .ended) :
    run.Later { run with startup := stage } where
  cancelled := rfl
  listener l hended := by cases l <;> exact hended
  router _ hended := hended
  startup hended := absurd hended going
  refresh hended := hended

theorem setRefresh (run : Run) (stage : RefreshStage) (going : run.refresh ≠ .ended) :
    run.Later { run with refresh := stage } where
  cancelled := rfl
  listener l hended := by cases l <;> exact hended
  router _ hended := hended
  startup hended := hended
  refresh hended := absurd hended going

end Run.Later

/-- **What is done at a desk without the lock**: events come, workers go on, and prices are
written into books. -/
inductive Desk.Minds (d : Desk) : DeskAct → Desk → Prop where
  | rest : Minds d .rested d
  | route (e : Event) (now : Instant) : Minds d (.routed e (d.route e now).2) (d.route e now).1
  | refresh (asked : List (MarketId × ℕ)) (prices : Table MarketId Decimal) (now : Instant) :
      Minds d .rested (d.refresh asked prices now)
  | work {i backoff clock : ℕ} {now : Instant} {d' : Desk} {act : WorkerAct}
      (h : d.work i backoff clock now = some (d', act)) : Minds d (.worked i act) d'
  | quit {i : ℕ} {d' : Desk} (h : d.workerQuits i = some d') : Minds d (.worked i .ended) d'

namespace Desk.Minds

variable {d d' : Desk} {x : DeskAct}

theorem does (h : d.Minds x d') : d.Does x d' := by
  cases h with
  | rest => exact .rest
  | route e now => exact .route e now
  | refresh asked prices now => exact .refresh asked prices now
  | work h => exact .work h
  | quit h => exact .quit h

/-- No market is registered. -/
theorem not_registers (h : d.Minds x d') (m : MarketId) (c : ℕ) : ¬x.Registers m c := by
  cases h <;> exact id

/-- Nobody is sent away. -/
theorem retains {away : ℕ → Prop} (h : d.Minds x d') : d.Retains away d' := by
  cases h with
  | rest => exact d.retains_rest
  | route e now => exact (routes_route e now).retains
  | refresh asked prices now => exact retains_refresh asked prices now
  | work h => exact (works_work h).retains
  | quit h => exact (works_workerQuits h).retains

/-- Markets that wait go on to wait, with the diffs that are set aside. -/
theorem slot? (h : d.Minds x d') (m : MarketId) :
    d'.slot? m = (d.slot? m).map (.setAside (x.buffered m)) := by
  rw [h.does.slot? m]
  cases h with
  | route e now => rfl
  | _ => exact (Slot.map_setAside_nil _).symm

theorem quiet {op : Operation} (h : d.Minds x d') (order : d.InOrder op) : d.Quiet d' := by
  cases h with
  | rest => exact d.quiet_rest
  | route e now => exact d.quiet_route e now
  | refresh asked prices now => exact d.quiet_refresh asked prices now
  | work h => exact order.quiet_work h
  | quit h => exact quiet_workerQuits h

end Desk.Minds

/-- **What tasks and workers tell** of what was done at the desk. It is not for any request, and
nobody tells of a market that was to be activated and did not wait. -/
structure Tells (x : DeskAct) (fx : List TrackerEffect) : Prop where
  silent : ∀ e ∈ fx, e.request? = none
  shown : fx.filterMap TrackerEffect.act? = [x].filter DeskAct.isShown
  waited : ∀ a m, TrackerEffect.failed a (.notInitializing m) ∉ fx

namespace Tells

theorem nil : Tells .rested [] := ⟨by simp, rfl, by simp⟩

theorem one {x : DeskAct} {e : TrackerEffect} (silent : e.request? = none)
    (shown : [e].filterMap TrackerEffect.act? = [x].filter DeskAct.isShown)
    (waited : ∀ a m, TrackerEffect.failed a (.notInitializing m) ≠ e) : Tells x [e] :=
  ⟨by simp [silent], shown, by simpa using waited⟩

end Tells

namespace Tracker

variable {t t' : Tracker} {i r : ℕ} {m : MarketId} {s : RequestStage} {l : Label}
  {fx : List TrackerEffect} {run : Run}

/-! ### Requests -/

/-- **The rules of requests.** -/
inductive Goes (t : Tracker) (i : ℕ) :
    RequestStage → Label → List TrackerEffect → Tracker → Prop where
  /-- All first books are there, and the adding of a market comes to the lock. -/
  | addQueues {m : MarketId} {r : ℕ} (ready : t.ready.raised = true) :
      Goes t i (.add m r .awaitingReady) (.proceed (.request i)) []
        ((t.setRequest i (.add m r .locking)).queueForLock (.request i))
  | addGivesUp {m : MarketId} {r : ℕ} (cancelled : t.isCancelled r = true) :
      Goes t i (.add m r .awaitingReady) (.quit (.request i)) [.answered i (.flag false)]
        (t.setRequest i (.answered (.flag false)))
  /-- The run was cancelled, or the market is tracked already. -/
  | addDeclines {m : MarketId} {r : ℕ} (holds : t.holdsLock (.request i) = true) :
      Goes t i (.add m r .locking) (.proceed (.request i)) [.answered i (.flag false)]
        (t.setRequest i (.answered (.flag false))).unlock
  | addRegisters {m : MarketId} {r : ℕ} (holds : t.holdsLock (.request i) = true)
      (going : t.isCancelled r = false) (new : t.desk.slot? m = none) :
      Goes t i (.add m r .locking) (.proceed (.request i)) [.called (.request i) (.subscribe m)]
        ({ t with desk := t.desk.register m t.config.pendingCapacity }.setRequest i
          (.add m r .subscribing))
  | addSubscribed {m : MarketId} {r : ℕ} :
      Goes t i (.add m r .subscribing) (.hear (.request i) (.flag true)) []
        (t.setRequest i (.add m r .subscribed))
  | addRefused {m : MarketId} {r : ℕ} :
      Goes t i (.add m r .subscribing) (.hear (.request i) (.flag false))
        [.answered i (.flag false)]
        ({ t with desk := t.desk.discard m }.setRequest i (.answered (.flag false))).unlock
  | addFetches {m : MarketId} {r : ℕ} :
      Goes t i (.add m r .subscribed) (.proceed (.request i)) [.called (.request i) (.book m)]
        (t.setRequest i (.add m r .fetching))
  | addActivates {m : MarketId} {r : ℕ} {book : Snapshot} {d' : Desk}
      (hd : t.desk.activate m book r (t.isCancelled r) t.config.recentDiffs = .ok d') :
      Goes t i (.add m r .fetching) (.hear (.request i) (.book (.ok book)))
        [.answered i (.flag true)]
        ({ t with desk := d' }.setRequest i (.answered (.flag true))).unlock
  | addQuits {m : MarketId} {r : ℕ} {stage : AddStage} (cancelled : t.isCancelled r = true)
      (adding : (RequestStage.add m r stage).operation = .adding m) :
      Goes t i (.add m r stage) (.quit (.request i)) [.called (.request i) (.unsubscribe m)]
        ({ t with desk := t.desk.discard m }.setRequest i (.add m r .rollingBack))
  /-- The first book could not be had, or not be used. -/
  | addFails {m : MarketId} {r : ℕ} {result : Except SourceError Snapshot} {cause : TrackerError}
      (why : (∃ e, result = .error e ∧ cause = .source e) ∨ ∃ book, result = .ok book ∧
        t.desk.activate m book r (t.isCancelled r) t.config.recentDiffs = .error cause) :
      Goes t i (.add m r .fetching) (.hear (.request i) (.book result))
        [.failed (.request i) cause, .called (.request i) (.unsubscribe m)]
        ({ t with desk := t.desk.discard m }.setRequest i (.add m r .rollingBack))
  | addRolledBack {m : MarketId} {r : ℕ} (b : Bool) :
      Goes t i (.add m r .rollingBack) (.hear (.request i) (.flag b)) [.answered i (.flag false)]
        (t.setRequest i (.answered (.flag false))).unlock
  | removeDeclines {m : MarketId} (holds : t.holdsLock (.request i) = true)
      (inactive : ∀ j, t.desk.slot? m ≠ some (.active j)) :
      Goes t i (.remove m .locking) (.proceed (.request i)) [.answered i (.flag false)]
        (t.setRequest i (.answered (.flag false))).unlock
  | removeRetires {m : MarketId} {j w : ℕ} (holds : t.holdsLock (.request i) = true)
      (active : t.desk.slot? m = some (.active j)) (charge : t.desk.inCharge.get? m = some w) :
      Goes t i (.remove m .locking) (.proceed (.request i)) []
        ({ t with desk := (t.desk.retire m).1.cancel w }.setRequest i
          (.remove m (.awaitingWorker w)))
  /-- Nobody is in charge of the market, though it is active. -/
  | removeRetiresNobody {m : MarketId} {j : ℕ} (holds : t.holdsLock (.request i) = true)
      (active : t.desk.slot? m = some (.active j)) (charge : t.desk.inCharge.get? m = none) :
      Goes t i (.remove m .locking) (.proceed (.request i)) [.called (.request i) (.unsubscribe m)]
        ({ t with desk := (t.desk.retire m).1 }.setRequest i (.remove m .unsubscribing))
  | removeUnsubscribes {m : MarketId} {w : ℕ} (ended : t.desk.hasEnded w = true) :
      Goes t i (.remove m (.awaitingWorker w)) (.proceed (.request i))
        [.called (.request i) (.unsubscribe m)] (t.setRequest i (.remove m .unsubscribing))
  | removeEnds {m : MarketId} (b : Bool) :
      Goes t i (.remove m .unsubscribing) (.hear (.request i) (.flag b)) [.answered i (.flag true)]
        ({ t with desk := t.desk.discard m }.setRequest i (.answered (.flag true))).unlock
  /-- All tasks have ended, and the stop comes to the lock. -/
  | stopQueues {r : ℕ} {run : Run} (hr : t.run? r = some run) (ended : run.hasEnded = true) :
      Goes t i (.stop (.awaitingTasks r)) (.proceed (.request i)) []
        ((t.setRequest i (.stop .locking)).queueForLock (.request i))
  | stopDismisses {w : ℕ} {ws : List ℕ} (holds : t.holdsLock (.request i) = true)
      (workers : t.desk.dismiss.2 = w :: ws) :
      Goes t i (.stop .locking) (.proceed (.request i)) []
        ({ t with desk := t.desk.dismiss.1.cancel w }.setRequest i (.stop (.draining (w :: ws))))
  /-- There is nobody to dismiss. -/
  | stopDisbands (holds : t.holdsLock (.request i) = true) (nobody : t.desk.dismiss.2 = []) :
      Goes t i (.stop .locking) (.proceed (.request i)) [.answered i .done]
        ({ t with desk := t.desk.dismiss.1.clear, ready := t.ready.clear }.setRequest i
          (.answered .done)).unlock
  | stopDrains {w w' : ℕ} {ws : List ℕ} (ended : t.desk.hasEnded w = true) :
      Goes t i (.stop (.draining (w :: w' :: ws))) (.proceed (.request i)) []
        ({ t with desk := t.desk.cancel w' }.setRequest i (.stop (.draining (w' :: ws))))
  | stopEnds {w : ℕ} (ended : t.desk.hasEnded w = true) :
      Goes t i (.stop (.draining [w])) (.proceed (.request i)) [.answered i .done]
        ({ t with desk := t.desk.clear, ready := t.ready.clear }.setRequest i
          (.answered .done)).unlock
  | alerted (ready : t.ready.raised = true) :
      Goes t i .awaitReady (.proceed (.request i)) [.answered i .done]
        (t.setRequest i (.answered .done))

/-- Whatever comes of it follows a rule of requests. -/
def Going (t : Tracker) (i : ℕ) (s : RequestStage) (l : Label) (o : Outcome) : Prop :=
  ∀ t' fx, o = some (t', fx) → t.Goes i s l fx t'

theorem going_none : t.Going i s l none := fun _ _ h => by cases h

theorem going_some (h : t.Goes i s l fx t') : t.Going i s l (some (t', fx)) := by
  intro t'' fx' heq
  obtain ⟨rfl, rfl⟩ := Prod.mk.inj (Option.some.inj heq)
  exact h

section Requests

variable (t i m r)

theorem going_addProceeds (stage : AddStage) :
    t.Going i (.add m r stage) (.proceed (.request i)) (t.addProceeds i m r stage) := by
  unfold addProceeds
  split
  · split
    next ready => exact going_some (.addQueues ready)
    · exact going_none
  · split
    next holds =>
      unfold beginAdd
      split
      · exact going_some (.addDeclines holds)
      next going =>
        split
        · exact going_some (.addDeclines holds)
        next new =>
          exact going_some (.addRegisters holds (by simpa using going) (by simpa using new))
    · exact going_none
  · exact going_some .addFetches
  · exact going_none

theorem going_addQuits (stage : AddStage) (cancelled : t.isCancelled r = true) :
    t.Going i (.add m r stage) (.quit (.request i)) (t.addQuits i m r stage) := by
  unfold addQuits
  split
  · exact going_some (.addGivesUp cancelled)
  · exact going_some (.addQuits cancelled rfl)
  · exact going_some (.addQuits cancelled rfl)
  · exact going_some (.addQuits cancelled rfl)
  · exact going_none

theorem going_addHears (stage : AddStage) (a : SourceAnswer) :
    t.Going i (.add m r stage) (.hear (.request i) a) (t.addHears i m r stage a) := by
  unfold addHears
  split
  · exact going_some .addSubscribed
  · exact going_some .addRefused
  · split
    next hd => exact going_some (.addActivates hd)
    next he => exact going_some (.addFails (.inr ⟨_, rfl, he⟩))
  next e => exact going_some (.addFails (.inl ⟨e, rfl, rfl⟩))
  next b => exact going_some (.addRolledBack b)
  · exact going_none

theorem going_removeProceeds (stage : RemoveStage) :
    t.Going i (.remove m stage) (.proceed (.request i)) (t.removeProceeds i m stage) := by
  unfold removeProceeds
  split
  · split
    next holds =>
      unfold beginRemove
      split
      next j active =>
        split
        next desk w h =>
          obtain ⟨rfl, charge⟩ := Prod.mk.inj h
          exact going_some (.removeRetires holds active charge)
        next desk h =>
          obtain ⟨rfl, charge⟩ := Prod.mk.inj h
          exact going_some (.removeRetiresNobody holds active charge)
      next inactive => exact going_some (.removeDeclines holds inactive)
    · exact going_none
  · split
    next ended => exact going_some (.removeUnsubscribes ended)
    · exact going_none
  · exact going_none

theorem going_removeHears (stage : RemoveStage) (a : SourceAnswer) :
    t.Going i (.remove m stage) (.hear (.request i) a) (t.removeHears i m stage a) := by
  unfold removeHears
  split
  next b => exact going_some (.removeEnds b)
  · exact going_none

theorem going_stopProceeds (stage : StopStage) :
    t.Going i (.stop stage) (.proceed (.request i)) (t.stopProceeds i stage) := by
  unfold stopProceeds
  split
  · split
    next hr =>
      split
      next ended => exact going_some (.stopQueues hr ended)
      · exact going_none
    · exact going_none
  · split
    next holds =>
      dsimp only
      cases hworkers : t.desk.dismiss.2 with
      | nil => exact going_some (.stopDisbands holds hworkers)
      | cons w ws => exact going_some (.stopDismisses holds hworkers)
    · exact going_none
  next w ws =>
    split
    next ended =>
      cases ws with
      | nil => exact going_some (.stopEnds ended)
      | cons w' ws => exact going_some (.stopDrains ended)
    · exact going_none
  · exact going_none

end Requests

/-! ### Tasks, workers and the time -/

/-- **The rules of runs and workers.** The startup has rules of its own. -/
inductive Tends (t : Tracker) : List TrackerEffect → Tracker → Prop where
  | task {r : ℕ} {run run' : Run} {x : DeskAct} {d' : Desk} {fx : List TrackerEffect}
      (hr : t.run? r = some run) (later : run.Later run') (startup : run'.startup = run.startup)
      (minds : t.desk.Minds x d') (tells : Tells x fx) :
      Tends t fx { t.setRun r run' with desk := d' }
  | worker {x : DeskAct} {d' : Desk} {fx : List TrackerEffect} (minds : t.desk.Minds x d')
      (tells : Tells x fx) : Tends t fx { t with desk := d' }
  | startup {r : ℕ} {run : Run} {stage : StartupStage} {fx : List TrackerEffect}
      (hr : t.run? r = some run) (going : run.startup ≠ .ended)
      (outside : ¬run.startup.IsLocking ∧ ¬stage.IsLocking)
      (remaining : stage.remaining.Sublist run.startup.remaining) (tells : Tells .rested fx) :
      Tends t fx (t.setStartup r run stage)
  /-- There is no market at all. -/
  | startupEnds {r : ℕ} {run : Run} (hr : t.run? r = some run) (none : run.startup = .next []) :
      Tends t [] { t.setStartup r run .ended with ready := t.ready.raise }
  | startupQueues {r : ℕ} {run : Run} {m : MarketId} {rest : List MarketId} (book : Snapshot)
      (hr : t.run? r = some run) (fetching : run.startup = .fetching m rest) :
      Tends t [] ((t.setStartup r run (.locking m rest book)).queueForLock (.startup r))
  | startupActivates {r : ℕ} {run : Run} {m : MarketId} {rest : List MarketId} {book : Snapshot}
      {d' : Desk} {stage : StartupStage} {ready : ReadySignal} (hr : t.run? r = some run)
      (locking : run.startup = .locking m rest book) (holds : t.holdsLock (.startup r) = true)
      (hd : t.desk.activate m book r run.isCancelled t.config.recentDiffs = .ok d')
      (outside : ¬stage.IsLocking) (remaining : stage.remaining = rest)
      (hready : ready = t.ready ∨ ready = t.ready.raise) :
      Tends t [] { t.setStartup r run stage with desk := d', ready := ready }.unlock
  | startupRetries {r : ℕ} {run : Run} {m : MarketId} {rest : List MarketId} {book : Snapshot}
      (hr : t.run? r = some run) (locking : run.startup = .locking m rest book)
      (holds : t.holdsLock (.startup r) = true) {e : TrackerError}
      (he : t.desk.activate m book r run.isCancelled t.config.recentDiffs = .error e) :
      Tends t [.failed (.startup r) e] (t.retryBook r run m rest).unlock
  | time (clock : ℕ) (now : Instant) : Tends t [] { t with clock := clock, now := now }

/-- Whatever comes of it follows a rule of runs and workers. -/
def Tending (t : Tracker) (o : Outcome) : Prop := ∀ t' fx, o = some (t', fx) → t.Tends fx t'

theorem tending_none : t.Tending none := fun _ _ h => by cases h

theorem tending_some (h : t.Tends fx t') : t.Tending (some (t', fx)) := by
  intro t'' fx' heq
  obtain ⟨rfl, rfl⟩ := Prod.mk.inj (Option.some.inj heq)
  exact h

theorem tending_bind {α : Type} {o : Option α} {f : α → Outcome}
    (h : ∀ a, o = some a → t.Tending (f a)) : t.Tending (o >>= f) := by
  cases o with
  | none => exact tending_none
  | some a => exact h a rfl

/-- A task that does nothing at the desk. -/
theorem tending_task {run' : Run} (hr : t.run? r = some run) (later : run.Later run')
    (startup : run'.startup = run.startup) (tells : Tells .rested fx) :
    t.Tending (some (t.setRun r run', fx)) :=
  tending_some (.task hr later startup .rest tells)

theorem tending_setListener (hr : t.run? r = some run) {l : Listener} (stage : ListenerStage)
    (going : run.listener l ≠ .ended ∨ stage = .ended) (tells : Tells .rested fx) :
    t.Tending (some (t.setListener r run l stage, fx)) :=
  tending_task hr (.setListener run stage going) (Run.Later.startup_setListener run l stage) tells

/-- The startup goes on with the same markets, or ends. -/
theorem tending_setStartup (hr : t.run? r = some run) {stage : StartupStage}
    (going : run.startup ≠ .ended) (outside : ¬run.startup.IsLocking ∧ ¬stage.IsLocking)
    (remaining : stage.remaining.Sublist run.startup.remaining) (tells : Tells .rested fx) :
    t.Tending (some (t.setStartup r run stage, fx)) :=
  tending_some (.startup hr going outside remaining tells)

/-- After an activation, the startup goes on with the other markets, or has done with them. -/
theorem afterActivation_eq (t : Tracker) (d : Desk) (r : ℕ) (run : Run) (rest : List MarketId) :
    ∃ stage ready, StartupStage.remaining stage = rest ∧ ¬stage.IsLocking ∧
      (ready = t.ready ∨ ready = t.ready.raise) ∧
      { t with desk := d }.afterActivation r run rest =
        { t.setStartup r run stage with desk := d, ready := ready } := by
  unfold afterActivation
  split
  next hempty => exact ⟨.ended, _, (List.isEmpty_iff.mp hempty).symm, id, .inr rfl, rfl⟩
  next => exact ⟨.pausing rest _, t.ready, rfl, id, .inl rfl, rfl⟩

section Tasks

variable (t r)

theorem tending_listenerProceeds (l : Listener) : t.Tending (t.listenerProceeds r l) := by
  refine tending_bind fun run hr => ?_
  split
  next hs => exact tending_setListener hr _ (by simp [hs]) (.one rfl rfl nofun)
  next hs =>
    split
    · exact tending_setListener hr _ (by simp [hs]) .nil
    · exact tending_none
  · exact tending_none

theorem tending_listenerQuits (l : Listener) : t.Tending (t.listenerQuits r l) := by
  refine tending_bind fun run hr => ?_
  split
  · exact tending_setListener hr _ (.inr rfl) .nil
  · exact tending_none

theorem tending_hangUp (l : Listener) (error? : Option SourceError) :
    t.Tending (t.hangUp r l error?) := by
  refine tending_bind fun run hr => ?_
  split
  next hs => exact tending_setListener hr _ (by simp [hs]) (.one rfl rfl nofun)
  · exact tending_none

theorem tending_receive (e : Event) : t.Tending (t.receive r e) := by
  refine tending_bind fun run hr => ?_
  split
  · exact tending_task hr (.setInbox run _) rfl .nil
  · exact tending_none

theorem tending_routerProceeds (s : EventStream) : t.Tending (t.routerProceeds r s) := by
  refine tending_bind fun run hr => ?_
  split
  next hs =>
    split
    · exact tending_task hr (.setRouter run _ (by simp [hs])) rfl .nil
    · exact tending_none
  next hs =>
    unfold routeNext
    split
    next e rest _ =>
      exact tending_some (.task hr (.setInbox run _) rfl (.route e t.now) (.one rfl rfl nofun))
    · split
      · exact tending_task hr (.setRouter run _ (.inr rfl)) rfl .nil
      · exact tending_none
  · exact tending_none

theorem tending_routerQuits (s : EventStream) : t.Tending (t.routerQuits r s) := by
  refine tending_bind fun run hr => ?_
  split
  · exact tending_task hr (.setRouter run _ (.inr rfl)) rfl .nil
  · exact tending_none

theorem tending_refreshProceeds : t.Tending (t.refreshProceeds r) := by
  refine tending_bind fun run hr => ?_
  split
  next hs =>
    split
    · exact tending_task hr (.setRefresh run _ (by simp [hs])) rfl .nil
    · exact tending_none
  next hs =>
    split
    · exact tending_task hr (.setRefresh run _ (by simp [hs])) rfl .nil
    · exact tending_task hr (.setRefresh run _ (by simp [hs])) rfl (.one rfl rfl nofun)
  next hs =>
    split
    · exact tending_task hr (.setRefresh run _ (by simp [hs])) rfl .nil
    · exact tending_none
  · exact tending_none

theorem tending_refreshQuits : t.Tending (t.refreshQuits r) := by
  refine tending_bind fun run hr => ?_
  split
  next hs => exact tending_task hr (.setRefresh run _ hs.2) rfl .nil
  · exact tending_none

theorem tending_refreshHears (a : SourceAnswer) : t.Tending (t.refreshHears r a) := by
  unfold refreshHears
  split
  · refine tending_bind fun run hr => ?_
    split
    next due prices hs =>
      exact tending_some (.task hr (.setRefresh run _ (by simp [hs])) rfl
        (.refresh due prices t.now) .nil)
    next hs => exact tending_task hr (.setRefresh run _ (by simp [hs])) rfl .nil
    · exact tending_none
  · exact tending_none

theorem tending_workerProceeds : t.Tending (t.workerProceeds r) :=
  tending_bind fun _ h => tending_some (.worker (.work h) (.one rfl rfl nofun))

theorem tending_workerQuits : t.Tending (t.workerQuits r) :=
  tending_bind fun _ h => tending_some (.worker (.quit h) (.one rfl rfl nofun))

/-- **The startup goes on.** -/
theorem tending_startupProceeds : t.Tending (t.startupProceeds r) := by
  refine tending_bind fun run hr => ?_
  split
  next hs => exact tending_some (.startupEnds hr hs)
  next hs =>
    exact tending_setStartup hr (by simp [hs]) (by simp [hs, StartupStage.IsLocking])
      (by rw [hs]; exact .refl _) (.one rfl rfl nofun)
  next m rest book hs =>
    split
    next holds =>
      split
      next desk hd =>
        obtain ⟨stage, ready, remaining, outside, hready, heq⟩ :=
          t.afterActivation_eq desk r run rest
        rw [heq]
        exact tending_some (.startupActivates hr hs holds hd outside remaining hready)
      next e he => exact tending_some (.startupRetries hr hs holds he)
    · exact tending_none
  next hs =>
    split
    · exact tending_setStartup hr (by simp [hs]) (by simp [hs, StartupStage.IsLocking])
        (by rw [hs]; exact .refl _) .nil
    · exact tending_none
  next hs =>
    split
    · exact tending_setStartup hr (by simp [hs]) (by simp [hs, StartupStage.IsLocking])
        (by rw [hs]; exact .refl _) .nil
    · exact tending_none
  · exact tending_none

theorem tending_startupQuits : t.Tending (t.startupQuits r) := by
  refine tending_bind fun run hr => ?_
  split
  · split
    · exact tending_none
    · exact tending_none
    · exact tending_none
    next hlocking hended =>
      refine tending_setStartup hr hended ⟨fun h => ?_, id⟩ (List.nil_sublist _) .nil
      cases hs : run.startup with
      | locking m rest book => exact hlocking m rest book hs
      | _ => simp [hs, StartupStage.IsLocking] at h
  · exact tending_none

theorem tending_startupHears (a : SourceAnswer) : t.Tending (t.startupHears r a) := by
  unfold startupHears
  split
  · refine tending_bind fun run hr => ?_
    split
    next m rest book hs => exact tending_some (.startupQueues book hr hs)
    next hs =>
      exact tending_setStartup hr (by simp [hs]) (by simp [hs, StartupStage.IsLocking])
        (by rw [hs]; exact .refl _) (.one rfl rfl nofun)
    · exact tending_none
  · exact tending_none

end Tasks

/-! ### Whatever happens -/

/-- **The rules of those who ask something.** -/
inductive Asks (t : Tracker) : Request → List TrackerEffect → Tracker → Prop where
  /-- A tracker that does not run adds nothing. -/
  | addsNothing {m : MarketId} (idle : t.run = none) :
      Asks t (.add m) [.answered t.requests.length (.flag false)]
        (t.append (.answered (.flag false)))
  | adds {m : MarketId} {r : ℕ} (hrun : t.run = some r) :
      Asks t (.add m) [] (t.append (.add m r .awaitingReady))
  | removes {m : MarketId} :
      Asks t (.remove m) []
        ((t.append (.remove m .locking)).queueForLock (.request t.requests.length))
  /-- A tracker that does not run has nothing to stop. -/
  | stopsNothing (idle : t.run = none) :
      Asks t .stop [.answered t.requests.length .done] (t.append (.answered .done))
  | stops {r : ℕ} (hrun : t.run = some r) :
      Asks t .stop [] { (t.cancelRun r).append (.stop (.awaitingTasks r)) with run := none }
  | awaits : Asks t .awaitReady [] (t.append .awaitReady)

theorem asks_ask (t : Tracker) (q : Request) : t.Asks q (t.ask q).2 (t.ask q).1 := by
  unfold ask
  cases q with
  | add m =>
    dsimp only
    split
    next idle => exact .addsNothing idle
    next hrun => exact .adds hrun
  | remove m => exact .removes
  | stop =>
    dsimp only
    split
    next idle => exact .stopsNothing idle
    next r hrun =>
      rw [cancelRun_withRun]
      exact .stops hrun
  | awaitReady => exact .awaits

/-- A tracker once a run has begun. -/
def started (t : Tracker) : Tracker :=
  { t with
    desk := t.config.markets.foldl (fun d m => d.register m t.config.pendingCapacity)
      { t.desk with metrics := t.desk.metrics.markStarted t.now }
    run := some t.runs.length
    runs := t.runs ++ [.begin t.config.markets t.config.tradeRefresh.enabled] }

theorem start_of_idle (idle : t.run = none) : t.start = .ok t.started := by
  unfold start
  rw [idle]
  rfl

theorem start_of_running (running : t.run ≠ none) : t.start = .error .alreadyStarted := by
  unfold start
  split
  next => rfl
  next idle => exact absurd idle running

/-- **Whatever happens to a tracker**, by the rule that it follows. -/
inductive Happens (t : Tracker) : Label → List TrackerEffect → Tracker → Prop where
  | starts (idle : t.run = none) : Happens t .start [] t.started
  | goesOn (running : t.run ≠ none) : Happens t .start [.alreadyStarted] t
  | abandons {r : ℕ} (hrun : t.run = some r) : Happens t .abandon [] (t.cancelRun r)
  | abandonsNothing (idle : t.run = none) : Happens t .abandon [] t
  | asks {q : Request} {fx : List TrackerEffect} {t' : Tracker} (h : t.Asks q fx t') :
      Happens t (.ask q) fx t'
  | goes {i : ℕ} {s : RequestStage} {l : Label} {fx : List TrackerEffect} {t' : Tracker}
      (hl : l.request? = some i) (hs : t.request? i = some s) (h : t.Goes i s l fx t') :
      Happens t l fx t'
  | tends {l : Label} {fx : List TrackerEffect} {t' : Tracker} (hl : l.request? = none)
      (other : l ≠ .start ∧ l ≠ .abandon ∧ ∀ q, l ≠ .ask q) (h : t.Tends fx t') : Happens t l fx t'

/-- What follows a question is what was asked. -/
theorem Happens.asked {q : Request} (h : t.Happens (.ask q) fx t') : t.Asks q fx t' := by
  cases h with
  | asks h => exact h
  | goes hl hs h => cases hl
  | tends hl other h => exact absurd rfl (other.2.2 q)

theorem requestProceeds_happens (h : t.requestProceeds i = some (t', fx)) :
    t.Happens (.proceed (.request i)) fx t' := by
  obtain ⟨s, hs, h⟩ := Option.bind_eq_some_iff.mp h
  refine .goes rfl hs ?_
  split at h
  · exact t.going_addProceeds i _ _ _ t' fx h
  · exact t.going_removeProceeds i _ _ t' fx h
  · exact t.going_stopProceeds i _ t' fx h
  · split at h
    next ready => exact going_some (.alerted ready) t' fx h
    · cases h
  · cases h

theorem requestQuits_happens (h : t.requestQuits i = some (t', fx)) :
    t.Happens (.quit (.request i)) fx t' := by
  obtain ⟨s, hs, h⟩ := Option.bind_eq_some_iff.mp h
  refine .goes rfl hs ?_
  split at h
  · split at h
    next cancelled => exact t.going_addQuits i _ _ _ cancelled t' fx h
    · cases h
  · cases h

theorem requestHears_happens {a : SourceAnswer} (h : t.requestHears i a = some (t', fx)) :
    t.Happens (.hear (.request i) a) fx t' := by
  obtain ⟨s, hs, h⟩ := Option.bind_eq_some_iff.mp h
  refine .goes rfl hs ?_
  split at h
  · exact t.going_addHears i _ _ _ a t' fx h
  · exact t.going_removeHears i _ _ a t' fx h
  · cases h

/-- **Every step follows one of the rules.** -/
theorem step_happens (h : t.step l = some (t', fx)) : t.Happens l fx t' := by
  cases l with
  | start =>
    unfold step at h
    dsimp only at h
    by_cases idle : t.run = none
    · rw [start_of_idle idle] at h
      obtain ⟨rfl, rfl⟩ := Prod.mk.inj (Option.some.inj h)
      exact .starts idle
    · rw [start_of_running idle] at h
      obtain ⟨rfl, rfl⟩ := Prod.mk.inj (Option.some.inj h)
      exact .goesOn idle
  | abandon =>
    obtain ⟨rfl, rfl⟩ := Prod.mk.inj (Option.some.inj h)
    unfold abandon
    split
    next hrun => exact .abandons hrun
    next idle => exact .abandonsNothing idle
  | ask q =>
    obtain ⟨h₁, h₂⟩ := Prod.mk.inj (Option.some.inj h)
    exact h₁ ▸ h₂ ▸ .asks (t.asks_ask q)
  | proceed a =>
    cases a with
    | listener r l => exact .tends rfl (by simp) (t.tending_listenerProceeds r l t' fx h)
    | router r s => exact .tends rfl (by simp) (t.tending_routerProceeds r s t' fx h)
    | startup r => exact .tends rfl (by simp) (t.tending_startupProceeds r t' fx h)
    | refresh r => exact .tends rfl (by simp) (t.tending_refreshProceeds r t' fx h)
    | worker i => exact .tends rfl (by simp) (t.tending_workerProceeds i t' fx h)
    | request i => exact requestProceeds_happens h
  | quit a =>
    cases a with
    | listener r l => exact .tends rfl (by simp) (t.tending_listenerQuits r l t' fx h)
    | router r s => exact .tends rfl (by simp) (t.tending_routerQuits r s t' fx h)
    | startup r => exact .tends rfl (by simp) (t.tending_startupQuits r t' fx h)
    | refresh r => exact .tends rfl (by simp) (t.tending_refreshQuits r t' fx h)
    | worker i => exact .tends rfl (by simp) (t.tending_workerQuits i t' fx h)
    | request i => exact requestQuits_happens h
  | hear a answer =>
    cases a with
    | startup r => exact .tends rfl (by simp) (t.tending_startupHears r answer t' fx h)
    | refresh r => exact .tends rfl (by simp) (t.tending_refreshHears r answer t' fx h)
    | request i => exact requestHears_happens h
    | _ => cases h
  | receive r e => exact .tends rfl (by simp) (t.tending_receive r e t' fx h)
  | hangUp r l error? => exact .tends rfl (by simp) (t.tending_hangUp r l error? t' fx h)
  | pass millis nanos => exact .tends rfl (by simp) (tending_some (.time _ _) t' fx h)

/-! ### What is left alone -/

theorem run?_cancelRun (t : Tracker) (r r' : ℕ) : (t.cancelRun r).run? r' =
    (t.run? r').map fun run => if r' = r then { run with isCancelled := true } else run := by
  cases hr : t.run? r with
  | none =>
    rw [cancelRun_of_none hr]
    by_cases heq : r' = r
    · rw [heq, hr]
      rfl
    · simp only [if_neg heq, Option.map_id']
  | some run =>
    rw [cancelRun_of_some hr]
    by_cases heq : r' = r
    · subst heq
      rw [hr, Option.map_some, if_pos rfl]
      exact List.getElem?_set_self (List.getElem?_eq_some_iff.mp hr).1
    · simp only [if_neg heq, Option.map_id']
      exact List.getElem?_set_ne (Ne.symm heq)

/-- Only the run and its workers are changed. -/
theorem cancelRun_rest (t : Tracker) (r : ℕ) :
    ∃ d' runs', t.cancelRun r = { t with desk := d', runs := runs' } := by
  cases hr : t.run? r with
  | none => exact ⟨_, _, cancelRun_of_none hr⟩
  | some run => exact ⟨_, _, cancelRun_of_some hr⟩

@[simp] theorem requests_cancelRun (t : Tracker) (r : ℕ) :
    (t.cancelRun r).requests = t.requests := by
  obtain ⟨d', runs', heq⟩ := t.cancelRun_rest r
  rw [heq]

@[simp] theorem lock_cancelRun (t : Tracker) (r : ℕ) : (t.cancelRun r).lock = t.lock := by
  obtain ⟨d', runs', heq⟩ := t.cancelRun_rest r
  rw [heq]

theorem config_cancelRun (t : Tracker) (r : ℕ) : (t.cancelRun r).config = t.config := by
  obtain ⟨d', runs', heq⟩ := t.cancelRun_rest r
  rw [heq]

theorem ready_cancelRun (t : Tracker) (r : ℕ) : (t.cancelRun r).ready = t.ready := by
  obtain ⟨d', runs', heq⟩ := t.cancelRun_rest r
  rw [heq]

theorem clock_cancelRun (t : Tracker) (r : ℕ) : (t.cancelRun r).clock = t.clock := by
  obtain ⟨d', runs', heq⟩ := t.cancelRun_rest r
  rw [heq]

theorem now_cancelRun (t : Tracker) (r : ℕ) : (t.cancelRun r).now = t.now := by
  obtain ⟨d', runs', heq⟩ := t.cancelRun_rest r
  rw [heq]

theorem request?_append_self (t : Tracker) (s : RequestStage) :
    (t.append s).request? t.requests.length = some s :=
  List.getElem?_concat_length

theorem request?_cancelRun (t : Tracker) (r j : ℕ) : (t.cancelRun r).request? j = t.request? j := by
  rw [request?, requests_cancelRun, request?]

namespace Goes

theorem rest (h : t.Goes i s l fx t') : t'.config = t.config ∧ t'.run = t.run ∧
    t'.runs = t.runs ∧ ∃ s', t'.requests = t.requests.set i s' := by
  cases h <;> exact ⟨rfl, rfl, rfl, _, rfl⟩

/-- A request takes no time, and does not raise the ready signal. -/
theorem clock_ready (h : t.Goes i s l fx t') :
    t'.clock = t.clock ∧ (t'.ready.raised = true → t.ready.raised = true) := by
  cases h with
  | stopDisbands | stopEnds =>
    exact ⟨rfl, fun raised => nomatch raised.symm.trans (ReadySignal.raised_put _ _)⟩
  | _ => exact ⟨rfl, id⟩

/-- The other requests stay where they are. -/
theorem request?_of_ne (h : t.Goes i s l fx t') {j : ℕ} (hne : j ≠ i) :
    t'.request? j = t.request? j := by
  obtain ⟨-, -, -, s', hrequests⟩ := h.rest
  rw [Tracker.request?, hrequests]
  exact List.getElem?_set_ne (Ne.symm hne)

/-- Its effects are those of the request. -/
theorem shown (h : t.Goes i s l fx t') : ∀ x ∈ fx, x.request? = some i := by
  cases h <;> simp [TrackerEffect.request?]

end Goes

namespace Tends

theorem rest (h : t.Tends fx t') :
    t'.config = t.config ∧ t'.run = t.run ∧ t'.requests = t.requests := by
  cases h <;> exact ⟨rfl, rfl, rfl⟩

/-- Its effects are not those of any request. -/
theorem shown (h : t.Tends fx t') : ∀ x ∈ fx, x.request? = none := by
  cases h with
  | task hr later startup minds tells => exact tells.silent
  | worker minds tells => exact tells.silent
  | startup hr going outside remaining tells => exact tells.silent
  | _ => simp [TrackerEffect.request?]

theorem later_setRun {run' v : Run} (hr : t.run? r = some run) (later : run.Later run')
    {r' : ℕ} (hv : t.run? r' = some v) :
    ∃ v', (t.setRun r run').run? r' = some v' ∧ v.Later v' := by
  by_cases heq : r' = r
  · subst heq
    obtain rfl := Option.some.inj (hr.symm.trans hv)
    exact ⟨run', List.getElem?_set_self (List.getElem?_eq_some_iff.mp hr).1, later⟩
  · exact ⟨v, (List.getElem?_set_ne (Ne.symm heq)).trans hv, .refl v⟩

/-- Every run stays or goes on. -/
theorem later (h : t.Tends fx t') {r' : ℕ} {v : Run} (hv : t.run? r' = some v) :
    ∃ v', t'.run? r' = some v' ∧ v.Later v' := by
  cases h with
  | task hr later startup minds tells => exact later_setRun hr later hv
  | worker minds tells => exact ⟨v, hv, .refl v⟩
  | startup hr going outside remaining tells => exact later_setRun hr (.setStartup _ _ going) hv
  | startupEnds hr none => exact later_setRun hr (.setStartup _ _ (by simp [none])) hv
  | startupQueues book hr fetching =>
    exact later_setRun hr (.setStartup _ _ (by simp [fetching])) hv
  | startupActivates hr locking holds hd outside remaining hready =>
    exact later_setRun hr (.setStartup _ _ (by simp [locking])) hv
  | startupRetries hr locking holds he =>
    exact later_setRun hr (.setStartup _ _ (by simp [locking])) hv
  | time clock now => exact ⟨v, hv, .refl v⟩

end Tends

namespace Happens

/-- **A cancelled run stays cancelled, and one that has ended has ended for good.** -/
theorem run? (h : t.Happens l fx t') (hr : t.run? r = some run) : ∃ run', t'.run? r = some run' ∧
    (run.isCancelled = true → run'.isCancelled = true) ∧
    (run.hasEnded = true → run'.hasEnded = true) := by
  have hcancel : ∀ r', ∃ run', (t.cancelRun r').run? r = some run' ∧
      (run.isCancelled = true → run'.isCancelled = true) ∧
      (run.hasEnded = true → run'.hasEnded = true) := by
    intro r'
    rw [run?_cancelRun, hr, Option.map_some]
    split
    · exact ⟨_, rfl, fun _ => rfl, id⟩
    · exact ⟨run, rfl, id, id⟩
  cases h with
  | starts idle =>
    obtain ⟨hlt, -⟩ := List.getElem?_eq_some_iff.mp hr
    exact ⟨run, (List.getElem?_append_left hlt).trans hr, id, id⟩
  | goesOn running => exact ⟨run, hr, id, id⟩
  | abandons hrun => exact hcancel _
  | abandonsNothing idle => exact ⟨run, hr, id, id⟩
  | asks h =>
    cases h with
    | stops hrun => exact hcancel _
    | _ => exact ⟨run, hr, id, id⟩
  | goes hl hs h =>
    refine ⟨run, ?_, id, id⟩
    rw [Tracker.run?, h.rest.2.2.1]
    exact hr
  | tends hl other h =>
    obtain ⟨run', hr', later⟩ := h.later hr
    exact ⟨run', hr', fun hc => later.cancelled.trans hc, later.hasEnded⟩

/-- **Nobody else changes a request.** -/
theorem request?_of_ne (h : t.Happens l fx t') {j : ℕ} (hl : l.request? ≠ some j)
    {v : RequestStage} (hv : t.request? j = some v) : t'.request? j = some v := by
  have hcancel : ∀ r, (t.cancelRun r).request? j = some v := fun r =>
    (t.request?_cancelRun r j).trans hv
  cases h with
  | starts idle => exact hv
  | goesOn running => exact hv
  | abandons hrun => exact hcancel _
  | abandonsNothing idle => exact hv
  | asks h =>
    cases h with
    | stops hrun => exact request?_append_of_some (hcancel _)
    | _ => exact request?_append_of_some hv
  | @goes i _ _ _ _ hi hs h =>
    have hne : j ≠ i := by
      rintro rfl
      exact hl hi
    exact (h.request?_of_ne hne).trans hv
  | tends hl other h =>
    rw [Tracker.request?, h.rest.2.2]
    exact hv

/-- The effects that are those of a request come when it goes on, or when it is made. -/
theorem shown (h : t.Happens l fx t') {x : TrackerEffect} (hx : x ∈ fx) {j : ℕ}
    (hj : x.request? = some j) :
    l.request? = some j ∨ (∃ q, l = .ask q) ∧ j = t.requests.length := by
  cases h with
  | goes hl hs h => exact .inl (hl.trans ((h.shown x hx).symm.trans hj))
  | tends hl other h => exact absurd ((h.shown x hx).symm.trans hj) (by simp)
  | asks h =>
    refine .inr ⟨⟨_, rfl⟩, ?_⟩
    cases h with
    | addsNothing idle =>
      obtain rfl := List.mem_singleton.mp hx
      exact (Option.some.inj hj).symm
    | stopsNothing idle =>
      obtain rfl := List.mem_singleton.mp hx
      exact (Option.some.inj hj).symm
    | _ => cases hx
  | goesOn running =>
    obtain rfl := List.mem_singleton.mp hx
    cases hj
  | _ => cases hx

end Happens

end Tracker

end LiveBook
