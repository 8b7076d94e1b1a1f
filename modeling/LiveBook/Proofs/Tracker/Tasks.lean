import LiveBook.Proofs.Tracker.Rules

/-!
# What each task does

The rules of `LiveBook.Tracker.Tends` say what all tasks of a run have in common: what the lock, the
desk and the other runs have to do with them. Here is what each of them does, and what it waits for
before.

* `LiveBook.Tracker.Listens`, `LiveBook.Tracker.Refreshes` – the rules of a listener and of the
  refresh; `LiveBook.Tracker.Performs` has those of the routers as well;
* `LiveBook.Tracker.Fetches` – the rules of the startup;
* `LiveBook.Tracker.step_advances` – whatever is not done by a request follows one of these rules,
  or is done by a worker, or is the time that passes;
* `LiveBook.Tracker.refreshes_of_hear`, `LiveBook.Tracker.step_prices` – who takes in answers to a
  refresh, and who asks for prices;
* `LiveBook.Tracker.step_changes` – what a step can do to a run.
-/

namespace LiveBook

/-- An effect that neither asks anything of the source, nor routes an event, nor tells of a
failure. -/
def TrackerEffect.IsMute : TrackerEffect → Prop
  | .called _ _ | .failed _ _ | .routed _ _ _ => False
  | .listened _ _ | .hungUp _ _ _ | .worked _ _ | .answered _ _ | .alreadyStarted => True

namespace Tracker

variable {t t' : Tracker} {r : ℕ} {l : Label} {fx : List TrackerEffect} {run : Run}

/-! ### Listeners, routers and the refresh -/

/-- **The rules of a listener.** -/
inductive Listens (t : Tracker) (r : ℕ) (run : Run) (k : Listener) :
    Label → List TrackerEffect → ListenerStage → Prop where
  | listens (starting : run.listener k = .starting) :
      Listens t r run k (.proceed (.listener r k)) [.listened r k] .listening
  | resumes {due : ℕ} (backingOff : run.listener k = .backingOff due) (time : due ≤ t.clock) :
      Listens t r run k (.proceed (.listener r k)) [] .starting
  | hungUp (error? : Option SourceError) (listening : run.listener k = .listening) :
      Listens t r run k (.hangUp r k error?) [.hungUp r k error?] (t.afterHangUp error?)
  | quits (going : run.listener k ≠ .ended) : Listens t r run k (.quit (.listener r k)) [] .ended

/-- **The rules of the refresh.** -/
inductive Refreshes (t : Tracker) (r : ℕ) (run : Run) :
    Label → List TrackerEffect → RefreshStage → Desk → Prop where
  /-- All first books are there, and the refresh begins. -/
  | begins (awaiting : run.refresh = .awaitingReady) (ready : t.ready.raised = true) :
      Refreshes t r run (.proceed (.refresh r)) [] .checking t.desk
  | idles (checking : run.refresh = .checking) (nothing : t.dueMarkets = []) :
      Refreshes t r run (.proceed (.refresh r)) []
        (.sleeping (t.clock + t.config.tradeRefresh.pollInterval)) t.desk
  | asks {due : List (MarketId × ℕ)} (checking : run.refresh = .checking)
      (found : due = t.dueMarkets) (something : due ≠ []) :
      Refreshes t r run (.proceed (.refresh r)) [.called (.refresh r) (.prices (due.map (·.1)))]
        (.asking due) t.desk
  | writes {due : List (MarketId × ℕ)} (prices : Table MarketId Decimal)
      (asking : run.refresh = .asking due) :
      Refreshes t r run (.hear (.refresh r) (.prices (.ok prices))) []
        (.sleeping (t.clock + t.config.tradeRefresh.pollInterval)) (t.desk.refresh due prices t.now)
  | fails {due : List (MarketId × ℕ)} (e : SourceError) (asking : run.refresh = .asking due) :
      Refreshes t r run (.hear (.refresh r) (.prices (.error e))) []
        (.sleeping (t.clock + t.config.tradeRefresh.errorBackoff)) t.desk
  | wakes {due : ℕ} (sleeping : run.refresh = .sleeping due) (time : due ≤ t.clock) :
      Refreshes t r run (.proceed (.refresh r)) [] .checking t.desk
  | quits (going : run.refresh ≠ .ended) :
      Refreshes t r run (.quit (.refresh r)) [] .ended t.desk

theorem Listens.mute {k : Listener} {stage : ListenerStage} (h : t.Listens r run k l fx stage) :
    ∀ e ∈ fx, e.IsMute := by
  cases h <;> simp [TrackerEffect.IsMute]

/-- The refresh has not ended before. -/
theorem Refreshes.going {stage : RefreshStage} {d' : Desk} (h : t.Refreshes r run l fx stage d') :
    run.refresh ≠ .ended := by
  cases h with
  | quits going => exact going
  | begins hs | idles hs | asks hs | writes _ hs | fails _ hs | wakes hs => rw [hs]; exact nofun

/-- **The rules of the tasks of a run,** apart from the startup. -/
inductive Performs (t : Tracker) (r : ℕ) (run : Run) :
    Label → List TrackerEffect → Run → Desk → Prop where
  | listens {k : Listener} {l : Label} {fx : List TrackerEffect} {stage : ListenerStage}
      (h : t.Listens r run k l fx stage) : Performs t r run l fx (run.setListener k stage) t.desk
  | receives (e : Event) :
      Performs t r run (.receive r e) []
        { run with inbox := run.inbox.update e.stream fun es => es ++ [e] } t.desk
  /-- All first books are there, and a router begins. -/
  | opens (s : EventStream) (ready : t.ready.raised = true) :
      Performs t r run (.proceed (.router r s)) [] (run.setRouter s .routing) t.desk
  | routes {s : EventStream} {e : Event} {rest : List Event}
      (routing : run.routers.get s = .routing) (inbox : run.inbox.get s = e :: rest) :
      Performs t r run (.proceed (.router r s)) [.routed r e (t.desk.route e t.now).2]
        { run with inbox := run.inbox.update s fun _ => rest } (t.desk.route e t.now).1
  | routerEnds (s : EventStream) {l : Label}
      (own : l = .proceed (.router r s) ∨ l = .quit (.router r s)) :
      Performs t r run l [] (run.setRouter s .ended) t.desk
  | refreshes {l : Label} {fx : List TrackerEffect} {stage : RefreshStage} {d' : Desk}
      (h : t.Refreshes r run l fx stage d') :
      Performs t r run l fx { run with refresh := stage } d'

/-! ### The startup -/

/-- **The rules of the startup of a run.** -/
inductive Fetches (t : Tracker) (r : ℕ) (run : Run) :
    Label → List TrackerEffect → StartupStage → Tracker → Prop where
  | calls {m : MarketId} {rest : List MarketId} (next : run.startup = .next (m :: rest)) :
      Fetches t r run (.proceed (.startup r)) [.called (.startup r) (.book m)] (.fetching m rest)
        (t.setStartup r run (.fetching m rest))
  | hears {m : MarketId} {rest : List MarketId} (book : Snapshot)
      (fetching : run.startup = .fetching m rest) :
      Fetches t r run (.hear (.startup r) (.book (.ok book))) [] (.locking m rest book)
        ((t.setStartup r run (.locking m rest book)).queueForLock (.startup r))
  /-- The book could not be had. -/
  | misses {m : MarketId} {rest : List MarketId} (e : SourceError)
      (fetching : run.startup = .fetching m rest) :
      Fetches t r run (.hear (.startup r) (.book (.error e))) [.failed (.startup r) (.source e)]
        (.backingOff m rest (t.clock + t.config.workerBackoff)) (t.retryBook r run m rest)
  | activates {m : MarketId} {rest : List MarketId} {book : Snapshot} {d' : Desk}
      (locking : run.startup = .locking m rest book)
      (hd : t.desk.activate m book r run.isCancelled t.config.recentDiffs = .ok d')
      (more : rest ≠ []) :
      Fetches t r run (.proceed (.startup r)) [] (.pausing rest (t.clock + t.config.initDelay))
        { t.setStartup r run (.pausing rest (t.clock + t.config.initDelay)) with desk := d' }.unlock
  /-- The last market is activated. -/
  | completes {m : MarketId} {book : Snapshot} {d' : Desk}
      (locking : run.startup = .locking m [] book)
      (hd : t.desk.activate m book r run.isCancelled t.config.recentDiffs = .ok d') :
      Fetches t r run (.proceed (.startup r)) [] .ended
        { t.setStartup r run .ended with desk := d', ready := t.ready.raise }.unlock
  /-- The book could not be used. -/
  | retries {m : MarketId} {rest : List MarketId} {book : Snapshot} {e : TrackerError}
      (locking : run.startup = .locking m rest book)
      (he : t.desk.activate m book r run.isCancelled t.config.recentDiffs = .error e) :
      Fetches t r run (.proceed (.startup r)) [.failed (.startup r) e]
        (.backingOff m rest (t.clock + t.config.workerBackoff)) (t.retryBook r run m rest).unlock
  | resumes {m : MarketId} {rest : List MarketId} {due : ℕ}
      (backingOff : run.startup = .backingOff m rest due) (time : due ≤ t.clock) :
      Fetches t r run (.proceed (.startup r)) [] (.next (m :: rest))
        (t.setStartup r run (.next (m :: rest)))
  | goesOn {rest : List MarketId} {due : ℕ} (pausing : run.startup = .pausing rest due)
      (time : due ≤ t.clock) :
      Fetches t r run (.proceed (.startup r)) [] (.next rest) (t.setStartup r run (.next rest))
  /-- There is no market at all. -/
  | ends (next : run.startup = .next []) :
      Fetches t r run (.proceed (.startup r)) [] .ended
        { t.setStartup r run .ended with ready := t.ready.raise }
  | quits (going : run.startup ≠ .ended) :
      Fetches t r run (.quit (.startup r)) [] .ended (t.setStartup r run .ended)

namespace Fetches

variable {stage : StartupStage}

/-- The startup has not ended before. -/
theorem going (h : t.Fetches r run l fx stage t') : run.startup ≠ .ended := by
  cases h with
  | quits going => exact going
  | calls hs | hears _ hs | misses _ hs | activates hs | completes hs | retries hs | resumes hs
  | goesOn hs | ends hs => rw [hs]; exact nofun

/-- Only the startup of the run has changed; the ready signal is raised at most, when the startup
ends. -/
theorem rest (h : t.Fetches r run l fx stage t') :
    t'.config = t.config ∧ t'.run = t.run ∧ t'.clock = t.clock ∧ t'.requests = t.requests ∧
      t'.runs = t.runs.set r { run with startup := stage } ∧
      (t'.ready = t.ready ∨ stage = .ended ∧ t'.ready = t.ready.raise) := by
  cases h with
  | completes | ends => exact ⟨rfl, rfl, rfl, rfl, rfl, .inr ⟨rfl, rfl⟩⟩
  | _ => exact ⟨rfl, rfl, rfl, rfl, rfl, .inl rfl⟩

/-- The startup routes nothing. -/
theorem not_routed (h : t.Fetches r run l fx stage t') (r' : ℕ) (e : Event)
    (outcome : RouteOutcome) : .routed r' e outcome ∉ fx := by
  cases h <;> simp

/-- The startup asks for books only. -/
theorem called (h : t.Fetches r run l fx stage t') {a : Actor} {call : SourceCall}
    (hcall : .called a call ∈ fx) : a = .startup r ∧ ∃ m, call = .book m := by
  cases h with
  | calls =>
    obtain ⟨rfl, rfl⟩ := TrackerEffect.called.inj (List.mem_singleton.mp hcall)
    exact ⟨rfl, _, rfl⟩
  | _ => simp at hcall

end Fetches

/-! ### Whatever is not a request -/

/-- **The rules of whatever is not done by a request.** -/
inductive Advances (t : Tracker) : Label → List TrackerEffect → Tracker → Prop where
  | performs {r : ℕ} {run run' : Run} {l : Label} {fx : List TrackerEffect} {d' : Desk}
      (hr : t.run? r = some run) (hl : ∀ r', l ≠ .proceed (.startup r'))
      (h : t.Performs r run l fx run' d') : Advances t l fx { t.setRun r run' with desk := d' }
  | fetches {r : ℕ} {run : Run} {l : Label} {fx : List TrackerEffect} {stage : StartupStage}
      {t' : Tracker} (hr : t.run? r = some run) (h : t.Fetches r run l fx stage t') :
      Advances t l fx t'
  | works {l : Label} {d' : Desk} (i : ℕ) (act : WorkerAct)
      (own : l = .proceed (.worker i) ∨ l = .quit (.worker i)) :
      Advances t l [.worked i act] { t with desk := d' }
  | passes (millis nanos : ℕ) :
      Advances t (.pass millis nanos) [] { t with clock := t.clock + millis, now := t.now + nanos }

/-- Whatever comes of it follows one of these rules. -/
def Advancing (t : Tracker) (l : Label) (o : Outcome) : Prop :=
  ∀ t' fx, o = some (t', fx) → t.Advances l fx t'

theorem advancing_none : t.Advancing l none := fun _ _ h => by cases h

theorem advancing_some (h : t.Advances l fx t') : t.Advancing l (some (t', fx)) := by
  intro t'' fx' heq
  obtain ⟨rfl, rfl⟩ := Prod.mk.inj (Option.some.inj heq)
  exact h

theorem advancing_bind {α : Type} {o : Option α} {f : α → Outcome}
    (h : ∀ a, o = some a → t.Advancing l (f a)) : t.Advancing l (o >>= f) := by
  cases o with
  | none => exact advancing_none
  | some a => exact h a rfl

/-- A task that does nothing at the desk. -/
theorem advancing_performs {run' : Run} (hr : t.run? r = some run)
    (h : t.Performs r run l fx run' t.desk) (hl : ∀ r', l ≠ .proceed (.startup r')) :
    t.Advancing l (some (t.setRun r run', fx)) :=
  advancing_some (.performs hr hl h)

section Tasks

variable (t r)

theorem advancing_listenerProceeds (k : Listener) :
    t.Advancing (.proceed (.listener r k)) (t.listenerProceeds r k) := by
  refine advancing_bind fun run hr => ?_
  split
  next starting => exact advancing_performs hr (.listens (.listens starting)) nofun
  next backingOff =>
    split
    next time => exact advancing_performs hr (.listens (.resumes backingOff time)) nofun
    · exact advancing_none
  · exact advancing_none

theorem advancing_listenerQuits (k : Listener) :
    t.Advancing (.quit (.listener r k)) (t.listenerQuits r k) := by
  refine advancing_bind fun run hr => ?_
  split
  next h => exact advancing_performs hr (.listens (.quits h.2)) nofun
  · exact advancing_none

theorem advancing_hangUp (k : Listener) (error? : Option SourceError) :
    t.Advancing (.hangUp r k error?) (t.hangUp r k error?) := by
  refine advancing_bind fun run hr => ?_
  split
  next listening => exact advancing_performs hr (.listens (.hungUp error? listening)) nofun
  · exact advancing_none

theorem advancing_receive (e : Event) : t.Advancing (.receive r e) (t.receive r e) := by
  refine advancing_bind fun run hr => ?_
  split
  · exact advancing_performs hr (.receives e) nofun
  · exact advancing_none

theorem advancing_routerProceeds (s : EventStream) :
    t.Advancing (.proceed (.router r s)) (t.routerProceeds r s) := by
  refine advancing_bind fun run hr => ?_
  split
  · split
    next ready => exact advancing_performs hr (.opens s ready) nofun
    · exact advancing_none
  next routing =>
    unfold routeNext
    split
    next e rest inbox => exact advancing_some (.performs hr nofun (.routes routing inbox))
    · split
      · exact advancing_performs hr (.routerEnds s (.inl rfl)) nofun
      · exact advancing_none
  · exact advancing_none

theorem advancing_routerQuits (s : EventStream) :
    t.Advancing (.quit (.router r s)) (t.routerQuits r s) := by
  refine advancing_bind fun run hr => ?_
  split
  · exact advancing_performs hr (.routerEnds s (.inr rfl)) nofun
  · exact advancing_none

theorem advancing_refreshProceeds :
    t.Advancing (.proceed (.refresh r)) (t.refreshProceeds r) := by
  refine advancing_bind fun run hr => ?_
  split
  next awaiting =>
    split
    next ready => exact advancing_performs hr (.refreshes (.begins awaiting ready)) nofun
    · exact advancing_none
  next checking =>
    split
    next nothing => exact advancing_performs hr (.refreshes (.idles checking nothing)) nofun
    next something =>
      exact advancing_performs hr (.refreshes (.asks checking rfl something)) nofun
  next sleeping =>
    split
    next time => exact advancing_performs hr (.refreshes (.wakes sleeping time)) nofun
    · exact advancing_none
  · exact advancing_none

theorem advancing_refreshQuits : t.Advancing (.quit (.refresh r)) (t.refreshQuits r) := by
  refine advancing_bind fun run hr => ?_
  split
  next h => exact advancing_performs hr (.refreshes (.quits h.2)) nofun
  · exact advancing_none

theorem advancing_refreshHears (a : SourceAnswer) :
    t.Advancing (.hear (.refresh r) a) (t.refreshHears r a) := by
  unfold refreshHears
  split
  · refine advancing_bind fun run hr => ?_
    split
    next prices asking =>
      exact advancing_some (.performs hr nofun (.refreshes (.writes prices asking)))
    next e asking => exact advancing_performs hr (.refreshes (.fails e asking)) nofun
    · exact advancing_none
  · exact advancing_none

theorem advancing_startupProceeds :
    t.Advancing (.proceed (.startup r)) (t.startupProceeds r) := by
  refine advancing_bind fun run hr => ?_
  split
  next hs => exact advancing_some (.fetches hr (.ends hs))
  next hs => exact advancing_some (.fetches hr (.calls hs))
  next m rest book hs =>
    split
    · split
      next desk hd =>
        unfold afterActivation
        split
        next hempty =>
          obtain rfl := List.isEmpty_iff.mp hempty
          exact advancing_some (.fetches hr (.completes hs hd))
        next hmore =>
          have more : rest ≠ [] := fun h => hmore (List.isEmpty_iff.mpr h)
          exact advancing_some (.fetches hr (.activates hs hd more))
      next e he => exact advancing_some (.fetches hr (.retries hs he))
    · exact advancing_none
  next hs =>
    split
    next time => exact advancing_some (.fetches hr (.resumes hs time))
    · exact advancing_none
  next hs =>
    split
    next time => exact advancing_some (.fetches hr (.goesOn hs time))
    · exact advancing_none
  · exact advancing_none

theorem advancing_startupQuits : t.Advancing (.quit (.startup r)) (t.startupQuits r) := by
  refine advancing_bind fun run hr => ?_
  split
  · split
    · exact advancing_none
    · exact advancing_none
    · exact advancing_none
    next going => exact advancing_some (.fetches hr (.quits going))
  · exact advancing_none

theorem advancing_startupHears (a : SourceAnswer) :
    t.Advancing (.hear (.startup r) a) (t.startupHears r a) := by
  unfold startupHears
  split
  · refine advancing_bind fun run hr => ?_
    split
    next book hs => exact advancing_some (.fetches hr (.hears book hs))
    next e hs => exact advancing_some (.fetches hr (.misses e hs))
    · exact advancing_none
  · exact advancing_none

theorem advancing_workerProceeds :
    t.Advancing (.proceed (.worker r)) (t.workerProceeds r) :=
  advancing_bind fun _ _ => advancing_some (.works _ _ (.inl rfl))

theorem advancing_workerQuits : t.Advancing (.quit (.worker r)) (t.workerQuits r) :=
  advancing_bind fun _ _ => advancing_some (.works _ _ (.inr rfl))

end Tasks

/-- **Whatever is not done by a request follows one of the rules.** -/
theorem step_advances (h : t.step l = some (t', fx)) (hl : l.request? = none)
    (other : l ≠ .start ∧ l ≠ .abandon ∧ ∀ q, l ≠ .ask q) : t.Advances l fx t' := by
  cases l with
  | start => exact absurd rfl other.1
  | abandon => exact absurd rfl other.2.1
  | ask q => exact absurd rfl (other.2.2 q)
  | proceed a =>
    cases a with
    | listener r k => exact t.advancing_listenerProceeds r k t' fx h
    | router r s => exact t.advancing_routerProceeds r s t' fx h
    | startup r => exact t.advancing_startupProceeds r t' fx h
    | refresh r => exact t.advancing_refreshProceeds r t' fx h
    | worker i => exact t.advancing_workerProceeds i t' fx h
    | request i => cases hl
  | quit a =>
    cases a with
    | listener r k => exact t.advancing_listenerQuits r k t' fx h
    | router r s => exact t.advancing_routerQuits r s t' fx h
    | startup r => exact t.advancing_startupQuits r t' fx h
    | refresh r => exact t.advancing_refreshQuits r t' fx h
    | worker i => exact t.advancing_workerQuits i t' fx h
    | request i => cases hl
  | hear a answer =>
    cases a with
    | startup r => exact t.advancing_startupHears r answer t' fx h
    | refresh r => exact t.advancing_refreshHears r answer t' fx h
    | request i => cases hl
    | _ => cases h
  | receive r e => exact t.advancing_receive r e t' fx h
  | hangUp r k error? => exact t.advancing_hangUp r k error? t' fx h
  | pass millis nanos => exact advancing_some (.passes _ _) t' fx h

/-- **An answer to a refresh** is taken in by its rules. -/
theorem refreshes_of_hear {a : SourceAnswer} (h : t.step (.hear (.refresh r) a) = some (t', fx)) :
    ∃ run stage d', t.run? r = some run ∧
      t.Refreshes r run (.hear (.refresh r) a) fx stage d' ∧
      t' = { t.setRun r { run with refresh := stage } with desk := d' } := by
  have advances := step_advances h rfl ⟨nofun, nofun, nofun⟩
  clear h
  cases advances with
  | performs hr _ performs =>
    cases performs with
    | listens h => cases h
    | routerEnds s own => rcases own with own | own <;> cases own
    | refreshes h =>
      cases h with
      | writes prices asking => exact ⟨_, _, _, hr, .writes prices asking, rfl⟩
      | fails e asking => exact ⟨_, _, _, hr, .fails e asking, rfl⟩
  | fetches hr h => cases h
  | works i act own => rcases own with own | own <;> cases own

/-- Requests ask for no prices. -/
theorem Goes.asksNoPrices {i : ℕ} {s : RequestStage} (h : t.Goes i s l fx t') (a : Actor)
    (ms : List MarketId) : .called a (.prices ms) ∉ fx := by
  cases h <;> simp

/-- **Whoever asks for prices** is the refresh of a run, and asks for those of the markets that are
due. -/
theorem step_prices {a : Actor} {ms : List MarketId} (h : t.step l = some (t', fx))
    (hcall : .called a (.prices ms) ∈ fx) :
    ∃ r run, t.run? r = some run ∧ run.refresh = .checking ∧ a = .refresh r ∧
      ms = t.dueMarkets.map (·.1) ∧ t.dueMarkets ≠ [] := by
  cases step_happens h with
  | goes hl hs goes => exact absurd hcall (goes.asksNoPrices a ms)
  | asks asks => cases asks <;> simp at hcall
  | tends hl other =>
    cases step_advances h hl other with
    | performs hr _ performs =>
      cases performs with
      | listens listens => exact (listens.mute _ hcall).elim
      | refreshes refreshes =>
        cases refreshes with
        | asks checking found something =>
          obtain ⟨rfl, hms⟩ := TrackerEffect.called.inj (List.mem_singleton.mp hcall)
          subst found
          exact ⟨_, _, hr, checking, rfl, SourceCall.prices.inj hms, something⟩
        | _ => simp at hcall
      | _ => simp at hcall
    | fetches hr fetches =>
      obtain ⟨-, m, hm⟩ := fetches.called hcall
      cases hm
    | works | passes => simp at hcall
  | _ => simp at hcall

/-! ### Runs -/

/-- **What a step can do to a run.** -/
inductive Changes (t : Tracker) (r : ℕ) (run : Run) (fx : List TrackerEffect) : Run → Prop where
  | stays : Changes t r run fx run
  | cancelled : Changes t r run fx { run with isCancelled := true }
  | performs {run' : Run} {l : Label} {d' : Desk} (h : t.Performs r run l fx run' d') :
      Changes t r run fx run'
  | fetches (stage : StartupStage) : Changes t r run fx { run with startup := stage }

/-- **A run was there before a step,** or begins with it. -/
theorem step_changes {run' : Run} (h : t.step l = some (t', fx)) (hr' : t'.run? r = some run') :
    (∃ run, t.run? r = some run ∧ t.Changes r run fx run') ∨
      t.run = none ∧ t' = t.started ∧ r = t.runs.length ∧
        run' = .begin t.config.markets t.config.tradeRefresh.enabled := by
  have cancel : ∀ {r₀}, (t.cancelRun r₀).run? r = some run' →
      ∃ run, t.run? r = some run ∧ t.Changes r run fx run' := by
    intro r₀ hr'
    rw [run?_cancelRun] at hr'
    obtain ⟨run, hr, rfl⟩ := Option.map_eq_some_iff.mp hr'
    refine ⟨run, hr, ?_⟩
    split
    · exact .cancelled
    · exact .stays
  cases step_happens h with
  | starts idle =>
    rcases eq_or_getElem?_of_concat hr' with ⟨hlength, hbegin⟩ | hr
    · exact .inr ⟨idle, rfl, hlength, hbegin⟩
    · exact .inl ⟨run', hr, .stays⟩
  | goesOn => exact .inl ⟨run', hr', .stays⟩
  | abandonsNothing => exact .inl ⟨run', hr', .stays⟩
  | abandons => exact .inl (cancel hr')
  | asks asks =>
    cases asks with
    | stops => exact .inl (cancel hr')
    | _ => exact .inl ⟨run', hr', .stays⟩
  | goes hl hs goes =>
    rw [Tracker.run?, goes.rest.2.2.1] at hr'
    exact .inl ⟨run', hr', .stays⟩
  | tends hl other _ =>
    refine .inl ?_
    cases step_advances h hl other with
    | performs hr _ performs =>
      rcases eq_or_getElem?_of_set hr' with ⟨rfl, rfl⟩ | ⟨-, hr'⟩
      · exact ⟨_, hr, .performs performs⟩
      · exact ⟨run', hr', .stays⟩
    | fetches hr fetches =>
      rw [Tracker.run?, fetches.rest.2.2.2.2.1] at hr'
      rcases eq_or_getElem?_of_set hr' with ⟨rfl, rfl⟩ | ⟨-, hr'⟩
      · exact ⟨_, hr, .fetches _⟩
      · exact ⟨run', hr', .stays⟩
    | works => exact ⟨run', hr', .stays⟩
    | passes => exact ⟨run', hr', .stays⟩

end Tracker

end LiveBook
