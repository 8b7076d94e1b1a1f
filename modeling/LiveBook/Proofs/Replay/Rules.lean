import LiveBook.Proofs.Desk.Staff
import LiveBook.Proofs.Tracker.Rules

/-!
# A tracker of which nothing is asked

A tracker that was started once, and of which nothing was asked since, has one run, which is not
cancelled (`LiveBook.Tracker.Sole`). Then no task quits and no market comes or goes, so that little
is left that can happen: events come in and are routed, workers go on, and the startup gives each
market its first book.

* `LiveBook.Tracker.Stirs` – what such a tracker does in one step, as far as events, first books
  and workers are concerned;
* `LiveBook.Tracker.Sole.stirs` – every step but the receipt of an event follows one of these rules;
* `LiveBook.Tracker.Sole.receives` – and what the receipt does.
-/

namespace LiveBook

/-- A book is asked for, or prices are. -/
def SourceCall.IsQuery : SourceCall → Prop
  | .book _ | .prices _ => True
  | .subscribe _ | .unsubscribe _ => False

/-- An effect that does not show anything of the desk, and asks for no subscription. -/
def TrackerEffect.IsQuiet (e : TrackerEffect) : Prop :=
  e.act? = none ∧ ∀ a call, e = .called a call → call.IsQuery

namespace Tracker

variable {t t' : Tracker} {run : Run} {r : ℕ} {a : Actor} {l : Label}
  {fx : List TrackerEffect}

/-- **A tracker that was started once**, and of which nothing was asked since. -/
structure Sole (t : Tracker) (run : Run) : Prop where
  runs : t.runs = [run]
  going : run.isCancelled = false
  unasked : t.requests = []

/-- A label of tasks, workers, the source or the time. -/
def Label.IsInner : Label → Prop
  | .start | .abandon | .ask _ => False
  | _ => True

/-- **What such a tracker does in one step.** -/
inductive Stirs (t : Tracker) (run : Run) : Label → List TrackerEffect → Tracker → Prop where
  /-- Nothing that concerns events, first books or workers. A router may have been waiting for the
  first books. -/
  | aside {l : Label} {fx : List TrackerEffect} {run' : Run} {d' : Desk} {clock : ℕ} {now : Instant}
      (going : run'.isCancelled = run.isCancelled) (inbox : run'.inbox = run.inbox)
      (startup : run'.startup = run.startup)
      (routers : ∀ s, run'.routers.get s = .routing →
        run.routers.get s = .routing ∨ t.ready.raised = true)
      (minds : t.desk.Minds .rested d') (quiet : ∀ e ∈ fx, e.IsQuiet) :
      Stirs t run l fx { t with runs := [run'], desk := d', clock := clock, now := now }
  | routes {s : EventStream} {e : Event} {rest : List Event}
      (routing : run.routers.get s = .routing) (next : run.inbox.get s = e :: rest) :
      Stirs t run (.proceed (.router 0 s)) [.routed 0 e (t.desk.route e t.now).2]
        { t with
          runs := [{ run with inbox := run.inbox.update s fun _ => rest }]
          desk := (t.desk.route e t.now).1 }
  | works {l : Label} {i : ℕ} {act : WorkerAct} {d' : Desk}
      (minds : t.desk.Minds (.worked i act) d') :
      Stirs t run l [.worked i act] { t with desk := d' }
  /-- The startup goes on with the same markets, and has no book in its hands. -/
  | pauses {l : Label} {fx : List TrackerEffect} {stage : StartupStage} {lock : List Actor}
      (going : run.startup ≠ .ended) (remaining : stage.remaining = run.startup.remaining)
      (empty : ∀ m rest book, stage ≠ .locking m rest book) (quiet : ∀ e ∈ fx, e.IsQuiet) :
      Stirs t run l fx { t with runs := [{ run with startup := stage }], lock := lock }
  | hears {m : MarketId} {rest : List MarketId} {book : Snapshot} {lock : List Actor}
      (fetching : run.startup = .fetching m rest) :
      Stirs t run (.hear (.startup 0) (.book (.ok book))) []
        { t with runs := [{ run with startup := .locking m rest book }], lock := lock }
  | activates {m : MarketId} {rest : List MarketId} {book : Snapshot} {d' : Desk}
      {stage : StartupStage} {ready : ReadySignal} {lock : List Actor}
      (locking : run.startup = .locking m rest book)
      (hd : t.desk.activate m book 0 run.isCancelled t.config.recentDiffs = .ok d')
      (remaining : stage.remaining = rest) (empty : ∀ m rest book, stage ≠ .locking m rest book)
      (hready : stage = .ended ∨ ready = t.ready) :
      Stirs t run (.proceed (.startup 0)) []
        { t with
          runs := [{ run with startup := stage }], desk := d', ready := ready, lock := lock }
  /-- There is no market whose first book is missing. -/
  | readies (none : run.startup = .next []) :
      Stirs t run (.proceed (.startup 0)) []
        { t with runs := [{ run with startup := .ended }], ready := t.ready.raise }

/-- Whatever comes of it follows one of these rules. -/
def Stirring (t : Tracker) (run : Run) (l : Label) (o : Outcome) : Prop :=
  ∀ t' fx, o = some (t', fx) → t.Stirs run l fx t'

theorem stirring_none : t.Stirring run l none := fun _ _ h => by cases h

theorem stirring_some (h : t.Stirs run l fx t') : t.Stirring run l (some (t', fx)) := by
  intro t'' fx' heq
  obtain ⟨rfl, rfl⟩ := Prod.mk.inj (Option.some.inj heq)
  exact h

namespace Sole

theorem run?_eq (h : t.Sole run) (r : ℕ) : t.run? r = if r = 0 then some run else none := by
  rw [Tracker.run?, h.runs]
  cases r with
  | zero => rfl
  | succ r => rfl

theorem setRun_eq (h : t.Sole run) (run' : Run) : t.setRun 0 run' = { t with runs := [run'] } := by
  rw [Tracker.setRun, h.runs]
  rfl

/-- There is only one run that can do anything. -/
theorem stirring_bind (h : t.Sole run) {f : Run → Outcome}
    (hf : r = 0 → t.Stirring run l (f run)) : t.Stirring run l (t.run? r >>= f) := by
  rw [h.run?_eq]
  by_cases hr : r = 0
  · rw [if_pos hr]
    exact hf hr
  · rw [if_neg hr]
    exact stirring_none

/-- A listener comes to another stage. -/
theorem stirring_setListener (h : t.Sole run) (li : Listener) (stage : ListenerStage)
    (quiet : ∀ e ∈ fx, e.IsQuiet) :
    t.Stirring run l (some (t.setListener 0 run li stage, fx)) := by
  rw [Tracker.setListener, h.setRun_eq]
  refine stirring_some (.aside ?_ ?_ ?_ (fun s hs => .inl ?_) .rest quiet)
  all_goals cases li <;> first | rfl | exact hs

theorem stirring_listenerProceeds (h : t.Sole run) (li : Listener) :
    t.Stirring run l (t.listenerProceeds r li) := by
  refine h.stirring_bind fun hr => ?_
  subst hr
  split
  · exact h.stirring_setListener li _ (by simp [TrackerEffect.IsQuiet, TrackerEffect.act?])
  · split
    · exact h.stirring_setListener li _ (by simp)
    · exact stirring_none
  · exact stirring_none

theorem stirring_hangUp (h : t.Sole run) (li : Listener) (error? : Option SourceError) :
    t.Stirring run l (t.hangUp r li error?) := by
  refine h.stirring_bind fun hr => ?_
  subst hr
  split
  · exact h.stirring_setListener li _ (by simp [TrackerEffect.IsQuiet, TrackerEffect.act?])
  · exact stirring_none

theorem stirring_routerProceeds (h : t.Sole run) (s : EventStream) :
    t.Stirring run (.proceed (.router r s)) (t.routerProceeds r s) := by
  refine h.stirring_bind fun hr => ?_
  subst hr
  split
  next waiting =>
    split
    next ready =>
      rw [h.setRun_eq]
      exact stirring_some (.aside rfl rfl rfl (fun _ _ => .inr ready) .rest (by simp))
    · exact stirring_none
  next routing =>
    unfold routeNext
    split
    next e rest next =>
      rw [h.setRun_eq]
      exact stirring_some (.routes routing next)
    next =>
      split
      · rw [h.setRun_eq]
        refine stirring_some (.aside rfl rfl rfl (fun s' hs' => .inl ?_) .rest (by simp))
        by_cases hs : s = s'
        · subst hs
          simp [Run.setRouter] at hs'
        · simpa [Run.setRouter, hs] using hs'
      · exact stirring_none
  · exact stirring_none

/-- The startup comes to another stage, with nothing in its hands. -/
theorem stirring_setStartup (h : t.Sole run) {stage : StartupStage} (going : run.startup ≠ .ended)
    (remaining : stage.remaining = run.startup.remaining)
    (empty : ∀ m rest book, stage ≠ .locking m rest book) (quiet : ∀ e ∈ fx, e.IsQuiet) :
    t.Stirring run l (some (t.setStartup 0 run stage, fx)) := by
  rw [Tracker.setStartup, h.setRun_eq]
  exact stirring_some (.pauses going remaining empty quiet)

/-- A market is activated, and the startup pauses or has done with all markets. -/
theorem stirring_afterActivation (h : t.Sole run) {m : MarketId} {rest : List MarketId}
    {book : Snapshot} {d' : Desk} (hs : run.startup = .locking m rest book)
    (hd : t.desk.activate m book 0 run.isCancelled t.config.recentDiffs = .ok d') :
    t.Stirring run (.proceed (.startup 0))
      (some (({ t with desk := d' }.afterActivation 0 run rest).unlock, [])) := by
  refine stirring_some ?_
  simp only [afterActivation, Tracker.setStartup, Tracker.setRun, h.runs]
  split
  next hrest =>
    have hrest : StartupStage.ended.remaining = rest := (List.isEmpty_iff.mp hrest).symm
    exact .activates hs hd hrest nofun (.inl rfl)
  next =>
    have hrest : (StartupStage.pausing rest (t.clock + t.config.initDelay)).remaining = rest := rfl
    exact .activates hs hd hrest nofun (.inr rfl)

theorem stirring_startupProceeds (h : t.Sole run) :
    t.Stirring run (.proceed (.startup r)) (t.startupProceeds r) := by
  refine h.stirring_bind fun hr => ?_
  subst hr
  split
  next hs =>
    rw [Tracker.setStartup, h.setRun_eq]
    exact stirring_some (.readies hs)
  next hs =>
    refine h.stirring_setStartup (by simp [hs]) (by rw [hs]; rfl) nofun ?_
    simp [TrackerEffect.IsQuiet, TrackerEffect.act?, SourceCall.IsQuery]
  next m rest book hs =>
    split
    · split
      next desk hd => exact h.stirring_afterActivation hs hd
      next e he =>
        rw [retryBook, Tracker.setStartup, h.setRun_eq]
        refine stirring_some (.pauses (by simp [hs]) (by rw [hs]; rfl) nofun ?_)
        simp [TrackerEffect.IsQuiet, TrackerEffect.act?]
    · exact stirring_none
  next m rest due hs =>
    split
    · exact h.stirring_setStartup (by simp [hs]) (by rw [hs]; rfl) nofun (by simp)
    · exact stirring_none
  next rest due hs =>
    split
    · exact h.stirring_setStartup (by simp [hs]) (by rw [hs]; rfl) nofun (by simp)
    · exact stirring_none
  · exact stirring_none

theorem stirring_startupHears (h : t.Sole run) (a : SourceAnswer) :
    t.Stirring run (.hear (.startup r) a) (t.startupHears r a) := by
  unfold startupHears
  split
  · refine h.stirring_bind fun hr => ?_
    subst hr
    split
    next m rest book hs =>
      rw [Tracker.setStartup, h.setRun_eq]
      exact stirring_some (.hears hs)
    next m rest e hs =>
      refine h.stirring_setStartup (by simp [hs]) (by rw [hs]; rfl) nofun ?_
      simp [TrackerEffect.IsQuiet, TrackerEffect.act?]
    · exact stirring_none
  · exact stirring_none

/-- The refresh comes to another stage. -/
theorem stirring_setRefresh (h : t.Sole run) (stage : RefreshStage) {d' : Desk}
    (minds : t.desk.Minds .rested d') (quiet : ∀ e ∈ fx, e.IsQuiet) :
    t.Stirring run l (some ({ t with desk := d' }.setRefresh 0 run stage, fx)) := by
  rw [Tracker.setRefresh, Tracker.setRun, h.runs]
  exact stirring_some (.aside rfl rfl rfl (fun _ hs => .inl hs) minds quiet)

theorem stirring_refreshProceeds (h : t.Sole run) : t.Stirring run l (t.refreshProceeds r) := by
  refine h.stirring_bind fun hr => ?_
  subst hr
  split
  · split
    · exact h.stirring_setRefresh _ .rest (by simp)
    · exact stirring_none
  · split
    · exact h.stirring_setRefresh _ .rest (by simp)
    · refine h.stirring_setRefresh _ .rest ?_
      simp [TrackerEffect.IsQuiet, TrackerEffect.act?, SourceCall.IsQuery]
  · split
    · exact h.stirring_setRefresh _ .rest (by simp)
    · exact stirring_none
  · exact stirring_none

theorem stirring_refreshHears (h : t.Sole run) (a : SourceAnswer) :
    t.Stirring run l (t.refreshHears r a) := by
  unfold refreshHears
  split
  · refine h.stirring_bind fun hr => ?_
    subst hr
    split
    next due prices _ => exact h.stirring_setRefresh _ (.refresh due prices t.now) (by simp)
    · exact h.stirring_setRefresh _ .rest (by simp)
    · exact stirring_none
  · exact stirring_none

theorem stirring_workerProceeds (i : ℕ) : t.Stirring run l (t.workerProceeds i) := by
  intro t' fx h
  obtain ⟨⟨d', act⟩, hd, h⟩ := Option.bind_eq_some_iff.mp h
  obtain ⟨rfl, rfl⟩ := Prod.mk.inj (Option.some.inj h)
  exact .works (.work hd)

theorem stirring_workerQuits (i : ℕ) : t.Stirring run l (t.workerQuits i) := by
  intro t' fx h
  obtain ⟨d', hd, h⟩ := Option.bind_eq_some_iff.mp h
  obtain ⟨rfl, rfl⟩ := Prod.mk.inj (Option.some.inj h)
  exact .works (.quit hd)

/-- Time passes. -/
theorem stirring_pass (h : t.Sole run) (millis nanos : ℕ) :
    t.Stirring run l (t.step (.pass millis nanos)) := by
  have hrun : { t with clock := t.clock + millis, now := t.now + nanos } =
      { t with runs := [run], clock := t.clock + millis, now := t.now + nanos } := by
    rw [← h.runs]
  rw [step, hrun]
  exact stirring_some (.aside rfl rfl rfl (fun _ hs => .inl hs) .rest (by simp))

/-- There is no request. -/
theorem request?_eq_none (h : t.Sole run) (i : ℕ) : t.request? i = none := by
  rw [Tracker.request?, h.unasked]
  rfl

/-- Only workers quit, as the run is not cancelled. -/
theorem quit_eq (h : t.Sole run) (hq : t.quit a = some (t', fx)) : ∃ i, a = .worker i := by
  have hrun : ∀ (r : ℕ) {f : Run → Outcome}, f run = none → (t.run? r >>= f) = none := by
    intro r f hf
    rw [h.run?_eq]
    split
    · exact hf
    · rfl
  have hgoing : ¬(run.isCancelled = true) := by simp [h.going]
  cases a with
  | listener r li => cases hq.symm.trans (hrun r (if_neg fun hc => hgoing hc.1))
  | router r s => cases hq.symm.trans (hrun r (if_neg fun hc => hgoing hc.1))
  | startup r => cases hq.symm.trans (hrun r (if_neg hgoing))
  | refresh r => cases hq.symm.trans (hrun r (if_neg fun hc => hgoing hc.1))
  | worker i => exact ⟨i, rfl⟩
  | request i =>
    rw [Tracker.quit, requestQuits, h.request?_eq_none] at hq
    cases hq

/-- **Every step but the receipt of an event follows one of the rules.** -/
theorem stirs (h : t.Sole run) (hl : l.IsInner) (hreceive : ∀ r e, l ≠ .receive r e)
    (hstep : t.step l = some (t', fx)) : t.Stirs run l fx t' := by
  cases l with
  | proceed a =>
    cases a with
    | listener r li => exact h.stirring_listenerProceeds li t' fx hstep
    | router r s => exact h.stirring_routerProceeds s t' fx hstep
    | startup r => exact h.stirring_startupProceeds t' fx hstep
    | refresh r => exact h.stirring_refreshProceeds t' fx hstep
    | worker i => exact stirring_workerProceeds i t' fx hstep
    | request i =>
      rw [step, Tracker.proceed, requestProceeds, h.request?_eq_none] at hstep
      cases hstep
  | quit a =>
    obtain ⟨i, rfl⟩ := h.quit_eq hstep
    exact stirring_workerQuits i t' fx hstep
  | hear a answer =>
    cases a with
    | startup r => exact h.stirring_startupHears answer t' fx hstep
    | refresh r => exact h.stirring_refreshHears answer t' fx hstep
    | request i =>
      rw [step, Tracker.hear, requestHears, h.request?_eq_none] at hstep
      cases hstep
    | _ => cases hstep
  | hangUp r li error? => exact h.stirring_hangUp li error? t' fx hstep
  | pass millis nanos => exact h.stirring_pass millis nanos t' fx hstep
  | receive r e => exact absurd rfl (hreceive r e)
  | _ => exact absurd hl id

/-- An event that comes in goes to the end of the inbox of its stream. -/
theorem receives (h : t.Sole run) {e : Event} (hstep : t.step (.receive r e) = some (t', fx)) :
    fx = [] ∧ t' = { t with
      runs := [{ run with inbox := run.inbox.update e.stream fun es => es ++ [e] }] } := by
  obtain ⟨run', hr, hstep⟩ := Option.bind_eq_some_iff.mp hstep
  rw [h.run?_eq] at hr
  split at hr
  next hzero =>
    obtain rfl := Option.some.inj hr
    subst hzero
    split at hstep
    · rw [h.setRun_eq] at hstep
      obtain ⟨rfl, rfl⟩ := Prod.mk.inj (Option.some.inj hstep)
      exact ⟨rfl, rfl⟩
    · cases hstep
  · cases hr

end Sole

/-- It asks for no subscription. -/
theorem Stirs.queries (h : t.Stirs run l fx t') :
    ∀ e ∈ fx, ∀ a call, e = .called a call → call.IsQuery := by
  cases h with
  | aside _ _ _ _ _ quiet => exact fun e he => (quiet e he).2
  | pauses _ _ _ quiet => exact fun e he => (quiet e he).2
  | _ => simp

/-- Tasks, workers and the source start and stop nothing. -/
theorem Happens.run_eq (h : t.Happens l fx t') (hl : l.IsInner) :
    t'.config = t.config ∧ t'.run = t.run := by
  cases h with
  | goes _ _ h => exact ⟨h.rest.1, h.rest.2.1⟩
  | tends _ _ h => exact ⟨h.rest.1, h.rest.2.1⟩
  | _ => exact absurd hl id

end Tracker

end LiveBook
