import LiveBook.Proofs.Tracker.Rules

/-!
# What is done at the desk by whom

Tasks and workers come to the desk without being asked: a router brings an event, a startup
activates a market, a refresh writes the prices that it has got, and a worker does its work. Which
of them it is can be read off the label of a step, and with it the desk that comes of it
(`LiveBook.Tracker.step_handles`). The rules of requests say the same of these
(`LiveBook.Tracker.Goes`).
-/

namespace LiveBook

namespace Tracker

variable {t t' : Tracker} {r : ℕ} {l : Label} {fx : List TrackerEffect}

/-- **What tasks and workers do at the desk,** with the desk that comes of it. -/
inductive Handles (t : Tracker) : Label → List TrackerEffect → Desk → Prop where
  /-- Nothing is done there. -/
  | rests {l : Label} {fx : List TrackerEffect} (hidden : fx.filterMap TrackerEffect.act? = [])
      (silent : ∀ r prices, l ≠ .hear (.refresh r) (.prices (.ok prices))) : Handles t l fx t.desk
  | routes {r : ℕ} {s : EventStream} {run : Run} {e : Event} {rest : List Event}
      (hr : t.run? r = some run) (inbox : run.inbox.get s = e :: rest) :
      Handles t (.proceed (.router r s)) [.routed r e (t.desk.route e t.now).2]
        (t.desk.route e t.now).1
  | activates {r : ℕ} {run : Run} {m : MarketId} {rest : List MarketId} {book : Snapshot}
      {d' : Desk} (hr : t.run? r = some run) (locking : run.startup = .locking m rest book)
      (hd : t.desk.activate m book r run.isCancelled t.config.recentDiffs = .ok d') :
      Handles t (.proceed (.startup r)) [] d'
  | refreshes {r : ℕ} {run : Run} {due : List (MarketId × ℕ)} (prices : Table MarketId Decimal)
      (hr : t.run? r = some run) (asking : run.refresh = .asking due) :
      Handles t (.hear (.refresh r) (.prices (.ok prices))) [] (t.desk.refresh due prices t.now)
  | works {i : ℕ} {d' : Desk} {act : WorkerAct}
      (h : t.desk.work i t.config.workerBackoff t.clock t.now = some (d', act)) :
      Handles t (.proceed (.worker i)) [.worked i act] d'
  | quits {i : ℕ} {d' : Desk} (h : t.desk.workerQuits i = some d') :
      Handles t (.quit (.worker i)) [.worked i .ended] d'

/-- Whatever comes of it is one of these. -/
def Handling (t : Tracker) (l : Label) (o : Outcome) : Prop :=
  ∀ t' fx, o = some (t', fx) → t.Handles l fx t'.desk

theorem handling_none : t.Handling l none := fun _ _ h => by cases h

theorem handling_some {d' : Desk} (h : t.Handles l fx d') (hd : t'.desk = d') :
    t.Handling l (some (t', fx)) := by
  intro t'' fx' heq
  obtain ⟨rfl, rfl⟩ := Prod.mk.inj (Option.some.inj heq)
  exact hd ▸ h

theorem handling_bind {α : Type} {o : Option α} {f : α → Outcome}
    (h : ∀ a, o = some a → t.Handling l (f a)) : t.Handling l (o >>= f) := by
  cases o with
  | none => exact handling_none
  | some a => exact h a rfl

/-- Nothing is done at the desk. -/
theorem handling_rest (hd : t'.desk = t.desk) (hidden : fx.filterMap TrackerEffect.act? = [])
    (silent : ∀ r prices, l ≠ .hear (.refresh r) (.prices (.ok prices))) :
    t.Handling l (some (t', fx)) :=
  handling_some (.rests hidden silent) hd

section Tasks

variable (t r)

theorem handling_listenerProceeds (k : Listener) :
    t.Handling (.proceed (.listener r k)) (t.listenerProceeds r k) := by
  refine handling_bind fun run hr => ?_
  split
  · exact handling_rest rfl rfl nofun
  · split
    · exact handling_rest rfl rfl nofun
    · exact handling_none
  · exact handling_none

theorem handling_routerProceeds (s : EventStream) :
    t.Handling (.proceed (.router r s)) (t.routerProceeds r s) := by
  refine handling_bind fun run hr => ?_
  split
  · split
    · exact handling_rest rfl rfl nofun
    · exact handling_none
  · unfold routeNext
    split
    next e rest inbox => exact handling_some (.routes hr inbox) rfl
    · split
      · exact handling_rest rfl rfl nofun
      · exact handling_none
  · exact handling_none

theorem handling_startupProceeds : t.Handling (.proceed (.startup r)) (t.startupProceeds r) := by
  refine handling_bind fun run hr => ?_
  split
  · exact handling_rest rfl rfl nofun
  · exact handling_rest rfl rfl nofun
  next m rest book locking =>
    split
    · split
      next desk hd =>
        obtain ⟨stage, ready, -, -, -, heq⟩ := t.afterActivation_eq desk r run rest
        rw [heq]
        exact handling_some (.activates hr locking hd) rfl
      · exact handling_rest rfl rfl nofun
    · exact handling_none
  · split
    · exact handling_rest rfl rfl nofun
    · exact handling_none
  · split
    · exact handling_rest rfl rfl nofun
    · exact handling_none
  · exact handling_none

theorem handling_refreshProceeds : t.Handling (.proceed (.refresh r)) (t.refreshProceeds r) := by
  refine handling_bind fun run hr => ?_
  split
  · split
    · exact handling_rest rfl rfl nofun
    · exact handling_none
  · split
    · exact handling_rest rfl rfl nofun
    · exact handling_rest rfl rfl nofun
  · split
    · exact handling_rest rfl rfl nofun
    · exact handling_none
  · exact handling_none

theorem handling_refreshHears (a : SourceAnswer) :
    t.Handling (.hear (.refresh r) a) (t.refreshHears r a) := by
  unfold refreshHears
  split
  · refine handling_bind fun run hr => ?_
    split
    next due prices asking => exact handling_some (.refreshes prices hr asking) rfl
    · exact handling_rest rfl rfl nofun
    · exact handling_none
  · exact handling_none

theorem handling_startupHears (a : SourceAnswer) :
    t.Handling (.hear (.startup r) a) (t.startupHears r a) := by
  unfold startupHears
  split
  · refine handling_bind fun run hr => ?_
    split
    · exact handling_rest rfl rfl nofun
    · exact handling_rest rfl rfl nofun
    · exact handling_none
  · exact handling_none

theorem handling_startupQuits : t.Handling (.quit (.startup r)) (t.startupQuits r) := by
  refine handling_bind fun run hr => ?_
  split
  · split
    · exact handling_none
    · exact handling_none
    · exact handling_none
    · exact handling_rest rfl rfl nofun
  · exact handling_none

/-- What only looks at the run and changes it. -/
theorem handling_run {p : Run → Prop} [DecidablePred p] {f : Run → Tracker × List TrackerEffect}
    (hd : ∀ run, (f run).1.desk = t.desk)
    (hidden : ∀ run, (f run).2.filterMap TrackerEffect.act? = [])
    (silent : ∀ r prices, l ≠ .hear (.refresh r) (.prices (.ok prices))) :
    t.Handling l (do
      let run ← t.run? r
      if p run then some (f run) else none) := by
  refine handling_bind fun run _ => ?_
  split
  · exact handling_rest (hd run) (hidden run) silent
  · exact handling_none

theorem handling_workerProceeds : t.Handling (.proceed (.worker r)) (t.workerProceeds r) :=
  handling_bind fun _ h => handling_some (.works h) rfl

theorem handling_workerQuits : t.Handling (.quit (.worker r)) (t.workerQuits r) :=
  handling_bind fun _ h => handling_some (.quits h) rfl

end Tasks

/-- **Whatever is not done by a request is one of these.** -/
theorem step_handles (h : t.step l = some (t', fx)) (hl : l.request? = none)
    (other : l ≠ .start ∧ l ≠ .abandon ∧ ∀ q, l ≠ .ask q) : t.Handles l fx t'.desk := by
  cases l with
  | start => exact absurd rfl other.1
  | abandon => exact absurd rfl other.2.1
  | ask q => exact absurd rfl (other.2.2 q)
  | proceed a =>
    cases a with
    | listener r k => exact t.handling_listenerProceeds r k t' fx h
    | router r s => exact t.handling_routerProceeds r s t' fx h
    | startup r => exact t.handling_startupProceeds r t' fx h
    | refresh r => exact t.handling_refreshProceeds r t' fx h
    | worker i => exact t.handling_workerProceeds i t' fx h
    | request i => cases hl
  | quit a =>
    cases a with
    | listener r k => exact t.handling_run r (fun _ => rfl) (fun _ => rfl) (by simp) t' fx h
    | router r s => exact t.handling_run r (fun _ => rfl) (fun _ => rfl) (by simp) t' fx h
    | startup r => exact t.handling_startupQuits r t' fx h
    | refresh r => exact t.handling_run r (fun _ => rfl) (fun _ => rfl) (by simp) t' fx h
    | worker i => exact t.handling_workerQuits i t' fx h
    | request i => cases hl
  | hear a answer =>
    cases a with
    | startup r => exact t.handling_startupHears r answer t' fx h
    | refresh r => exact t.handling_refreshHears r answer t' fx h
    | request i => cases hl
    | _ => cases h
  | receive r e => exact t.handling_run r (fun _ => rfl) (fun _ => rfl) (by simp) t' fx h
  | hangUp r k error? => exact t.handling_run r (fun _ => rfl) (fun _ => rfl) (by simp) t' fx h
  | pass millis nanos =>
    obtain ⟨rfl, rfl⟩ := Prod.mk.inj (Option.some.inj h)
    exact .rests rfl nofun

/-- Requests bring no events and are no workers. -/
theorem Goes.hidden {i : ℕ} {s : RequestStage} (h : t.Goes i s l fx t') :
    fx.filterMap TrackerEffect.act? = [] := by
  cases h <;> rfl

end Tracker

end LiveBook
