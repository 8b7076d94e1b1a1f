import LiveBook.Proofs.Tracker.Gate
import LiveBook.Proofs.Tracker.Restarting
import Mathlib.Data.List.Nodup

/-!
# How a run starts up

A run fetches the first books of the configured markets one by one, in their order. A book that
cannot be had or used is fetched again after a while, and the next market has to wait until the one
before is active. Only then the ready signal is raised.

What a startup comes past on its way are its milestones (`LiveBook.Milestone`), each with the time
at which it does.

* `LiveBook.Itinerary` – the milestones a startup may come past, one after the other;
* `LiveBook.Tracker.Paces` – how the stage of a startup goes together with its milestones, and
  `LiveBook.Tracker.Fetches.paces`, that each of its rules keeps this;
* `LiveBook.Tracker.startsUp_of_begins` – **whatever happens after a run has begun**, it starts up
  like this, and nobody passes the ready signal before.
-/

namespace LiveBook

/-! ### Milestones -/

/-- **A milestone of a startup.** -/
inductive Milestone where
  /-- The first book of a market was asked for. -/
  | fetched (m : MarketId)
  /-- The book that was asked for could not be had, or not be used. -/
  | failed
  /-- A market was activated. -/
  | activated (m : MarketId)
deriving DecidableEq

/-- How long a startup rests after a milestone. -/
def Milestone.rest (c : TrackerConfig) : Milestone → ℕ
  | .fetched _ => 0
  | .failed => c.workerBackoff
  | .activated _ => c.initDelay

/-- The market that was activated, if any. -/
def Milestone.activated? : Milestone → Option MarketId
  | .activated m => some m
  | _ => none

/-- The markets that were activated, with the milestones and their times. -/
def activated (log : List (Milestone × ℕ)) : List MarketId := log.filterMap (·.1.activated?)

@[simp] theorem activated_nil : activated [] = [] := rfl

@[simp] theorem activated_snoc (log : List (Milestone × ℕ)) (e : Milestone × ℕ) :
    activated (log ++ [e]) = activated log ++ e.1.activated?.toList := by
  unfold activated
  rw [List.filterMap_append]
  cases h : e.1.activated? <;> simp [h]

/-- **What may come next**, once these markets were activated and a startup awaits the book of a
market, or none; and whose book it awaits then. -/
inductive Milestone.Follows (c : TrackerConfig) (done : List MarketId) :
    Option MarketId → Milestone → Option MarketId → Prop where
  /-- The market to fetch is the first one that was not activated yet. -/
  | fetched {m : MarketId} (next : done ++ [m] <+: c.markets) :
      Follows c done none (.fetched m) (some m)
  | failed (m : MarketId) : Follows c done (some m) .failed none
  | activated (m : MarketId) : Follows c done (some m) (.activated m) none

/-- **The milestones that a startup may come past**, one after the other; together with the market
whose book it awaits then, and with the time before which it comes past no other milestone. -/
inductive Itinerary (c : TrackerConfig) : Option MarketId → ℕ → List (Milestone × ℕ) → Prop where
  | begins : Itinerary c none 0 []
  | goesOn {awaited awaited' : Option MarketId} {due τ : ℕ} {log : List (Milestone × ℕ)}
      {e : Milestone} (before : Itinerary c awaited due log)
      (follows : e.Follows c (activated log) awaited awaited') (time : due ≤ τ) :
      Itinerary c awaited' (τ + e.rest c) (log ++ [(e, τ)])

/-- What is in a list with one more element is the last one, or was there before. -/
theorem eq_or_of_concat_eq {α : Type} {l l₁ l₂ : List α} {a b : α}
    (h : l ++ [a] = l₁ ++ b :: l₂) : l = l₁ ∧ a = b ∨ ∃ l₂', l = l₁ ++ b :: l₂' := by
  rcases List.eq_nil_or_concat' l₂ with rfl | ⟨l₂', c, rfl⟩
  · obtain ⟨hl, ha⟩ := List.append_inj' h rfl
    exact .inl ⟨hl, List.singleton_inj.mp ha⟩
  · have hlast : l ++ [a] = (l₁ ++ b :: l₂') ++ [c] := by simpa using h
    exact .inr ⟨l₂', (List.append_inj' hlast rfl).1⟩

namespace Itinerary

variable {c : TrackerConfig} {log older newer : List (Milestone × ℕ)} {m : MarketId}
  {awaited : Option MarketId} {due τ : ℕ}

/-- The markets are activated in their order. -/
theorem inOrder (h : Itinerary c awaited due log) :
    activated log ++ awaited.toList <+: c.markets := by
  induction h with
  | begins => simp
  | @goesOn _ _ due τ log e before follows time ih =>
    rw [activated_snoc]
    cases follows with
    | fetched next => simpa [Milestone.activated?] using next
    | failed m =>
      have done : activated log <+: c.markets := (List.prefix_append _ [m]).trans ih
      simpa [Milestone.activated?] using done
    | activated m => simpa [Milestone.activated?] using ih

/-- No market is activated twice. -/
theorem nodup (h : Itinerary c awaited due log) (distinct : c.markets.Nodup) :
    (activated log).Nodup :=
  distinct.sublist ((List.prefix_append _ _).trans h.inOrder).sublist

/-- **A market is fetched when exactly those before it were activated.** -/
theorem fetched (h : Itinerary c awaited due log)
    (hlog : log = older ++ (.fetched m, τ) :: newer) : activated older ++ [m] <+: c.markets := by
  induction h generalizing newer with
  | begins => simp at hlog
  | goesOn before follows time ih =>
    rcases eq_or_of_concat_eq hlog with ⟨rfl, he⟩ | ⟨newer', hlog'⟩
    · cases he
      cases follows with
      | fetched next => exact next
    · exact ih hlog'

/-- **Between a milestone and the next one,** a startup rests as long as it should. -/
theorem rests (h : Itinerary c awaited due log) :
    (log.Pairwise fun e e' => e.2 + e.1.rest c ≤ e'.2) ∧ ∀ e ∈ log, e.2 + e.1.rest c ≤ due := by
  induction h with
  | begins => exact ⟨.nil, by simp⟩
  | @goesOn _ _ due τ log e before follows time ih =>
    obtain ⟨rests, past⟩ := ih
    have past' : ∀ e' ∈ log, e'.2 + e'.1.rest c ≤ τ := fun e' he' => (past e' he').trans time
    refine ⟨List.pairwise_append.mpr ⟨rests, List.pairwise_singleton _ _, ?_⟩, ?_⟩
    · intro e' he' last hlast
      rw [List.mem_singleton.mp hlast]
      exact past' e' he'
    · intro e' he'
      rcases List.mem_append.mp he' with he' | he'
      · exact (past' e' he').trans (Nat.le_add_right _ _)
      · rw [List.mem_singleton.mp he']

end Itinerary

namespace Tracker

variable {r : ℕ} {x : Move}

/-- The milestone of a startup that an effect tells of, if any. -/
def milestone? (r : ℕ) : TrackerEffect → Option Milestone
  | .called (.startup r') (.book m) => if r' = r then some (.fetched m) else none
  | .failed (.startup r') _ => if r' = r then some .failed else none
  | _ => none

theorem milestone?_called (r : ℕ) (m : MarketId) :
    milestone? r (.called (.startup r) (.book m)) = some (.fetched m) :=
  if_pos rfl

theorem milestone?_failed (r : ℕ) (cause : TrackerError) :
    milestone? r (.failed (.startup r) cause) = some .failed :=
  if_pos rfl

namespace Move

/-- The configured markets that a startup activates with a move. -/
def activates (r : ℕ) (x : Move) : List MarketId :=
  match x.label with
  | .proceed (.startup r') =>
    if r' = r then
      x.before.config.markets.filter fun m =>
        x.before.desk.phase m ≠ .active ∧ x.after.desk.phase m = .active
    else []
  | _ => []

/-- What a startup comes past with a move. -/
def milestones (r : ℕ) (x : Move) : List (Milestone × ℕ) :=
  (x.effects.filterMap (milestone? r) ++ (x.activates r).map Milestone.activated).map
    (·, x.before.clock)

end Move

/-- What a startup comes past with some moves. -/
def milestones (r : ℕ) (xs : List Move) : List (Milestone × ℕ) := xs.flatMap (Move.milestones r)

@[simp] theorem milestones_snoc (r : ℕ) (xs : List Move) (x : Move) :
    milestones r (xs ++ [x]) = milestones r xs ++ x.milestones r := by
  simp [milestones]

namespace Move

/-- Nobody becomes active where the desk stays as it is. -/
theorem activates_of_desk (desk : x.after.desk = x.before.desk) : x.activates r = [] := by
  unfold activates
  split
  · split
    · rw [desk]
      exact List.filter_eq_nil_iff.mpr fun m _ => by simp
    · rfl
  · rfl

theorem milestones_of_desk (desk : x.after.desk = x.before.desk) :
    x.milestones r = (x.effects.filterMap (milestone? r)).map (·, x.before.clock) := by
  rw [milestones, activates_of_desk desk, List.map_nil, List.append_nil]

theorem milestones_of_effect {e : TrackerEffect} {milestone : Milestone}
    (desk : x.after.desk = x.before.desk) (effects : x.effects = [e])
    (he : milestone? r e = some milestone) : x.milestones r = [(milestone, x.before.clock)] := by
  simp [milestones_of_desk desk, effects, he]

theorem milestones_of_silent (desk : x.after.desk = x.before.desk)
    (silent : ∀ e ∈ x.effects, milestone? r e = none) : x.milestones r = [] := by
  rw [milestones_of_desk desk, List.filterMap_eq_nil_iff.mpr silent, List.map_nil]

/-- **The startup activates one market**, the one whose first book it brings to the desk. -/
theorem activates_of_activate {book : Snapshot} {isCancelled : Bool} {window : ℕ} {m : MarketId}
    (hl : x.label = .proceed (.startup r))
    (hd : x.before.desk.activate m book r isCancelled window = .ok x.after.desk)
    (hm : m ∈ x.before.config.markets) (distinct : x.before.config.markets.Nodup)
    (new : x.before.desk.phase m ≠ .active) : x.activates r = [m] := by
  have only (m' : MarketId) :
      x.before.desk.phase m' ≠ .active ∧ x.after.desk.phase m' = .active ↔ m' = m := by
    rw [Desk.phase_activate hd]
    split
    next heq => simp [← heq, new]
    next hne => simp [Ne.symm hne]
  simp only [activates, hl, if_true, only]
  rw [List.filter_eq, List.count_eq_one_of_mem distinct hm, List.replicate_one]

theorem milestones_of_activates {m : MarketId} (effects : x.effects = [])
    (activates : x.activates r = [m]) : x.milestones r = [(.activated m, x.before.clock)] := by
  rw [milestones, effects, activates]
  rfl

end Move

end Tracker

/-! ### Stages -/

/-- The market whose book a startup awaits. -/
def StartupStage.awaited : StartupStage → Option MarketId
  | .fetching m _ | .locking m _ _ => some m
  | _ => none

/-- When a startup may come past its next milestone, seen from a time. -/
def StartupStage.due (clock : ℕ) : StartupStage → ℕ
  | .backingOff _ _ due | .pausing _ due => due
  | _ => clock

theorem StartupStage.due_mono (stage : StartupStage) {clock clock' : ℕ} (h : clock ≤ clock') :
    stage.due clock ≤ stage.due clock' := by
  cases stage <;> simp [due, h]

namespace Tracker

variable {c : TrackerConfig} {clock clock' : ℕ} {ready ready' : Bool}
  {log new : List (Milestone × ℕ)} {stage stage' : StartupStage} {t t' : Tracker} {r r' : ℕ}
  {l : Label} {fx : List TrackerEffect} {run : Run} {x : Move} {xs : List Move}

/-- **How the stage of a startup goes together with its milestones**, at some time. -/
structure Paces (c : TrackerConfig) (clock : ℕ) (ready : Bool) (log : List (Milestone × ℕ))
    (stage : StartupStage) : Prop where
  itinerary : ∃ awaited due, Itinerary c awaited due log ∧ (stage ≠ .ended →
    activated log ++ stage.remaining = c.markets ∧ awaited = stage.awaited ∧ due ≤ stage.due clock)
  /-- Once the ready signal is raised, everything is done. -/
  ready : ready = true → stage = .ended ∧ activated log = c.markets

namespace Paces

/-- The markets that remain are the last ones of the configuration. -/
theorem remaining (h : Paces c clock ready log stage) (going : stage ≠ .ended) :
    activated log ++ stage.remaining = c.markets := by
  obtain ⟨⟨_, _, -, stands⟩, -⟩ := h
  exact (stands going).1

theorem mono (h : Paces c clock ready log stage) (time : clock ≤ clock')
    (hready : ready' = true → ready = true) : Paces c clock' ready' log stage := by
  obtain ⟨⟨awaited, due, itinerary, stands⟩, done⟩ := h
  refine ⟨⟨awaited, due, itinerary, fun going => ?_⟩, fun h => done (hready h)⟩
  obtain ⟨remaining, hawaited, hdue⟩ := stands going
  exact ⟨remaining, hawaited, hdue.trans (stage.due_mono time)⟩

/-- A startup comes past a milestone. -/
theorem comes {e : Milestone} (h : Paces c clock ready log stage) (hnew : new = [(e, clock)])
    (going : stage ≠ .ended) (now : stage.due clock = clock)
    (follows : e.Follows c (activated log) stage.awaited stage'.awaited)
    (remaining : e.activated?.toList ++ stage'.remaining = stage.remaining)
    (due : stage' ≠ .ended → clock + e.rest c ≤ stage'.due clock)
    (hready : ready' = true → ready = true ∨ stage' = .ended) :
    Paces c clock ready' (log ++ new) stage' := by
  subst hnew
  obtain ⟨⟨awaited, due₀, itinerary, stands⟩, done⟩ := h
  obtain ⟨hremaining, rfl, hdue⟩ := stands going
  have hlog : activated (log ++ [(e, clock)]) ++ stage'.remaining = c.markets := by
    rw [activated_snoc, List.append_assoc, remaining, hremaining]
  refine ⟨⟨_, _, itinerary.goesOn follows (hdue.trans_eq now), fun going' => ?_⟩, fun h => ?_⟩
  · exact ⟨hlog, rfl, due going'⟩
  · rcases hready h with h | rfl
    · exact absurd (done h).1 going
    · exact ⟨rfl, by simpa [StartupStage.remaining] using hlog⟩

/-- A startup goes on without coming past a milestone. -/
theorem goesOn (h : Paces c clock ready log stage) (hnew : new = []) (going : stage ≠ .ended)
    (awaited : stage'.awaited = stage.awaited) (remaining : stage'.remaining = stage.remaining)
    (due : stage.due clock ≤ stage'.due clock)
    (hready : ready' = true → ready = true ∨ stage' = .ended) :
    Paces c clock ready' (log ++ new) stage' := by
  rw [hnew, List.append_nil]
  obtain ⟨⟨_, due₀, itinerary, stands⟩, done⟩ := h
  obtain ⟨hremaining, rfl, hdue⟩ := stands going
  refine ⟨⟨_, _, itinerary, fun _ => ?_⟩, fun h => ?_⟩
  · exact ⟨by rw [remaining, hremaining], awaited.symm, hdue.trans due⟩
  · rcases hready h with h | rfl
    · exact absurd (done h).1 going
    · refine ⟨rfl, ?_⟩
      rw [← hremaining, ← remaining, StartupStage.remaining, List.append_nil]

/-- A startup ends before all is done. -/
theorem quits (h : Paces c clock ready log stage) (going : stage ≠ .ended) :
    Paces c clock ready log .ended := by
  obtain ⟨⟨awaited, due, itinerary, -⟩, done⟩ := h
  exact ⟨⟨awaited, due, itinerary, fun h => absurd rfl h⟩, fun h => absurd (done h).1 going⟩

end Paces

/-- **Every rule of a startup keeps to this.** -/
theorem Fetches.paces (h : x.before.Fetches r run x.label x.effects stage x.after)
    (order : x.before.InOrder) (hr : x.before.run? r = some run)
    (before : Paces x.before.config x.before.clock x.before.ready.raised log run.startup) :
    Paces x.before.config x.before.clock x.after.ready.raised (log ++ x.milestones r) stage := by
  have going := h.going
  have hready : x.after.ready.raised = true → x.before.ready.raised = true ∨ stage = .ended := by
    intro raised
    rcases h.rest.2.2.2.2.2 with same | ⟨ended, -⟩
    · exact .inl (same ▸ raised)
    · exact .inr ended
  have remaining := before.remaining going
  -- a market that remains is one of the configuration, and waits for its book
  have waiting : ∀ {m rest book}, run.startup = .locking m rest book →
      m ∈ x.before.config.markets ∧ x.before.desk.phase m ≠ .active := by
    intro m rest book hs
    have hm : m ∈ run.startup.remaining := by simp [hs, StartupStage.remaining]
    refine ⟨remaining ▸ List.mem_append_right _ hm, ?_⟩
    simp [(order.waiting m ⟨r, run, hr, hm⟩).1]
  obtain ⟨t, l, fx, t', step⟩ := x
  dsimp only at *
  cases h with
  | @calls m rest hs =>
    rw [hs] at before going remaining
    have next : activated log ++ [m] <+: t.config.markets :=
      ⟨rest, by rw [← remaining, List.append_assoc]; rfl⟩
    have new := milestone?_called r m
    exact before.comes (Move.milestones_of_effect rfl rfl new) going rfl (.fetched next) rfl
      (fun _ => le_rfl) hready
  | hears book hs =>
    rw [hs] at before going
    exact before.goesOn (Move.milestones_of_silent rfl (by simp)) going rfl rfl le_rfl hready
  | @misses m rest e hs =>
    rw [hs] at before going
    have new := milestone?_failed r (.source e)
    exact before.comes (Move.milestones_of_effect rfl rfl new) going rfl (.failed m) rfl
      (fun _ => le_rfl) hready
  | @activates m rest book d' hs hd more =>
    obtain ⟨hm, inactive⟩ := waiting hs
    rw [hs] at before going
    exact before.comes (Move.milestones_of_activates rfl
      (Move.activates_of_activate rfl hd hm order.markets inactive)) going rfl (.activated m) rfl
      (fun _ => le_rfl) hready
  | @completes m book d' hs hd =>
    obtain ⟨hm, inactive⟩ := waiting hs
    rw [hs] at before going
    exact before.comes (Move.milestones_of_activates rfl
      (Move.activates_of_activate rfl hd hm order.markets inactive)) going rfl (.activated m) rfl
      (fun h => absurd rfl h) hready
  | @retries m rest book e hs he =>
    rw [hs] at before going
    have new := milestone?_failed r e
    exact before.comes (Move.milestones_of_effect rfl rfl new) going rfl (.failed m) rfl
      (fun _ => le_rfl) hready
  | resumes hs time =>
    rw [hs] at before going
    exact before.goesOn (Move.milestones_of_silent rfl (by simp)) going rfl rfl time hready
  | goesOn hs time =>
    rw [hs] at before going
    exact before.goesOn (Move.milestones_of_silent rfl (by simp)) going rfl rfl time hready
  | ends hs =>
    rw [hs] at before going
    exact before.goesOn (Move.milestones_of_silent rfl (by simp)) going rfl rfl le_rfl hready
  | quits =>
    rw [Move.milestones_of_silent rfl (by simp), List.append_nil]
    exact before.quits going

/-! ### Whatever else happens -/

theorem milestone?_of_isMute {e : TrackerEffect} (mute : e.IsMute) : milestone? r e = none := by
  cases e with
  | called | failed => exact mute.elim
  | _ => rfl

theorem milestone?_of_request {e : TrackerEffect} {i : ℕ} (he : e.request? = some i) :
    milestone? r e = none := by
  unfold milestone?
  split
  · cases he
  · cases he
  · rfl

theorem Refreshes.milestone? {stage : RefreshStage} {d' : Desk}
    (h : t.Refreshes r' run l fx stage d') : ∀ e ∈ fx, Tracker.milestone? r e = none := by
  cases h with
  | asks =>
    intro e he
    rw [List.mem_singleton.mp he]
    rfl
  | _ => simp

theorem Performs.milestone? {run' : Run} {d' : Desk} (h : t.Performs r' run l fx run' d') :
    ∀ e ∈ fx, Tracker.milestone? r e = none := by
  cases h with
  | listens h => exact fun e he => milestone?_of_isMute (h.mute e he)
  | refreshes h => exact h.milestone?
  | routes =>
    intro e he
    rw [List.mem_singleton.mp he]
    rfl
  | _ => simp

theorem Performs.startup {run' : Run} {d' : Desk} (h : t.Performs r run l fx run' d') :
    run'.startup = run.startup := by
  cases h with
  | listens => exact Run.Later.startup_setListener _ _ _
  | _ => rfl

/-- **No startup goes on** with a move. -/
structure Move.Rests (x : Move) : Prop where
  milestones : ∀ r, x.milestones r = []
  config : x.after.config = x.before.config
  clock : x.before.clock ≤ x.after.clock
  startup : ∀ r, (x.after.run? r).map Run.startup = (x.before.run? r).map Run.startup
  ready : x.after.ready.raised = true → x.before.ready.raised = true

theorem Move.milestones_of_other (hl : ∀ r', x.label ≠ .proceed (.startup r'))
    (silent : ∀ e ∈ x.effects, milestone? r e = none) : x.milestones r = [] := by
  have activates : x.activates r = [] := by
    unfold Move.activates
    split
    next r' heq => exact absurd heq (hl r')
    next => rfl
  rw [milestones, activates, List.filterMap_eq_nil_iff.mpr silent]
  rfl

theorem startup_cancelRun (t : Tracker) (r r' : ℕ) :
    ((t.cancelRun r).run? r').map Run.startup = (t.run? r').map Run.startup := by
  rw [run?_cancelRun, Option.map_map]
  congr 1
  funext run
  dsimp only [Function.comp]
  split <;> rfl

theorem startup_setRun {run' : Run} (hr : t.run? r = some run)
    (same : run'.startup = run.startup) (r' : ℕ) :
    ((t.setRun r run').run? r').map Run.startup = (t.run? r').map Run.startup := by
  by_cases heq : r' = r
  · subst heq
    have hself : (t.setRun r' run').run? r' = some run' :=
      List.getElem?_set_self (List.getElem?_eq_some_iff.mp hr).1
    rw [hself, hr, Option.map_some, Option.map_some, same]
  · exact congrArg _ (List.getElem?_set_ne (Ne.symm heq))

/-- **A startup goes on with a move, or none does**, unless a run begins. -/
theorem Move.rests_or_fetches (x : Move) (onward : ¬x.Begins) : x.Rests ∨
    ∃ r run stage, x.before.run? r = some run ∧
      x.before.Fetches r run x.label x.effects stage x.after := by
  obtain ⟨t, l, fx, t', step⟩ := x
  dsimp only
  cases step_happens step with
  | starts idle => exact absurd ⟨rfl, idle⟩ onward
  | goesOn | abandonsNothing =>
    refine .inl ⟨fun r => milestones_of_other (by simp) ?_, rfl, le_rfl, fun r => rfl, id⟩
    simp [milestone?]
  | @abandons r₀ hrun =>
    exact .inl ⟨fun r => milestones_of_other (by simp) (by simp), t.config_cancelRun r₀,
      (t.clock_cancelRun r₀).ge, t.startup_cancelRun r₀, fun h => t.ready_cancelRun r₀ ▸ h⟩
  | asks asks =>
    refine .inl ?_
    cases asks with
    | @stops r₀ hrun =>
      exact ⟨fun r => milestones_of_other (by simp) (by simp), t.config_cancelRun r₀,
        (t.clock_cancelRun r₀).ge, t.startup_cancelRun r₀, fun h => t.ready_cancelRun r₀ ▸ h⟩
    | _ =>
      refine ⟨fun r => milestones_of_other (by simp) ?_, rfl, le_rfl, fun r => rfl, id⟩
      simp [milestone?]
  | @goes i s _ _ _ hl hs goes =>
    obtain ⟨config, -, runs, -⟩ := goes.rest
    obtain ⟨clock, ready⟩ := goes.clock_ready
    refine .inl ⟨fun r => ?_, config, clock.ge, fun r => ?_, ready⟩
    · refine milestones_of_other (fun r' heq => ?_) fun e he =>
        milestone?_of_request (goes.shown e he)
      cases heq
      cases hl
    · simp only [run?, runs]
  | tends hl other tends =>
    cases step_advances step hl other with
    | performs hr hl performs =>
      exact .inl ⟨fun r => milestones_of_other hl performs.milestone?, rfl, le_rfl,
        startup_setRun hr performs.startup, id⟩
    | fetches hr fetches => exact .inr ⟨_, _, _, hr, fetches⟩
    | works i act own =>
      refine .inl ⟨fun r => milestones_of_other (fun r' heq => ?_) (by simp [milestone?]), rfl,
        le_rfl, fun r => rfl, id⟩
      rcases own with rfl | rfl <;> cases heq
    | passes millis nanos =>
      exact .inl ⟨fun r => milestones_of_other (by simp) (by simp), rfl, Nat.le_add_right _ _,
        fun r => rfl, id⟩

/-! ### Since a run has begun -/

/-- **A run is on its way** to be ready, with these milestones behind it. -/
structure Launched (r : ℕ) (log : List (Milestone × ℕ)) (t : Tracker) : Prop where
  /-- The startups of all other runs have ended. -/
  alone : ∀ r' run, t.run? r' = some run → r' ≠ r → run.startup = .ended
  startup : ∃ run, t.run? r = some run ∧
    Paces t.config t.clock t.ready.raised log run.startup

namespace Launched

theorem started (orderly : t.Orderly) (idle : t.run = none) (alone : ¬t.IsStopping) :
    Launched t.runs.length [] t.started where
  alone r' run hr hne := by
    rcases eq_or_getElem?_of_concat hr with ⟨hlength, -⟩ | hr
    · exact absurd hlength hne
    · exact orderly.inOrder.startup_ended idle (fun i hi => alone ⟨i, _, hi⟩) hr
  startup := by
    have lowered : t.started.ready.raised = false := (orderly.atRest idle alone).lowered
    refine ⟨_, List.getElem?_concat_length, ⟨none, 0, .begins, fun _ => ?_⟩, fun raised => ?_⟩
    · exact ⟨rfl, rfl, Nat.zero_le _⟩
    · exact nomatch raised.symm.trans lowered

/-- **Every move keeps a run on its way.** -/
theorem move (h : Launched r log x.before) (order : x.before.InOrder) (onward : ¬x.Begins) :
    Launched r (log ++ x.milestones r) x.after := by
  obtain ⟨run, hr, paces⟩ := h.startup
  rcases x.rests_or_fetches onward with rests | ⟨r', run', stage, hr', fetches⟩
  · rw [rests.milestones, List.append_nil]
    have before : ∀ {r' run'}, x.after.run? r' = some run' →
        ∃ run, x.before.run? r' = some run ∧ run.startup = run'.startup := by
      intro r' run' hr'
      have same := rests.startup r'
      rw [hr'] at same
      exact Option.map_eq_some_iff.mp same.symm
    refine ⟨fun r' run' hr' hne => ?_, ?_⟩
    · obtain ⟨run, hr, same⟩ := before hr'
      exact same ▸ h.alone r' run hr hne
    · have same := rests.startup r
      rw [hr] at same
      obtain ⟨run', hr', same⟩ := Option.map_eq_some_iff.mp same
      refine ⟨run', hr', ?_⟩
      rw [rests.config, same]
      exact paces.mono rests.clock rests.ready
  · -- no other startup can go on
    obtain rfl : r' = r := by
      by_contra hne
      exact fetches.going (h.alone r' run' hr' hne)
    obtain rfl := Option.some.inj (hr.symm.trans hr')
    obtain ⟨config, -, clock, -, runs, -⟩ := fetches.rest
    refine ⟨fun r₁ run₁ hr₁ hne => ?_, ?_⟩
    · rw [run?, runs, List.getElem?_set_ne (Ne.symm hne)] at hr₁
      exact h.alone r₁ run₁ hr₁ hne
    · refine ⟨{ run with startup := stage }, ?_, ?_⟩
      · rw [run?, runs]
        exact List.getElem?_set_self (List.getElem?_eq_some_iff.mp hr).1
      · rw [config, clock]
        exact fetches.paces order hr paces

theorem course {t₀ : Tracker} (h : Launched r [] t₀) (orderly : t₀.Orderly)
    (course : Course t₀ xs t) (onward : ∀ x ∈ xs, ¬x.Begins) :
    Launched r (milestones r xs) t := by
  induction course with
  | nil => exact h
  | @snoc xs x before _ ih =>
    rw [milestones_snoc]
    exact (ih fun y hy => onward y (List.mem_append_left _ hy)).move
      (before.orderly orderly).inOrder (onward x (by simp))

end Launched

/-- **A run starts up** with some moves. -/
structure StartsUp (r : ℕ) (xs : List Move) (t : Tracker) : Prop where
  /-- It comes past one milestone after the other. -/
  itinerary : ∃ awaited due, Itinerary t.config awaited due (milestones r xs)
  /-- A market is fetched when exactly those before it in the configuration were activated. -/
  fetched : ∀ older m τ newer, milestones r xs = older ++ (.fetched m, τ) :: newer →
    activated older ++ [m] <+: t.config.markets
  /-- The book of a market is asked for again no earlier than the backoff after a failure, and that
  of the next market no earlier than the delay after an activation. -/
  rests : (milestones r xs).Pairwise fun e e' => e.2 + e.1.rest t.config ≤ e'.2
  once : (activated (milestones r xs)).Nodup
  /-- The ready signal is raised only after all configured markets were activated. -/
  ready : t.ready.raised = true → activated (milestones r xs) = t.config.markets
  /-- Before that, nobody passes it. -/
  gate : ∀ x ∈ xs, x.before.ready.raised = false → x.Waits

theorem Course.exists_before (h : Course t xs t') (hx : x ∈ xs) : ∃ ys, Course t ys x.before := by
  induction h with
  | nil => cases hx
  | @snoc xs y before orderly ih =>
    rcases List.mem_append.mp hx with hx | hx
    · exact ih hx
    · exact ⟨xs, (List.mem_singleton.mp hx) ▸ before⟩

/-- **Whatever happens after a run has begun**, with no stop in progress, until another one begins:
it starts up as it should. -/
theorem startsUp_of_begins {x₀ : Move} (orderly : x₀.before.Orderly) (begins : x₀.Begins)
    (alone : x₀.IsOrderly) (course : Course x₀.after xs t) (onward : ∀ x ∈ xs, ¬x.Begins) :
    StartsUp x₀.before.runs.length xs t := by
  have orderly' : x₀.after.Orderly := .step orderly alone x₀.step
  have first := Launched.started orderly begins.2 (alone begins.1)
  have launched := (begins.after ▸ first).course orderly' course onward
  obtain ⟨run, hr, ⟨awaited, due, itinerary, -⟩, ready⟩ := launched.startup
  have order := (course.orderly orderly').inOrder
  refine ⟨⟨awaited, due, itinerary⟩, fun _ _ _ _ => itinerary.fetched, itinerary.rests.1,
    itinerary.nodup order.markets, fun raised => (ready raised).2, fun x hx lowered => ?_⟩
  obtain ⟨ys, before⟩ := course.exists_before hx
  exact (before.orderly orderly').waits lowered

/-! ### A startup of a sample

There are two markets. The book of the first one cannot be had at once. -/

/-- A tracker of two markets. -/
def samplePair : Tracker :=
  { sample with config := { sample.config with markets := [⟨"BTC-USD"⟩, ⟨"ETH-USD"⟩] } }

/-- What happens until it is ready. -/
def startingUp : List Label :=
  [.proceed (.startup 0), .hear (.startup 0) (.book (.error .notConnected)),
    .pass 5000 0, .proceed (.startup 0)] ++ fetchBook 10 ++
  [.proceed (.startup 0), .pass 1000 0, .proceed (.startup 0), .proceed (.startup 0),
    .hear (.startup 0) (.book (.ok ⟨⟨"ETH-USD"⟩, 7, default, [], []⟩)), .proceed (.startup 0)]

/-- The sample starts up, with a rest after the failure and one between the markets. -/
theorem startsUp_of_begins_sample : ∃ (x₀ : Move) (xs : List Move) (t : Tracker),
    x₀.before.Orderly ∧ x₀.Begins ∧ x₀.IsOrderly ∧ Course x₀.after xs t ∧
    (∀ x ∈ xs, ¬x.Begins) ∧ StartsUp 0 xs t ∧ t.ready.raised = true ∧
    milestones 0 xs = [(.fetched ⟨"BTC-USD"⟩, 0), (.failed, 0), (.fetched ⟨"BTC-USD"⟩, 5000),
      (.activated ⟨"BTC-USD"⟩, 5000), (.fetched ⟨"ETH-USD"⟩, 6000),
      (.activated ⟨"ETH-USD"⟩, 6000)] := by
  have valid : ofConfig samplePair.config = .ok samplePair := rfl
  have alone : ¬samplePair.IsStopping := fun ⟨i, st, hi⟩ => by cases hi
  have labels : .start ∉ startingUp := by simp [startingUp, fetchBook]
  have course := course_moves _ labels samplePair.started
  have begins : Move.Begins ⟨samplePair, .start, [], samplePair.started, rfl⟩ := ⟨rfl, rfl⟩
  have onward : ∀ x ∈ (samplePair.started.moves startingUp).1, ¬x.Begins := fun x hx begins =>
    labels (begins.1 ▸ label_of_moves _ x hx)
  exact ⟨_, _, _, .init valid, begins, fun _ => alone, course, onward,
    startsUp_of_begins (.init valid) begins (fun _ => alone) course onward, rfl, by decide⟩

end Tracker

end LiveBook
