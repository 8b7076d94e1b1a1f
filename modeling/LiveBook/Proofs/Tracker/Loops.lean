import LiveBook.Proofs.Tracker.Accounting
import LiveBook.Proofs.Tracker.Tasks

/-!
# The loops of a run

Three things a run does again and again: it asks for the prices of last trades, it asks for the
first book of a market, and it listens to something. Each time is a *round* of a loop
(`LiveBook.Tracker.Loop`), and an effect tells of it (`LiveBook.Tracker.loop?`).

Here are the rules of the listeners, the refresh and the startup put together, for one run:

* `LiveBook.Tracker.Move.Runs` – what a move does to the loops of a run: one of them goes on by one
  of its rules, or none does and time may pass;
* `LiveBook.Tracker.Move.runs_or` – every move is like this for every run that there is, and does
  nothing for a run that there is not.
-/

namespace LiveBook.Tracker

/-- **A loop of a run.** -/
inductive Loop where
  /-- The prices of last trades are asked for. -/
  | prices
  /-- The first book of a market is asked for. -/
  | book (m : MarketId)
  | listen (k : Listener)
deriving DecidableEq

/-- The loop of a run of which an effect is a round, if any. -/
def loop? (r : ℕ) : TrackerEffect → Option Loop
  | .called (.refresh r') (.prices _) => if r' = r then some .prices else none
  | .called (.startup r') (.book m) => if r' = r then some (.book m) else none
  | .listened r' k => if r' = r then some (.listen k) else none
  | _ => none

/-- The rounds of the loops of a run with a move, with their time. -/
def Move.rounds (r : ℕ) (x : Move) : List (Loop × ℕ) :=
  (x.effects.filterMap (loop? r)).map (·, x.before.clock)

/-- The rounds of the loops of a run with some moves. -/
def rounds (r : ℕ) (xs : List Move) : List (Loop × ℕ) := xs.flatMap (Move.rounds r)

theorem rounds_append (r : ℕ) (xs ys : List Move) :
    rounds r (xs ++ ys) = rounds r xs ++ rounds r ys :=
  List.flatMap_append

@[simp] theorem rounds_snoc (r : ℕ) (xs : List Move) (x : Move) :
    rounds r (xs ++ [x]) = rounds r xs ++ x.rounds r := by
  simp [rounds]

variable {t t' : Tracker} {r r' : ℕ} {l : Label} {fx : List TrackerEffect} {run run' : Run}
  {x : Move}

/-! ### Whose rounds effects tell of -/

theorem loop?_eq_none_of_request {e : TrackerEffect} {i : ℕ} (he : e.request? = some i) :
    loop? r e = none := by
  unfold loop?
  split
  · cases he
  · cases he
  · cases he
  · rfl

theorem Fetches.loop?_of_ne {stage : StartupStage} (h : t.Fetches r' run l fx stage t')
    (hne : r' ≠ r) : ∀ e ∈ fx, loop? r e = none := by
  cases h <;> simp [loop?, hne]

theorem Performs.loop?_of_ne {d' : Desk} (h : t.Performs r' run l fx run' d') (hne : r' ≠ r) :
    ∀ e ∈ fx, loop? r e = none := by
  cases h with
  | listens h => cases h <;> simp [loop?, hne]
  | refreshes h => cases h <;> simp [loop?, hne]
  | _ => simp [loop?]

/-! ### What a move does to a run -/

/-- **The loops of a run stay where they are.** -/
structure SameLoops (run run' : Run) : Prop where
  refresh : run'.refresh = run.refresh
  startup : run'.startup = run.startup
  listener : ∀ k, run'.listener k = run.listener k

theorem SameLoops.refl (run : Run) : SameLoops run run := ⟨rfl, rfl, fun _ => rfl⟩

/-- **What a move does to the loops of a run.** -/
inductive Move.Runs (x : Move) (r : ℕ) (run : Run) : Run → Prop where
  | rests {run' : Run} (silent : ∀ e ∈ x.effects, loop? r e = none) (same : SameLoops run run')
      (clock : x.before.clock ≤ x.after.clock) : Runs x r run run'
  | listens {k : Listener} {stage : ListenerStage}
      (h : x.before.Listens r run k x.label x.effects stage)
      (clock : x.after.clock = x.before.clock) : Runs x r run (run.setListener k stage)
  | refreshes {stage : RefreshStage}
      (h : x.before.Refreshes r run x.label x.effects stage x.after.desk)
      (clock : x.after.clock = x.before.clock) : Runs x r run { run with refresh := stage }
  | fetches {stage : StartupStage} (h : x.before.Fetches r run x.label x.effects stage x.after) :
      Runs x r run { run with startup := stage }

namespace Move.Runs

theorem clock (h : x.Runs r run run') : x.before.clock ≤ x.after.clock := by
  cases h with
  | rests _ _ clock => exact clock
  | listens _ clock | refreshes _ clock => exact clock.ge
  | fetches h => exact h.rest.2.2.1.ge

/-- The refresh of a run goes on by one of its rules, or stays where it is. -/
theorem refresh_or (h : x.Runs r run run') : run'.refresh = run.refresh ∨
    x.before.Refreshes r run x.label x.effects run'.refresh x.after.desk := by
  cases h with
  | rests _ same => exact .inl same.refresh
  | @listens k => cases k <;> exact .inl rfl
  | refreshes h => exact .inr h
  | fetches => exact .inl rfl

end Move.Runs

/-- A move that does nothing to a run, whether there is this run or not. -/
theorem Move.runs_or_of_silent (silent : ∀ e ∈ x.effects, loop? r e = none)
    (clock : x.before.clock ≤ x.after.clock)
    (same : ∀ run, x.before.run? r = some run →
      ∃ run', x.after.run? r = some run' ∧ SameLoops run run') :
    (∃ run run', x.before.run? r = some run ∧ x.after.run? r = some run' ∧ x.Runs r run run') ∨
      x.before.run? r = none ∧ ∀ e ∈ x.effects, loop? r e = none := by
  cases hr : x.before.run? r with
  | none => exact .inr ⟨rfl, silent⟩
  | some run =>
    obtain ⟨run', hr', same⟩ := same run hr
    exact .inl ⟨run, run', rfl, hr', .rests silent same clock⟩

theorem run?_setRun_self (hr : t.run? r = some run) (run' : Run) :
    (t.setRun r run').run? r = some run' :=
  List.getElem?_set_self (List.getElem?_eq_some_iff.mp hr).1

theorem run?_setRun_of_ne (hne : r' ≠ r) (run' : Run) : (t.setRun r' run').run? r = t.run? r :=
  List.getElem?_set_ne hne

theorem sameLoops_cancelRun (r' : ℕ) (hr : t.run? r = some run) :
    ∃ run', (t.cancelRun r').run? r = some run' ∧ SameLoops run run' := by
  rw [run?_cancelRun, hr, Option.map_some]
  split
  · refine ⟨_, rfl, rfl, rfl, fun k => ?_⟩
    cases k <;> rfl
  · exact ⟨run, rfl, .refl run⟩

theorem sameLoops_of_performs {d' : Desk} (h : t.Performs r run l fx run' d') :
    (∃ k stage, t.Listens r run k l fx stage ∧ run' = run.setListener k stage ∧ d' = t.desk) ∨
      (∃ stage, t.Refreshes r run l fx stage d' ∧ run' = { run with refresh := stage }) ∨
      (∀ e ∈ fx, loop? r e = none) ∧ SameLoops run run' := by
  cases h with
  | listens h => exact .inl ⟨_, _, h, rfl, rfl⟩
  | refreshes h => exact .inr (.inl ⟨_, h, rfl⟩)
  | receives | opens | routes | routerEnds =>
    refine .inr (.inr ⟨by simp [loop?], rfl, rfl, fun k => ?_⟩)
    cases k <;> rfl

/-- **A loop of a run goes on with a move, or none does.** -/
theorem Move.runs_or (x : Move) (r : ℕ) :
    (∃ run run', x.before.run? r = some run ∧ x.after.run? r = some run' ∧ x.Runs r run run') ∨
      x.before.run? r = none ∧ ∀ e ∈ x.effects, loop? r e = none := by
  obtain ⟨t, l, fx, t', step⟩ := x
  have keeps : ∀ run, t.run? r = some run → ∃ run', t.run? r = some run' ∧ SameLoops run run' :=
    fun run hr => ⟨run, hr, .refl run⟩
  cases step_happens step with
  | starts idle =>
    refine runs_or_of_silent (by simp) le_rfl fun run hr => ⟨run, ?_, .refl run⟩
    exact (List.getElem?_append_left (List.getElem?_eq_some_iff.mp hr).1).trans hr
  | goesOn | abandonsNothing => exact runs_or_of_silent (by simp [loop?]) le_rfl keeps
  | abandons =>
    exact runs_or_of_silent (by simp) (t.clock_cancelRun _).ge fun run hr =>
      sameLoops_cancelRun _ hr
  | asks asks =>
    cases asks with
    | stops =>
      exact runs_or_of_silent (by simp) (t.clock_cancelRun _).ge fun run hr =>
        sameLoops_cancelRun _ hr
    | _ => exact runs_or_of_silent (by simp [loop?]) le_rfl keeps
  | goes hl hs goes =>
    obtain ⟨-, -, runs, -⟩ := goes.rest
    refine runs_or_of_silent (fun e he => loop?_eq_none_of_request (goes.shown e he))
      goes.clock_ready.1.ge fun run hr => ⟨run, ?_, .refl run⟩
    exact (congrArg (·[r]?) runs).trans hr
  | tends hl other tends =>
    cases step_advances step hl other with
    | @performs r₀ run₀ run₁ _ _ d' hr₀ _ performs =>
      by_cases heq : r₀ = r
      · subst heq
        have hr₁ := run?_setRun_self hr₀ run₁
        refine .inl ⟨run₀, run₁, hr₀, hr₁, ?_⟩
        rcases sameLoops_of_performs performs with ⟨k, stage, h, rfl, -⟩ | ⟨stage, h, rfl⟩ |
          ⟨silent, same⟩
        · exact .listens h rfl
        · exact .refreshes h rfl
        · exact .rests silent same le_rfl
      · refine runs_or_of_silent (performs.loop?_of_ne heq) le_rfl fun run hr =>
          ⟨run, ?_, .refl run⟩
        exact (run?_setRun_of_ne heq run₁).trans hr
    | @fetches r₀ run₀ _ _ stage _ hr₀ fetches =>
      obtain ⟨-, -, clock, -, runs, -⟩ := fetches.rest
      by_cases heq : r₀ = r
      · subst heq
        refine .inl ⟨run₀, _, hr₀, ?_, .fetches fetches⟩
        exact (congrArg (·[r₀]?) runs).trans (run?_setRun_self hr₀ _)
      · refine runs_or_of_silent (fetches.loop?_of_ne heq) clock.ge fun run hr =>
          ⟨run, ?_, .refl run⟩
        exact (congrArg (·[r]?) runs).trans ((run?_setRun_of_ne heq _).trans hr)
    | works => exact runs_or_of_silent (by simp [loop?]) le_rfl keeps
    | passes millis nanos => exact runs_or_of_silent (by simp) (Nat.le_add_right _ _) keeps

end LiveBook.Tracker
