import LiveBook.App.Application
import LiveBook.Proofs.Tracker.Replies

/-!
# The rules by which an application goes on

Everything that can happen to an application, as a list of rules, and runs of an application as
lists of what has happened to it.

* `LiveBook.Application.step_happens` – every step follows one of the rules of
  `LiveBook.Application.Happens`;
* `LiveBook.Application.Moment`, `LiveBook.Application.Course` – one step, and any number of them.

The rules tell apart what carries out the schedule. Whatever else the application does by itself,
until it stops its tracker, is one of them (`LiveBook.Application.Happens.aside`).
-/

namespace LiveBook

/-- The application has made the last report, and asked its tracker to stop. -/
def AppStage.IsClosed : AppStage → Prop
  | .stopping _ | .ended => True
  | _ => False

namespace Application

variable {a a' a₀ : Application} {l : Label} {es : List Effect}

/-- What the application says in a report. -/
def Effect.IsReport : Effect → Prop
  | .reported _ => True
  | _ => False

/-- The ways to lead the schedule to its end. -/
def Label.Cuts : Label → Prop
  | .interrupt | .drained => True
  | _ => False

/-- **Whatever happens to an application**, by the rule that it follows. -/
inductive Happens (a : Application) : Label → List Effect → Application → Prop where
  /-- The tracker goes on, or somebody asks something of it. -/
  | tracks {l : Tracker.Label} {t : Tracker} {fx : List TrackerEffect}
      (h : a.tracker.step l = some (t, fx)) :
      Happens a (.tracker l) (fx.map .tracker) { a with tracker := t }
  | readies (awaiting : a.stage = .awaitingReady) (raised : a.tracker.isReady = true) :
      Happens a .ready []
        { a with
          stage := .reporting (a.tracker.clock + a.config.reportInterval)
          schedule := .waiting a.config.orderedSchedule
          readySince := a.tracker.clock }
  /-- Nothing that concerns the tracker. At most, no further action is to be begun. -/
  | aside {l : Label} {es : List Effect} {stage : AppStage} {isCut isInterrupted isReplayed : Bool}
      (other : l ≠ .ready ∧ l ≠ .cut) (reports : ∀ e ∈ es, e.IsReport)
      (awaiting : stage = .awaitingReady ↔ a.stage = .awaitingReady)
      (closed : stage.IsClosed ↔ a.stage.IsClosed)
      (cut : isCut = true ↔ a.isCut = true ∨ l.Cuts) :
      Happens a l es
        { a with
          stage := stage, isCut := isCut, isInterrupted := isInterrupted
          isReplayed := isReplayed }
  | begins {e : ScheduledAction} {rest : List ScheduledAction}
      (hs : a.schedule = .waiting (e :: rest)) (due : a.readySince + e.due ≤ a.tracker.clock) :
      Happens a .act (.begun e :: (a.tracker.ask (requestOf e)).2.map .tracker)
        { a with
          tracker := (a.tracker.ask (requestOf e)).1
          schedule := .acting e rest a.tracker.requests.length }
  | returns {e : ScheduledAction} {rest : List ScheduledAction} {i : ℕ} {applied : Bool}
      (hs : a.schedule = .acting e rest i)
      (replied : a.tracker.reply? i = some (.flag applied)) :
      Happens a .act [.reported (.action e applied)]
        { a with schedule := .waiting rest, completed := a.completed + applied.toNat }
  | finishes (hs : a.schedule = .waiting []) : Happens a .act [] { a with schedule := .ended }
  | cuts {e : ScheduledAction} {rest : List ScheduledAction}
      (hs : a.schedule = .waiting (e :: rest)) (cut : a.isCut = true) :
      Happens a .cut [] { a with schedule := .ended }
  /-- The tracker is stopped, before it was ready. -/
  | quits (awaiting : a.stage = .awaitingReady) :
      Happens a .interrupt (a.close 0).2 (a.close 0).1
  /-- The tracker is stopped, after the schedule has ended. -/
  | closes (awaiting : a.stage = .awaitingSchedule) (hs : a.schedule = .ended) :
      Happens a .settled (a.close a.completed).2 (a.close a.completed).1

theorem isReport_reports (a : Application) : ∀ e ∈ a.reports, e.IsReport := by
  intro e he
  rw [reports, List.mem_append, List.mem_map] at he
  rcases he with ⟨p, -, rfl⟩ | he
  · exact trivial
  · rw [List.mem_singleton.mp he]
    exact trivial

/-- Whatever comes of it follows one of the rules. -/
def Happening (a : Application) (l : Label) (o : Outcome) : Prop :=
  ∀ a' es, o = some (a', es) → a.Happens l es a'

theorem happening_none : a.Happening l none := fun _ _ h => by cases h

theorem happening_some (h : a.Happens l es a') : a.Happening l (some (a', es)) := by
  intro a'' es' heq
  obtain ⟨rfl, rfl⟩ := Prod.mk.inj (Option.some.inj heq)
  exact h

theorem happening_ite {c : Prop} [Decidable c] {o : Outcome} (h : c → a.Happening l o) :
    a.Happening l (if c then o else none) := by
  split
  next hc => exact h hc
  next => exact happening_none

/-- The schedule goes on. -/
theorem happening_actNext (a : Application) : a.Happening .act a.actNext := by
  unfold actNext
  split
  next hs => exact happening_some (.finishes hs)
  next e rest hs => exact happening_ite fun due => happening_some (.begins hs due)
  next e rest i hs =>
    split
    next applied hreply =>
      exact happening_some (.returns hs (Tracker.reply?_eq_some_iff.mpr hreply))
    next => exact happening_none
  next => exact happening_none

/-- The application sees that a shutdown was asked for. -/
theorem happening_seeInterrupt (a : Application) : a.Happening .interrupt a.seeInterrupt := by
  refine happening_ite fun _ => ?_
  split
  next hstage => exact happening_some (.quits hstage)
  next due hstage =>
    refine happening_some (.aside ⟨nofun, nofun⟩ (by simp) ?_ ?_ ?_)
    · simp [hstage]
    · simp [hstage, AppStage.IsClosed]
    · simp [Label.Cuts]
  next => exact happening_none

/-- **Every step follows one of the rules.** -/
theorem step_happens (h : a.step l = some (a', es)) : a.Happens l es a' := by
  suffices hall : a.Happening l (a.step l) from hall a' es h
  -- the application comes to another stage, and the schedule may go on
  have stays {l : Label} {es : List Effect} {stage : AppStage} (hl : l ≠ .ready ∧ l ≠ .cut)
      (cuts : ¬l.Cuts) (reports : ∀ e ∈ es, e.IsReport)
      (awaiting : stage = .awaitingReady ↔ a.stage = .awaitingReady)
      (closed : stage.IsClosed ↔ a.stage.IsClosed) :
      a.Happening l (some ({ a with stage := stage }, es)) :=
    happening_some (.aside hl reports awaiting closed (by simp [cuts]))
  cases l with
  | tracker l =>
    intro a' es h
    obtain ⟨⟨t, fx⟩, ht, h⟩ := Option.map_eq_some_iff.mp h
    obtain ⟨rfl, rfl⟩ := Prod.mk.inj h
    exact .tracks ht
  | shutdown =>
    exact happening_some (.aside ⟨nofun, nofun⟩ (by simp) .rfl .rfl (by simp [Label.Cuts]))
  | replayed =>
    exact happening_some (.aside ⟨nofun, nofun⟩ (by simp) .rfl .rfl (by simp [Label.Cuts]))
  | ready => exact happening_ite fun hc => happening_some (.readies hc.1 hc.2)
  | interrupt => exact a.happening_seeInterrupt
  | report =>
    rw [step]
    split
    next due hs =>
      refine happening_ite fun _ => stays ⟨nofun, nofun⟩ id a.isReport_reports ?_ ?_
      · simp [hs]
      · simp [hs, AppStage.IsClosed]
    next => exact happening_none
  | drain =>
    rw [step]
    split
    next due hs =>
      refine happening_ite fun _ => stays ⟨nofun, nofun⟩ id (by simp) ?_ ?_
      · simp [hs]
      · simp [hs, AppStage.IsClosed]
    next => exact happening_none
  | drained =>
    rw [step]
    split
    next due hs =>
      refine happening_ite fun _ => happening_some (.aside ⟨nofun, nofun⟩ (by simp) ?_ ?_ ?_)
      · simp [hs]
      · simp [hs, AppStage.IsClosed]
      · simp [Label.Cuts]
    next => exact happening_none
  | settled => exact happening_ite fun hc => happening_some (.closes hc.1 hc.2)
  | stopped =>
    rw [step]
    split
    next i hs =>
      split
      next =>
        refine stays ⟨nofun, nofun⟩ id (by simp) ?_ ?_
        · simp [hs]
        · simp [hs, AppStage.IsClosed]
      next => exact happening_none
    next => exact happening_none
  | act => exact a.happening_actNext
  | cut =>
    rw [step]
    split
    next e rest hs => exact happening_ite fun cut => happening_some (.cuts hs cut)
    next => exact happening_none

/-! ### Runs of an application -/

/-- **A moment**: one step of an application. -/
structure Moment where
  before : Application
  label : Label
  effects : List Effect
  after : Application
  step : before.step label = some (after, effects)

theorem Moment.happens (x : Moment) : x.before.Happens x.label x.effects x.after :=
  step_happens x.step

/-- **Any moments,** one after the other. -/
inductive Course (a : Application) : List Moment → Application → Prop where
  | nil : Course a [] a
  | snoc {xs : List Moment} {x : Moment} (before : Course a xs x.before) :
      Course a (xs ++ [x]) x.after

/-- The moments with these labels, as far as they are possible, and where they lead. -/
def moments (a : Application) : List Label → List Moment × Application
  | [] => ([], a)
  | l :: ls =>
    match h : a.step l with
    | some (a', es) => (⟨a, l, es, a', h⟩ :: (moments a' ls).1, (moments a' ls).2)
    | none => ([], a)

namespace Course

variable {xs ys zs : List Moment} {x : Moment}

theorem append (h : Course a₀ xs a) (h' : Course a ys a') : Course a₀ (xs ++ ys) a' := by
  induction h' with
  | nil => rwa [List.append_nil]
  | snoc _ ih =>
    rw [← List.append_assoc]
    exact .snoc ih

theorem one (x : Moment) : Course x.before [x] x.after := .snoc .nil

/-- The last moment. -/
theorem last (h : Course a₀ (xs ++ [x]) a) : Course a₀ xs x.before ∧ a = x.after := by
  generalize hall : xs ++ [x] = all at h
  cases h with
  | nil => exact absurd hall (by simp)
  | @snoc ys y before =>
    obtain ⟨rfl, heq⟩ := List.append_inj' hall rfl
    obtain rfl := List.singleton_inj.mp heq
    exact ⟨before, rfl⟩

/-- The moments in front of one of them, and those behind it. -/
theorem split (h : Course a₀ (ys ++ x :: zs) a) : Course a₀ ys x.before ∧ Course x.after zs a := by
  induction zs using List.reverseRecOn generalizing a with
  | nil =>
    obtain ⟨hbefore, rfl⟩ := h.last
    exact ⟨hbefore, .nil⟩
  | append_singleton zs z ih =>
    rw [← List.cons_append, ← List.append_assoc] at h
    obtain ⟨hbefore, rfl⟩ := h.last
    obtain ⟨hfront, hback⟩ := ih hbefore
    exact ⟨hfront, .snoc hback⟩

end Course

theorem course_moments (ls : List Label) :
    ∀ a : Application, Course a (moments a ls).1 (moments a ls).2 := by
  induction ls with
  | nil => exact fun a => .nil
  | cons l ls ih =>
    intro a
    unfold moments
    split
    next a' es h => exact (Course.one ⟨a, l, es, a', h⟩).append (ih a')
    next => exact .nil

end Application

end LiveBook
