import LiveBook.Proofs.App.Rules

/-!
# How a schedule is carried out

Scheduled actions are calls to a tracker that may take any time, and a shutdown or the end of the
feed may come while one of them is at work. Whatever happens (`LiveBook.Application.Course`), the
actions that are begun are the first ones in the order of execution, one at a time
(`LiveBook.Application.carriedOut_of_course`).

Two things are followed in the course of an application. One is what the tracker remembers of its
replies, which is what it has shown of them (`LiveBook.Application.Kept.replies`). The other is how
far the schedule has come (`LiveBook.Application.Standing`): in front of what is still to be begun
stand the actions that were begun, and all of them but the one at work have returned.
-/

namespace LiveBook

/-! ### The order of execution -/

/-- **The order of execution**: the same entries by their times, and entries due at the same time in
the order in which they were given. -/
structure ScheduledAction.InOrder (entries ordered : List ScheduledAction) : Prop where
  same : ordered.Perm entries
  ascending : ordered.Pairwise fun e e' => e.due ≤ e'.due
  stable : ∀ due, ordered.filter (fun e => e.due = due) = entries.filter fun e => e.due = due

theorem AppConfig.inOrder_orderedSchedule (c : AppConfig) :
    ScheduledAction.InOrder c.schedule c.orderedSchedule where
  same := List.mergeSort_perm _ _
  ascending := c.pairwise_orderedSchedule
  stable due := by
    -- entries due at the same time are in order as they stand, so sorting keeps them as a sublist
    have hsorted : (c.schedule.filter fun e => e.due = due).Pairwise fun e e' =>
        decide (e.due ≤ e'.due) = true := by
      refine List.pairwise_of_forall_mem_list fun e he e' he' => ?_
      have hdue : e.due = due := by simpa using (List.mem_filter.mp he).2
      have hdue' : e'.due = due := by simpa using (List.mem_filter.mp he').2
      simp [hdue, hdue']
    have hsub : (c.schedule.filter fun e => e.due = due).Sublist c.orderedSchedule :=
      List.sublist_mergeSort (fun a b c hab hbc => by simp at *; omega) (fun a b => by simp; omega)
        hsorted List.filter_sublist
    have hfilter := hsub.filter fun e => e.due = due
    simp only [List.filter_filter, Bool.and_self] at hfilter
    have hlength := ((List.mergeSort_perm c.schedule fun a b => a.due ≤ b.due).filter
      fun e => e.due = due).length_eq
    exact (hfilter.eq_of_length hlength.symm).symm

namespace Application

/-! ### What is begun, and what is replied -/

/-- **An action that was begun**: its entry, the number of the request that was made for it, and
the time. -/
structure Begun where
  entry : ScheduledAction
  call : ℕ
  time : ℕ
deriving DecidableEq

/-- The action that is begun with an effect. -/
def begun? (a : Application) : Effect → Option Begun
  | .begun e => some ⟨e, a.tracker.requests.length, a.tracker.clock⟩
  | _ => none

/-- What the tracker shows with an effect. -/
def Effect.tracker? : Effect → Option TrackerEffect
  | .tracker e => some e
  | _ => none

/-- The actions that were begun, in their order. -/
def begun (xs : List Moment) : List Begun := xs.flatMap fun x => x.effects.filterMap x.before.begun?

/-- The replies of the tracker to a request, in their order. -/
def replies (i : ℕ) (xs : List Moment) : List Reply :=
  xs.flatMap fun x => (x.effects.filterMap Effect.tracker?).filterMap (TrackerEffect.reply? i)

/-- The call for an action has returned. -/
def Begun.Returned (b : Begun) (xs : List Moment) (applied : Bool) : Prop :=
  replies b.call xs = [.flag applied]

instance (b : Begun) (xs : List Moment) (applied : Bool) : Decidable (b.Returned xs applied) :=
  inferInstanceAs (Decidable (_ = _))

/-- The application saw at some time that the tracker was ready. -/
def ReadyAt (time : ℕ) (xs : List Moment) : Prop :=
  ∃ x ∈ xs, x.label = .ready ∧ x.before.tracker.isReady = true ∧ x.before.tracker.clock = time

/-- **The application stops its tracker.** It is the application that asks for this, not somebody
else who has the tracker as well. -/
def Moment.Stops (x : Moment) : Prop :=
  (∀ l, x.label ≠ .tracker l) ∧ x.after.tracker = (x.before.tracker.ask .stop).1

/-- **How a schedule is carried out** in the course of some moments. -/
structure CarriedOut (config : AppConfig) (xs : List Moment) (a : Application) : Prop where
  /-- The actions that were begun are the first ones in the order of execution. -/
  order : (begun xs).map Begun.entry <+: config.orderedSchedule
  /-- No two are begun at once. When one is, its request is made of the tracker, its time has come,
  and the calls for all actions before have returned. -/
  begins : ∀ ys x zs, xs = ys ++ x :: zs → begun [x] = [] ∨ ∃ b, begun [x] = [b] ∧
    x.after.tracker = (x.before.tracker.ask (requestOf b.entry)).1 ∧
    (∃ ready, ReadyAt ready ys ∧ ready + b.entry.due ≤ b.time) ∧
    ∀ c ∈ begun ys, ∃ applied, c.Returned ys applied
  /-- The tracker is stopped when the calls for all actions have returned, and none is begun
  afterwards. -/
  stops : ∀ ys x zs, xs = ys ++ x :: zs → x.Stops →
    (∀ c ∈ begun ys, ∃ applied, c.Returned ys applied) ∧ begun (x :: zs) = [] ∧
      a.summary?.isSome = true
  /-- In the end, the actions that count are those whose calls have returned with success. -/
  counted : ∀ s, a.summary? = some s → s.completed = (begun xs).countP (·.Returned xs true)
  /-- The schedule is cut short only by a shutdown or after the end of the feed. -/
  cut : a.isCut = true → ∃ x ∈ xs, x.label.Cuts
  /-- Until then, an action is begun once its time has come and those before have returned. -/
  goesOn : a.isCut = false → ∀ e rest,
    config.orderedSchedule = (begun xs).map Begun.entry ++ e :: rest →
    (∀ c ∈ begun xs, ∃ applied, c.Returned xs applied) →
    ∀ ready, ReadyAt ready xs → ready + e.due ≤ a.tracker.clock →
    ∃ ys a', Course a ys a' ∧ (∀ y ∈ ys, y.label = .act) ∧ (begun ys).map Begun.entry = [e]

variable {a a' a₀ : Application} {l : Label} {es : List Effect} {xs ys : List Moment} {x : Moment}
  {bs : List Begun} {b : Begun}

theorem begun_append (xs ys : List Moment) : begun (xs ++ ys) = begun xs ++ begun ys :=
  List.flatMap_append

theorem begun_singleton (x : Moment) : begun [x] = x.effects.filterMap x.before.begun? :=
  List.flatMap_singleton _ _

theorem replies_concat (i : ℕ) (xs : List Moment) (x : Moment) : replies i (xs ++ [x]) =
    replies i xs ++ (x.effects.filterMap Effect.tracker?).filterMap (TrackerEffect.reply? i) := by
  rw [replies, List.flatMap_append, List.flatMap_singleton, replies]

theorem filterMap_begun?_tracker (a : Application) (fx : List TrackerEffect) :
    (fx.map Effect.tracker).filterMap a.begun? = [] := by
  simp [begun?]

/-- An action is begun, and then the tracker shows something. -/
theorem filterMap_begun? (a : Application) (e : ScheduledAction) (fx : List TrackerEffect) :
    (.begun e :: fx.map Effect.tracker).filterMap a.begun? =
      [⟨e, a.tracker.requests.length, a.tracker.clock⟩] := by
  have hfirst : a.begun? (.begun e) = some ⟨e, a.tracker.requests.length, a.tracker.clock⟩ := rfl
  rw [List.filterMap_cons_some hfirst, filterMap_begun?_tracker]

theorem filterMap_tracker? (fx : List TrackerEffect) :
    (fx.map Effect.tracker).filterMap Effect.tracker? = fx := by
  simp [List.filterMap_map, Function.comp_def, Effect.tracker?]

theorem filterMap_of_reports {β : Type} {f : Effect → Option β} (hf : ∀ r, f (.reported r) = none)
    (reports : ∀ e ∈ es, e.IsReport) : es.filterMap f = [] := by
  refine List.filterMap_eq_nil_iff.mpr fun e he => ?_
  cases e with
  | reported r => exact hf r
  | _ => exact absurd (reports _ he) id

/-- The last report says nothing but what it reports. -/
theorem filterMap_close {β : Type} {f : Effect → Option β} (hf : ∀ r, f (.reported r) = none)
    (a : Application) (n : ℕ) :
    (a.close n).2.filterMap f = ((a.tracker.ask .stop).2.map Effect.tracker).filterMap f := by
  refine (List.filterMap_append (l := a.reports)).trans ?_
  rw [filterMap_of_reports hf a.isReport_reports]
  rfl

/-! ### What every step leaves -/

namespace Happens

/-- The tracker is left alone, or takes one step. -/
theorem tracker (h : a.Happens l es a') :
    es.filterMap Effect.tracker? = [] ∧ a'.tracker = a.tracker ∨
      ∃ l', a.tracker.Happens l' (es.filterMap Effect.tracker?) a'.tracker := by
  cases h with
  | tracks h =>
    rw [filterMap_tracker?]
    exact .inr ⟨_, Tracker.step_happens h⟩
  | aside other reports awaiting closed cut =>
    exact .inl ⟨filterMap_of_reports (fun _ => rfl) reports, rfl⟩
  | @begins e rest hs due =>
    refine .inr ⟨.ask (requestOf e), ?_⟩
    rw [List.filterMap_cons_none rfl, filterMap_tracker?]
    exact .asks (a.tracker.asks_ask _)
  | quits | closes =>
    refine .inr ⟨.ask .stop, ?_⟩
    rw [filterMap_close fun _ => rfl, filterMap_tracker?]
    exact .asks (a.tracker.asks_ask _)
  | _ => exact .inl ⟨rfl, rfl⟩

/-- What the tracker remembers of its replies is what it shows of them. -/
theorem reply? (h : a.Happens l es a') (i : ℕ) : (a'.tracker.reply? i).toList =
    (a.tracker.reply? i).toList ++
      (es.filterMap Effect.tracker?).filterMap (TrackerEffect.reply? i) := by
  rcases h.tracker with ⟨hnone, hsame⟩ | ⟨l', h'⟩
  · rw [hnone, hsame, List.filterMap_nil, List.append_nil]
  · exact h'.reply? i

theorem reply?_of_some (h : a.Happens l es a') {i : ℕ} {reply : Reply}
    (replied : a.tracker.reply? i = some reply) : a'.tracker.reply? i = some reply := by
  rcases h.tracker with ⟨-, hsame⟩ | ⟨l', h'⟩
  · rwa [hsame]
  · exact h'.reply?_of_some replied

theorem requests_le (h : a.Happens l es a') :
    a.tracker.requests.length ≤ a'.tracker.requests.length := by
  rcases h.tracker with ⟨-, hsame⟩ | ⟨l', h'⟩
  · rw [hsame]
  · exact h'.requests_le

theorem config (h : a.Happens l es a') : a'.config = a.config := by
  cases h <;> rfl

/-- Only a shutdown or the end of the feed cuts the schedule short. -/
theorem cut_or_cuts (h : a.Happens l es a') (cut : a'.isCut = true) :
    a.isCut = true ∨ l.Cuts := by
  cases h with
  | aside other reports awaiting closed hcut => exact hcut.mp cut
  | _ => exact .inl cut

/-- It is cut short for good. -/
theorem isCut (h : a.Happens l es a') (cut : a.isCut = true) : a'.isCut = true := by
  cases h with
  | aside other reports awaiting closed hcut => exact hcut.mpr (.inl cut)
  | _ => exact cut

/-- The time of readiness is noted once. -/
theorem readySince (h : a.Happens l es a') :
    l = .ready ∧ a.stage = .awaitingReady ∧ a.tracker.isReady = true ∧
        a'.readySince = a.tracker.clock ∧ a'.schedule ≠ .idle ∨
      l ≠ .ready ∧ a'.readySince = a.readySince ∧ (a'.schedule = .idle ↔ a.schedule = .idle) := by
  cases h with
  | readies awaiting raised => exact .inl ⟨rfl, awaiting, raised, rfl, nofun⟩
  | aside other reports awaiting closed hcut => exact .inr ⟨other.1, rfl, .rfl⟩
  | begins hs due => exact .inr ⟨nofun, rfl, by simp [hs]⟩
  | returns hs replied => exact .inr ⟨nofun, rfl, by simp [hs]⟩
  | finishes hs => exact .inr ⟨nofun, rfl, by simp [hs]⟩
  | cuts hs cut => exact .inr ⟨nofun, rfl, by simp [hs]⟩
  | _ => exact .inr ⟨nofun, rfl, .rfl⟩

end Happens

/-! ### Stages and summaries -/

/-- **What the stage says of the schedule**, and what the summary counts. -/
structure Staged (a : Application) : Prop where
  awaiting : a.stage = .awaitingReady → a.schedule = .idle
  closed : a.stage.IsClosed → a.schedule = .idle ∨ a.schedule = .ended
  counted : ∀ s, a.summary? = some s → a.stage.IsClosed ∧ s.completed = a.completed

/-- A summary is there for good, and no action is begun once there is one. -/
theorem Happens.closed (h : a.Happens l es a') (closed : a.stage.IsClosed) :
    a'.stage.IsClosed ∧ (a.summary?.isSome = true → a'.summary?.isSome = true) := by
  cases h with
  | readies awaiting raised => exact absurd closed (awaiting ▸ id)
  | aside other reports awaiting closed' hcut => exact ⟨closed'.mpr closed, id⟩
  | quits awaiting => exact ⟨trivial, fun _ => rfl⟩
  | closes awaiting hs => exact ⟨trivial, fun _ => rfl⟩
  | _ => exact ⟨closed, id⟩

/-- Where the schedule goes on, the application neither waits for the tracker nor has stopped it. -/
theorem Staged.goes (h : a.Staged) (hs : a.schedule ≠ .idle ∧ a.schedule ≠ .ended)
    (stage : a'.stage = a.stage) (summary : a'.summary? = a.summary?) : a'.Staged := by
  have hopen : ¬a.stage.IsClosed := fun hc => (h.closed hc).elim hs.1 hs.2
  refine ⟨fun hw => ?_, fun hc => absurd (stage ▸ hc) hopen, fun s hsome => ?_⟩
  · exact absurd (h.awaiting (stage ▸ hw)) hs.1
  · exact absurd (h.counted s (summary ▸ hsome)).1 hopen

theorem Staged.happens (staged : a.Staged) (idle : a.schedule = .idle → a.completed = 0)
    (h : a.Happens l es a') : a'.Staged := by
  have hstaged := staged
  obtain ⟨hawaiting, hclosed, hcounted⟩ := staged
  cases h with
  | tracks h => exact ⟨hawaiting, hclosed, hcounted⟩
  | readies awaiting raised =>
    refine ⟨nofun, fun hc => absurd hc id, fun s hs => ?_⟩
    exact absurd (hcounted s hs).1 (awaiting ▸ id)
  | aside other reports awaiting closed hcut =>
    exact ⟨fun h => hawaiting (awaiting.mp h), fun h => hclosed (closed.mp h),
      fun s hs => ⟨closed.mpr (hcounted s hs).1, (hcounted s hs).2⟩⟩
  | begins hs due => exact hstaged.goes (by simp [hs]) rfl rfl
  | returns hs replied => exact hstaged.goes (by simp [hs]) rfl rfl
  | finishes hs => exact hstaged.goes (by simp [hs]) rfl rfl
  | cuts hs cut => exact hstaged.goes (by simp [hs]) rfl rfl
  | quits awaiting =>
    have hidle := hawaiting awaiting
    refine ⟨nofun, fun _ => .inl hidle, fun s hs => ⟨trivial, ?_⟩⟩
    rw [← Option.some.inj hs]
    exact (idle hidle).symm
  | closes awaiting hs =>
    refine ⟨nofun, fun _ => .inr hs, fun s hs => ⟨trivial, ?_⟩⟩
    rw [← Option.some.inj hs]
    rfl

/-! ### How far the schedule has come -/

/-- **The calls for some actions have returned**, and those that have returned with success were
counted. -/
structure Settled (a : Application) (bs : List Begun) : Prop where
  returned : ∀ b ∈ bs, ∃ applied, a.tracker.reply? b.call = some (.flag applied)
  completed : a.completed = bs.countP fun b => a.tracker.reply? b.call = some (.flag true)

/-- **How far the schedule has come** when some actions were begun. -/
inductive Standing (a : Application) (bs : List Begun) : Prop where
  | idle (hs : a.schedule = .idle) (none : bs = []) (fresh : a.completed = 0)
  | waiting {entries : List ScheduledAction} (hs : a.schedule = .waiting entries)
      (order : bs.map Begun.entry ++ entries = a.config.orderedSchedule) (settled : a.Settled bs)
  /-- The last one is at work. -/
  | acting {cs : List Begun} {b : Begun} {rest : List ScheduledAction} (last : bs = cs ++ [b])
      (hs : a.schedule = .acting b.entry rest b.call)
      (order : bs.map Begun.entry ++ rest = a.config.orderedSchedule) (settled : a.Settled cs)
  | ended (hs : a.schedule = .ended) (order : bs.map Begun.entry <+: a.config.orderedSchedule)
      (whole : a.isCut = false → bs.map Begun.entry = a.config.orderedSchedule)
      (settled : a.Settled bs)

theorem Settled.later (h : a.Settled bs)
    (stays : ∀ i reply, a.tracker.reply? i = some reply → a'.tracker.reply? i = some reply)
    (completed : a'.completed = a.completed) : a'.Settled bs where
  returned b hb := by
    obtain ⟨applied, hreply⟩ := h.returned b hb
    exact ⟨applied, stays _ _ hreply⟩
  completed := by
    rw [completed, h.completed]
    refine List.countP_congr fun b hb => ?_
    obtain ⟨applied, hreply⟩ := h.returned b hb
    rw [hreply, stays _ _ hreply]

/-- The call for one more action has returned. -/
theorem Settled.concat (h : a.Settled bs) {applied : Bool}
    (replied : a.tracker.reply? b.call = some (.flag applied)) (tracker : a'.tracker = a.tracker)
    (completed : a'.completed = a.completed + applied.toNat) : a'.Settled (bs ++ [b]) where
  returned c hc := by
    rw [tracker]
    rcases List.mem_append.mp hc with hc | hc
    · exact h.returned c hc
    · exact ⟨applied, List.mem_singleton.mp hc ▸ replied⟩
  completed := by
    have hone : List.countP (fun b => decide (a.tracker.reply? b.call = some (.flag true))) [b] =
        applied.toNat := by
      cases applied <;> simp [replied]
    rw [completed, tracker, List.countP_append, hone, ← h.completed]

namespace Standing

variable {entries rest : List ScheduledAction} {e : ScheduledAction} {i : ℕ}

theorem of_idle (h : a.Standing bs) (hs : a.schedule = .idle) : bs = [] ∧ a.completed = 0 := by
  cases h with
  | idle _ none fresh => exact ⟨none, fresh⟩
  | waiting hs' | acting _ hs' | ended hs' => cases hs.symm.trans hs'

theorem of_waiting (h : a.Standing bs) (hs : a.schedule = .waiting entries) :
    bs.map Begun.entry ++ entries = a.config.orderedSchedule ∧ a.Settled bs := by
  cases h with
  | waiting hs' order settled =>
    obtain rfl := ScheduleStage.waiting.inj (hs.symm.trans hs')
    exact ⟨order, settled⟩
  | idle hs' | acting _ hs' | ended hs' => cases hs.symm.trans hs'

theorem of_acting (h : a.Standing bs) (hs : a.schedule = .acting e rest i) :
    ∃ cs b, bs = cs ++ [b] ∧ b.entry = e ∧ b.call = i ∧
      bs.map Begun.entry ++ rest = a.config.orderedSchedule ∧ a.Settled cs := by
  cases h with
  | acting last hs' order settled =>
    obtain ⟨rfl, rfl, rfl⟩ := ScheduleStage.acting.inj (hs.symm.trans hs')
    exact ⟨_, _, last, rfl, rfl, order, settled⟩
  | idle hs' | waiting hs' | ended hs' => cases hs.symm.trans hs'

theorem of_ended (h : a.Standing bs) (hs : a.schedule = .ended) :
    (a.isCut = false → bs.map Begun.entry = a.config.orderedSchedule) ∧ a.Settled bs := by
  cases h with
  | ended _ order whole settled => exact ⟨whole, settled⟩
  | idle hs' | waiting hs' | acting _ hs' => cases hs.symm.trans hs'

/-- The actions that were begun are the first ones in the order of execution. -/
theorem order (h : a.Standing bs) : bs.map Begun.entry <+: a.config.orderedSchedule := by
  cases h with
  | idle _ none => exact none ▸ List.nil_prefix
  | waiting _ order | acting _ _ order => exact ⟨_, order⟩
  | ended _ order => exact order

/-- The schedule has not gone on. -/
theorem later (h : a.Standing bs) (schedule : a'.schedule = a.schedule)
    (completed : a'.completed = a.completed) (step : a.Happens l es a') : a'.Standing bs := by
  have settled {cs : List Begun} (hcs : a.Settled cs) : a'.Settled cs :=
    hcs.later (fun i reply => step.reply?_of_some) completed
  cases h with
  | idle hs none fresh => exact .idle (schedule.trans hs) none (completed.trans fresh)
  | waiting hs order h => exact .waiting (schedule.trans hs) (step.config ▸ order) (settled h)
  | acting last hs order h =>
    exact .acting last (schedule.trans hs) (step.config ▸ order) (settled h)
  | ended hs order whole h =>
    refine .ended (schedule.trans hs) (step.config ▸ order) (fun hcut => ?_) (settled h)
    rw [step.config]
    refine whole (Bool.eq_false_iff.mpr fun cut => ?_)
    rw [step.isCut cut] at hcut
    cases hcut

/-- **Every step keeps the order** in which actions are begun, and awaits the one at work. -/
theorem happens (h : a.Standing bs) (staged : a.Staged) (step : a.Happens l es a') :
    a'.Standing (bs ++ es.filterMap a.begun?) := by
  have stays : ∀ i reply, a.tracker.reply? i = some reply → a'.tracker.reply? i = some reply :=
    fun i reply => step.reply?_of_some
  -- nothing is begun, and the schedule has not gone on
  have still (none : es.filterMap a.begun? = []) (schedule : a'.schedule = a.schedule)
      (completed : a'.completed = a.completed) : a'.Standing (bs ++ es.filterMap a.begun?) := by
    rw [none, List.append_nil]
    exact h.later schedule completed step
  cases step with
  | tracks step => exact still (a.filterMap_begun?_tracker _) rfl rfl
  | readies awaiting raised =>
    obtain ⟨rfl, fresh⟩ := h.of_idle (staged.awaiting awaiting)
    exact .waiting rfl rfl ⟨by simp, fresh⟩
  | aside other reports awaiting closed cut =>
    exact still (filterMap_of_reports (fun _ => rfl) reports) rfl rfl
  | @begins e rest hs due =>
    obtain ⟨order, settled⟩ := h.of_waiting hs
    rw [filterMap_begun?]
    refine .acting rfl rfl ?_ (settled.later stays rfl)
    rw [← order]
    simp
  | returns hs replied =>
    obtain ⟨cs, b, rfl, -, rfl, order, settled⟩ := h.of_acting hs
    rw [List.filterMap_cons_none rfl, List.filterMap_nil, List.append_nil]
    exact .waiting rfl order (settled.concat replied rfl rfl)
  | finishes hs =>
    obtain ⟨order, settled⟩ := h.of_waiting hs
    rw [List.append_nil] at order
    rw [List.filterMap_nil, List.append_nil]
    exact .ended rfl (order ▸ List.prefix_refl _) (fun _ => order) (settled.later stays rfl)
  | cuts hs cut =>
    obtain ⟨order, settled⟩ := h.of_waiting hs
    rw [List.filterMap_nil, List.append_nil]
    refine .ended rfl ⟨_, order⟩ (fun hcut => ?_) (settled.later stays rfl)
    cases cut.symm.trans hcut
  | quits | closes =>
    refine still ?_ rfl rfl
    rw [filterMap_close fun _ => rfl, filterMap_begun?_tracker]

end Standing

/-! ### What is kept of the past -/

/-- **What is kept of the past**, since the application was started. -/
structure Kept (a₀ : Application) (xs : List Moment) (a : Application) : Prop where
  config : a.config = a₀.config
  replies : ∀ i, (a.tracker.reply? i).toList = (a₀.tracker.reply? i).toList ++ replies i xs
  requests : a₀.tracker.requests.length ≤ a.tracker.requests.length
  calls : ∀ b ∈ begun xs, a₀.tracker.requests.length ≤ b.call
  standing : a.Standing (begun xs)
  staged : a.Staged
  ready : ∀ time, ReadyAt time xs ↔ a.schedule ≠ .idle ∧ a.readySince = time
  cut : a.isCut = true → ∃ x ∈ xs, x.label.Cuts

theorem readyAt_concat {time : ℕ} : ReadyAt time (xs ++ [x]) ↔ ReadyAt time xs ∨
    x.label = .ready ∧ x.before.tracker.isReady = true ∧ x.before.tracker.clock = time := by
  simp [ReadyAt, or_and_right, exists_or]

/-- The requests that are made for actions are new. -/
theorem call_of_begun? {e : Effect} (h : a.begun? e = some b) :
    b.call = a.tracker.requests.length ∧ b.time = a.tracker.clock := by
  cases e with
  | begun entry =>
    obtain rfl := Option.some.inj h
    exact ⟨rfl, rfl⟩
  | _ => cases h

namespace Kept

/-- **Every moment keeps it so.** -/
theorem snoc (h : Kept a₀ xs x.before) : Kept a₀ (xs ++ [x]) x.after where
  config := x.happens.config.trans h.config
  replies i := by rw [x.happens.reply? i, h.replies i, replies_concat, List.append_assoc]
  requests := h.requests.trans x.happens.requests_le
  calls b hb := by
    rw [begun_append, begun_singleton] at hb
    rcases List.mem_append.mp hb with hb | hb
    · exact h.calls b hb
    · obtain ⟨e, -, he⟩ := List.mem_filterMap.mp hb
      exact (call_of_begun? he).1 ▸ h.requests
  standing := by
    rw [begun_append, begun_singleton]
    exact h.standing.happens h.staged x.happens
  staged := h.staged.happens (fun hs => (h.standing.of_idle hs).2) x.happens
  ready time := by
    rw [readyAt_concat, h.ready]
    rcases x.happens.readySince with ⟨hl, hw, hr, hsince, hs⟩ | ⟨hl, hsince, hs⟩
    · simp [hl, hr, hsince, hs, h.staged.awaiting hw]
    · simp [hl, hsince, hs]
  cut hcut := by
    rcases x.happens.cut_or_cuts hcut with hcut | hcuts
    · obtain ⟨y, hy, hl⟩ := h.cut hcut
      exact ⟨y, List.mem_append_left _ hy, hl⟩
    · exact ⟨x, by simp, hcuts⟩

/-- What the tracker remembers of the call for an action is what it has shown. -/
theorem returned_iff (h : Kept a₀ xs a) (hb : b ∈ begun xs) {applied : Bool} :
    b.Returned xs applied ↔ a.tracker.reply? b.call = some (.flag applied) := by
  have hnew : a₀.tracker.reply? b.call = none := by
    rw [Tracker.reply?, Tracker.request?, List.getElem?_eq_none (h.calls b hb)]
    rfl
  have hreplies := h.replies b.call
  rw [hnew] at hreplies
  rw [Begun.Returned, ← List.nil_append (Application.replies b.call xs)]
  refine (Eq.congr_left hreplies.symm).trans ?_
  cases a.tracker.reply? b.call <;> simp

/-- All calls for actions have returned if those that the tracker remembers have. -/
theorem returned_of_settled (h : Kept a₀ xs a) (settled : a.Settled (begun xs)) :
    ∀ c ∈ begun xs, ∃ applied, c.Returned xs applied := by
  intro c hc
  obtain ⟨applied, hreply⟩ := settled.returned c hc
  exact ⟨applied, (h.returned_iff hc).mpr hreply⟩

end Kept

/-- An application that was just started has done nothing yet. -/
theorem eq_of_start {config : AppConfig} {t : Tracker} (h : start config t = .ok a₀) :
    ∃ t', a₀ = ⟨config, t', .awaitingReady, .idle, 0, false, 0, false, false, none⟩ := by
  unfold start at h
  cases ht : t.start with
  | error e =>
    rw [ht] at h
    cases h
  | ok t' =>
    rw [ht] at h
    exact ⟨t', (Except.ok.inj h).symm⟩

theorem kept_of_course {config : AppConfig} {t : Tracker} (started : start config t = .ok a₀)
    (h : Course a₀ xs a) : Kept a₀ xs a := by
  induction h with
  | nil =>
    obtain ⟨t', rfl⟩ := eq_of_start started
    exact
      { config := rfl
        replies := fun i => (List.append_nil _).symm
        requests := le_rfl
        calls := fun b hb => absurd hb List.not_mem_nil
        standing := .idle rfl rfl rfl
        staged := ⟨fun _ => rfl, fun _ => .inl rfl, nofun⟩
        ready := by simp [ReadyAt]
        cut := nofun }
  | snoc _ ih => exact ih.snoc

/-! ### Beginning and stopping -/

/-- With a step nothing is begun, or the first action that is left. -/
theorem Happens.begun_cases (h : a.Happens l es a') : es.filterMap a.begun? = [] ∨
    ∃ e rest, a.schedule = .waiting (e :: rest) ∧ a.readySince + e.due ≤ a.tracker.clock ∧
      es.filterMap a.begun? = [⟨e, a.tracker.requests.length, a.tracker.clock⟩] ∧
      a'.tracker = (a.tracker.ask (requestOf e)).1 := by
  cases h with
  | tracks h => exact .inl (a.filterMap_begun?_tracker _)
  | aside other reports awaiting closed cut =>
    exact .inl (filterMap_of_reports (fun _ => rfl) reports)
  | begins hs due => exact .inr ⟨_, _, hs, due, a.filterMap_begun? _ _, rfl⟩
  | quits | closes =>
    rw [filterMap_close fun _ => rfl, filterMap_begun?_tracker]
    exact .inl rfl
  | _ => exact .inl rfl

/-- What is asked for an action is no stop. -/
theorem ask_requestOf_ne (t : Tracker) (e : ScheduledAction) :
    (t.ask (requestOf e)).1 ≠ (t.ask .stop).1 := by
  intro heq
  have hrequests := congrArg Tracker.requests heq
  unfold requestOf at hrequests
  split at hrequests <;> cases hrun : t.run
  all_goals simp [Tracker.ask, Tracker.queueForLock, hrun] at hrequests

/-- **The application stops its tracker** before that is ready, or when the schedule has ended. -/
theorem Happens.of_stop (h : a.Happens l es a') (hl : ∀ l', l ≠ .tracker l')
    (stop : a'.tracker = (a.tracker.ask .stop).1) :
    (a.stage = .awaitingReady ∨ a.schedule = .ended) ∧ es.filterMap a.begun? = [] ∧
      a'.stage.IsClosed ∧ a'.summary?.isSome = true := by
  -- a request is made, so the tracker is not left alone
  have moved (same : a.tracker = (a.tracker.ask .stop).1) : False := by
    obtain ⟨s, hrequests, -⟩ := (a.tracker.asks_ask .stop).reply?
    rw [← same] at hrequests
    simpa using congrArg List.length hrequests
  cases h with
  | tracks h => exact absurd rfl (hl _)
  | begins hs due => exact absurd stop (ask_requestOf_ne _ _)
  | quits awaiting =>
    rw [filterMap_close fun _ => rfl, filterMap_begun?_tracker]
    exact ⟨.inl awaiting, rfl, trivial, rfl⟩
  | closes awaiting hs =>
    rw [filterMap_close fun _ => rfl, filterMap_begun?_tracker]
    exact ⟨.inr hs, rfl, trivial, rfl⟩
  | _ => exact (moved stop).elim

/-- Once the tracker is stopped, no action is begun, and the summary stays. -/
theorem Course.closed {config : AppConfig} {t : Tracker} (started : start config t = .ok a₀)
    (front : Course a₀ ys a) (h : Course a xs a') (closed : a.stage.IsClosed) :
    a'.stage.IsClosed ∧ begun xs = [] ∧
      (a.summary?.isSome = true → a'.summary?.isSome = true) := by
  induction h with
  | nil => exact ⟨closed, rfl, id⟩
  | @snoc xs x before ih =>
    obtain ⟨hclosed, hnone, hsome⟩ := ih
    obtain ⟨hclosed', hsome'⟩ := x.happens.closed hclosed
    refine ⟨hclosed', ?_, fun h => hsome' (hsome h)⟩
    rw [begun_append, hnone, begun_singleton, List.nil_append]
    rcases x.happens.begun_cases with hquiet | ⟨e, rest, hs, -⟩
    · exact hquiet
    · have hkept := kept_of_course started (front.append before)
      rcases hkept.staged.closed hclosed with hs' | hs' <;> cases hs.symm.trans hs'

/-! ### Going on -/

section GoingOn

variable {e : ScheduledAction} {rest : List ScheduledAction} {i : ℕ} {applied : Bool}

theorem step_act_of_due (hs : a.schedule = .waiting (e :: rest))
    (due : a.readySince + e.due ≤ a.tracker.clock) : a.step .act =
      some ({ a with
          tracker := (a.tracker.ask (requestOf e)).1
          schedule := .acting e rest a.tracker.requests.length },
        .begun e :: (a.tracker.ask (requestOf e)).2.map .tracker) := by
  rw [step, actNext, hs]
  exact if_pos due

theorem step_act_of_reply (hs : a.schedule = .acting e rest i)
    (replied : a.tracker.reply? i = some (.flag applied)) : a.step .act =
      some ({ a with schedule := .waiting rest, completed := a.completed + applied.toNat },
        [.reported (.action e applied)]) := by
  rw [step, actNext, hs]
  dsimp only
  rw [Tracker.reply?_eq_some_iff.mp replied]

/-- **An action whose time has come can be begun.** -/
theorem exists_begins (hs : a.schedule = .waiting (e :: rest))
    (due : a.readySince + e.due ≤ a.tracker.clock) :
    ∃ ys a', Course a ys a' ∧ (∀ y ∈ ys, y.label = .act) ∧ (begun ys).map Begun.entry = [e] := by
  let x : Moment := ⟨a, .act, _, _, step_act_of_due hs due⟩
  refine ⟨[x], x.after, .one x, List.forall_mem_singleton.mpr rfl, ?_⟩
  rw [begun_singleton]
  exact congrArg (List.map Begun.entry) (a.filterMap_begun? e _)

/-- So can the next one after an action whose call has returned. -/
theorem exists_begins_of_reply {e' : ScheduledAction} (hs : a.schedule = .acting e' (e :: rest) i)
    (replied : a.tracker.reply? i = some (.flag applied))
    (due : a.readySince + e.due ≤ a.tracker.clock) :
    ∃ ys a', Course a ys a' ∧ (∀ y ∈ ys, y.label = .act) ∧ (begun ys).map Begun.entry = [e] := by
  let x : Moment := ⟨a, .act, _, _, step_act_of_reply hs replied⟩
  obtain ⟨ys, a', hcourse, hlabels, hbegun⟩ :=
    exists_begins (a := x.after) (e := e) rfl due
  refine ⟨x :: ys, a', (Course.one x).append hcourse, ?_, ?_⟩
  · exact List.forall_mem_cons.mpr ⟨rfl, hlabels⟩
  · rw [← List.singleton_append, begun_append, begun_singleton]
    exact hbegun

end GoingOn

/-! ### In every course -/

namespace Kept

/-- Nothing is begun, or one action, when its time has come and those before have returned. -/
theorem begins (h : Kept a₀ xs x.before) : begun [x] = [] ∨ ∃ b, begun [x] = [b] ∧
    x.after.tracker = (x.before.tracker.ask (requestOf b.entry)).1 ∧
    (∃ ready, ReadyAt ready xs ∧ ready + b.entry.due ≤ b.time) ∧
    ∀ c ∈ begun xs, ∃ applied, c.Returned xs applied := by
  rw [begun_singleton]
  rcases x.happens.begun_cases with hquiet | ⟨e, rest, hs, due, hone, hask⟩
  · exact .inl hquiet
  · refine .inr ⟨_, hone, hask, ⟨x.before.readySince, ?_, due⟩, ?_⟩
    · exact (h.ready _).mpr ⟨by simp [hs], rfl⟩
    · exact h.returned_of_settled (h.standing.of_waiting hs).2

/-- Before the tracker was ready nothing was begun, and when the schedule has ended all calls have
returned. -/
theorem returned (h : Kept a₀ xs a) (stage : a.stage = .awaitingReady ∨ a.schedule = .ended) :
    ∀ c ∈ begun xs, ∃ applied, c.Returned xs applied := by
  rcases stage with hw | hs
  · have hidle := h.standing.of_idle (h.staged.awaiting hw)
    simp [hidle.1]
  · exact h.returned_of_settled (h.standing.of_ended hs).2

/-- **The summary counts the calls that have returned with success.** -/
theorem counted (h : Kept a₀ xs a) {s : RunSummary} (hs : a.summary? = some s) :
    s.completed = (begun xs).countP (·.Returned xs true) := by
  obtain ⟨hclosed, hcompleted⟩ := h.staged.counted s hs
  rw [hcompleted]
  rcases h.staged.closed hclosed with hidle | hended
  · obtain ⟨hnone, hzero⟩ := h.standing.of_idle hidle
    rw [hzero, hnone]
    rfl
  · rw [(h.standing.of_ended hended).2.completed]
    refine List.countP_congr fun b hb => ?_
    simpa using (h.returned_iff hb).symm

/-- **The schedule goes on** until it is cut short. -/
theorem goesOn (h : Kept a₀ xs a) (uncut : a.isCut = false) {e : ScheduledAction}
    {rest : List ScheduledAction}
    (left : a.config.orderedSchedule = (begun xs).map Begun.entry ++ e :: rest)
    (returned : ∀ c ∈ begun xs, ∃ applied, c.Returned xs applied) {ready : ℕ}
    (hready : ReadyAt ready xs) (due : ready + e.due ≤ a.tracker.clock) :
    ∃ ys a', Course a ys a' ∧ (∀ y ∈ ys, y.label = .act) ∧ (begun ys).map Begun.entry = [e] := by
  obtain ⟨hs, rfl⟩ := (h.ready ready).mp hready
  have hstanding := h.standing
  cases hstanding with
  | idle hidle => exact absurd hidle hs
  | waiting hs order settled =>
    rw [← order] at left
    obtain rfl := List.append_cancel_left left
    exact exists_begins hs due
  | @acting cs b rest' last hs order settled =>
    rw [← order] at left
    obtain rfl := List.append_cancel_left left
    have hb : b ∈ begun xs := by simp [last]
    obtain ⟨applied, hreply⟩ := returned b hb
    exact exists_begins_of_reply hs ((h.returned_iff hb).mp hreply) due
  | ended hs order whole settled =>
    -- nothing is left
    rw [← whole uncut] at left
    have hlength := congrArg List.length left
    simp at hlength

end Kept

/-- **A schedule is carried out in order,** one action at a time, and each action that was begun is
awaited. However the tracker, its source and its other users go on, however long calls take, and
whenever a shutdown is asked for or the feed ends: the entries are put in the order of their times,
and entries due at the same time stay in the order of the configuration. The actions that were begun
are the first ones in this order; each was begun when its time since the tracker was ready had come,
and when the calls for all before had returned. The application stops the tracker only when all of
them have returned, begins none after that, and counts those that have returned with success. -/
theorem carriedOut_of_course {config : AppConfig} {t : Tracker}
    (started : start config t = .ok a₀) (h : Course a₀ xs a) :
    ScheduledAction.InOrder config.schedule config.orderedSchedule ∧ CarriedOut config xs a := by
  have hkept := kept_of_course started h
  have hconfig : a.config = config := by
    obtain ⟨t', rfl⟩ := eq_of_start started
    exact hkept.config
  refine ⟨config.inOrder_orderedSchedule, ?_⟩
  constructor
  case order =>
    rw [← hconfig]
    exact hkept.standing.order
  case begins =>
    rintro ys x zs rfl
    exact (kept_of_course started h.split.1).begins
  case stops =>
    rintro ys x zs rfl ⟨hl, hstop⟩
    obtain ⟨hfront, hback⟩ := h.split
    obtain ⟨hstage, hquiet, hclosed, hsome⟩ := x.happens.of_stop hl hstop
    obtain ⟨-, hnone, hsummary⟩ := Course.closed started (hfront.append (.one x)) hback hclosed
    refine ⟨(kept_of_course started hfront).returned hstage, ?_, hsummary hsome⟩
    rw [← List.singleton_append, begun_append, begun_singleton, hquiet, hnone]
    rfl
  case counted => exact fun s hs => hkept.counted hs
  case cut => exact hkept.cut
  case goesOn =>
    intro uncut e rest left returned ready hready due
    rw [← hconfig] at left
    exact hkept.goesOn uncut left returned hready due

/-! ### A schedule that is cut short

Of three actions, two are due at the same time. The first takes until after the time of the third,
and the shutdown comes while the second is at work. -/

def sampleConfig : AppConfig where
  tracker := { markets := [], tradeRefresh := { enabled := false } }
  replay := { path := "feed.ndjson" }
  schedule := [⟨20, .add, ⟨"B"⟩⟩, ⟨5, .add, ⟨"A"⟩⟩, ⟨5, .remove, ⟨"A"⟩⟩]

theorem orderedSchedule_sampleConfig : sampleConfig.orderedSchedule =
    [⟨5, .add, ⟨"A"⟩⟩, ⟨5, .remove, ⟨"A"⟩⟩, ⟨20, .add, ⟨"B"⟩⟩] := by
  simp [AppConfig.orderedSchedule, sampleConfig, List.mergeSort]

def sampleTracker : Tracker :=
  ⟨sampleConfig.tracker, .empty .snapshotOnly (.ofConfig {} 0), {}, none, [], [], [], 0, 0⟩

def sampleStarted : Application :=
  ⟨sampleConfig, sampleTracker.started, .awaitingReady, .idle, 0, false, 0, false, false, none⟩

/-- The tracker makes some steps. -/
def tracked (ls : List Tracker.Label) : List Label := ls.map .tracker

/-- The tracker becomes ready. -/
def sampleStartup : List Moment × Application :=
  moments sampleStarted (tracked [.proceed (.startup 0)])

/-- The application sees that, and the schedule begins. -/
def sampleReady : Moment where
  before := sampleStartup.2
  label := .ready
  effects := []
  after :=
    { sampleStartup.2 with
      stage := .reporting (sampleStartup.2.tracker.clock + sampleConfig.reportInterval)
      schedule := .waiting [⟨5, .add, ⟨"A"⟩⟩, ⟨5, .remove, ⟨"A"⟩⟩, ⟨20, .add, ⟨"B"⟩⟩]
      readySince := sampleStartup.2.tracker.clock }
  step := by
    rw [← orderedSchedule_sampleConfig]
    rfl

def sampleSchedule : List Moment × Application :=
  moments sampleReady.after <|
    -- the first market is added, which takes some time
    tracked [.pass 5 0] ++ [.act] ++
    tracked [.proceed (.request 0), .proceed (.request 0), .hear (.request 0) (.flag true),
      .proceed (.request 0), .pass 30 0,
      .hear (.request 0) (.book (.ok ⟨⟨"A"⟩, 10, default, [], []⟩))] ++ [.act, .act] ++
    -- the shutdown comes while it is being removed
    [.shutdown, .interrupt] ++
    tracked [.proceed (.request 1), .proceed (.worker 0), .proceed (.request 1),
      .hear (.request 1) (.flag false)] ++ [.act, .cut, .settled]

def sampleMoments : List Moment := sampleStartup.1 ++ [sampleReady] ++ sampleSchedule.1

theorem course_sampleMoments : Course sampleStarted sampleMoments sampleSchedule.2 :=
  ((course_moments _ sampleStarted).append (.one sampleReady)).append
    (course_moments _ sampleReady.after)

/-- Both actions that were begun count, and the third is not begun. -/
theorem carriedOut_of_course_sample :
    start sampleConfig sampleTracker = .ok sampleStarted ∧
    Course sampleStarted sampleMoments sampleSchedule.2 ∧
    sampleSchedule.2.summary?.map (·.completed) = some 2 ∧
    (begun sampleMoments).map Begun.entry = [⟨5, .add, ⟨"A"⟩⟩, ⟨5, .remove, ⟨"A"⟩⟩] ∧
    (begun sampleMoments).countP (·.Returned sampleMoments true) = 2 ∧
    CarriedOut sampleConfig sampleMoments sampleSchedule.2 := by
  have hstart : start sampleConfig sampleTracker = .ok sampleStarted := rfl
  obtain ⟨-, carried⟩ := carriedOut_of_course hstart course_sampleMoments
  have hsummary : sampleSchedule.2.summary?.map (·.completed) = some 2 := rfl
  obtain ⟨s, hs, hcompleted⟩ := Option.map_eq_some_iff.mp hsummary
  refine ⟨hstart, course_sampleMoments, hsummary, ?_, ?_, carried⟩
  · decide +kernel
  · exact (carried.counted s hs).symm.trans hcompleted

end Application

end LiveBook
