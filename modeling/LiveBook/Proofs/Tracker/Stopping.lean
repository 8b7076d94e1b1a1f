import LiveBook.Proofs.Tracker.Calls

/-!
# Stopping leaves nothing behind

A stop cancels the run, waits for its tasks, then for the lock and for the workers. Adds and
removes are not among those that it waits for; they may be anywhere. The main statement,
`LiveBook.Tracker.stop_answers`, is about the moment when the stop returns: nothing is left of
any market, the ready signal is down and all tasks of the run have ended
(`LiveBook.Tracker.Cleared`), and it stays so until the next run begins.

* `LiveBook.Tracker.AtRest` – between a stop and the next run;
* `LiveBook.Tracker.Doomed` – a call that will not be answered with yes, even if another run has
  begun meanwhile: it is cancelled, or it is waiting for the lock before anything of that run;
* `LiveBook.Tracker.AtRest.returns` – such a call is answered once those before it are.
-/

namespace LiveBook

namespace Tracker

variable {t t' : Tracker} {m : MarketId} {i j k r : ℕ} {b : Bool} {xs ys : List Move} {x : Move}
  {s : RequestStage} {l : Label} {fx : List TrackerEffect}

/-! ### Runs that are known -/

/-- Runs are known by whoever refers to them. -/
structure Known (t : Tracker) : Prop where
  run : ∀ r, t.run = some r → ∃ run, t.run? r = some run
  add : ∀ i m r stage, t.request? i = some (.add m r stage) → ∃ run, t.run? r = some run

/-- A request is about the same run as before. -/
theorem Goes.run_of_add {stage : AddStage} (h : t.Goes i s l fx t') (hs : t.request? i = some s)
    (hi : t'.request? i = some (.add m r stage)) : ∃ stage, s = .add m r stage := by
  have self : ∀ {v}, (t.requests.set i v)[i]? = some (.add m r stage) → v = .add m r stage :=
    fun hv => by
      rw [List.getElem?_set_self (List.getElem?_eq_some_iff.mp hs).1] at hv
      exact Option.some.inj hv
  cases h <;> first
    | (cases self hi; done)
    | (cases self hi; exact ⟨_, rfl⟩)

/-- Adding a market begins with the present run. -/
theorem Happens.run_of_add {stage : AddStage} (h : t.Happens l fx t')
    (hi : t'.request? i = some (.add m r stage)) :
    t.run = some r ∨ ∃ stage, t.request? i = some (.add m r stage) := by
  have append : ∀ {t₀ : Tracker} {s}, t₀.requests = t.requests → s ≠ .add m r stage →
      (t₀.append s).request? i = some (.add m r stage) →
      ∃ stage, t.request? i = some (.add m r stage) := by
    intro t₀ s hrequests hs hi
    rcases request?_append hi with ⟨-, heq⟩ | hi
    · exact absurd heq.symm hs
    · rw [Tracker.request?, hrequests] at hi
      exact ⟨stage, hi⟩
  cases h with
  | abandons hrun => exact .inr ⟨stage, (t.request?_cancelRun _ i).symm.trans hi⟩
  | asks h =>
    cases h with
    | adds hrun =>
      rcases request?_append hi with ⟨-, heq⟩ | hi
      · cases heq
        exact .inl hrun
      · exact .inr ⟨stage, hi⟩
    | stops hrun => exact .inr (append (t.requests_cancelRun _) (by simp) hi)
    | removes => exact .inr (append rfl (by simp) hi)
    | addsNothing => exact .inr (append rfl (by simp) hi)
    | stopsNothing => exact .inr (append rfl (by simp) hi)
    | awaits => exact .inr (append rfl (by simp) hi)
  | @goes j s _ _ _ hj hs h =>
    by_cases hij : i = j
    · subst hij
      obtain ⟨stage, rfl⟩ := h.run_of_add hs hi
      exact .inr ⟨stage, hs⟩
    · exact .inr ⟨stage, (h.request?_of_ne hij).symm.trans hi⟩
  | tends hl other h =>
    rw [Tracker.request?, h.rest.2.2] at hi
    exact .inr ⟨stage, hi⟩
  | _ => exact .inr ⟨stage, hi⟩

/-- A run is the present one from its beginning. -/
theorem Happens.run_before (h : t.Happens l fx t') (hrun : t'.run = some r) :
    t.run = some r ∨ ∃ run, t'.run? r = some run := by
  cases h with
  | starts idle =>
    obtain rfl := Option.some.inj hrun
    exact .inr ⟨_, List.getElem?_concat_length⟩
  | abandons hrun' => exact .inl ((t.run_cancelRun _).symm.trans hrun)
  | asks h =>
    cases h with
    | stops hrun' => cases hrun
    | _ => exact .inl hrun
  | goes hl hs h => exact .inl (h.rest.2.1 ▸ hrun)
  | tends hl other h => exact .inl (h.rest.2.1 ▸ hrun)
  | _ => exact .inl hrun

theorem Orderly.known (h : t.Orderly) : t.Known := by
  induction h with
  | init h =>
    obtain ⟨-, rfl⟩ := eq_of_ofConfig h
    exact ⟨by simp, by simp [request?]⟩
  | step before orderly next ih =>
    have hhappens := step_happens next
    refine ⟨fun r hrun => ?_, fun i m r stage hi => ?_⟩
    · rcases hhappens.run_before hrun with hrun | hnew
      · obtain ⟨run, hr⟩ := ih.run r hrun
        exact (hhappens.run? hr).imp fun _ => And.left
      · exact hnew
    · obtain ⟨run, hr⟩ : ∃ run, Tracker.run? _ r = some run := by
        rcases hhappens.run_of_add hi with hrun | ⟨stage, hi⟩
        · exact ih.run r hrun
        · exact ih.add i m r stage hi
      exact (hhappens.run? hr).imp fun _ => And.left

/-- A call is answered with yes only while it has the lock. -/
theorem Happens.hasLock_of_granted (h : t.Happens l fx t')
    (granted : .answered j (.flag true) ∈ fx) : ∃ s, t.request? j = some s ∧ s.HasLock := by
  cases h with
  | asks h => cases h <;> simp at granted
  | goes hl hs h =>
    obtain rfl := Option.some.inj (h.shown _ granted)
    refine ⟨_, hs, ?_⟩
    cases h with
    | addActivates hd => trivial
    | removeEnds answer => trivial
    | _ => simp at granted
  | tends hl other h => cases h.shown _ granted
  | _ => simp at granted

/-! ### Between a stop and the next run -/

/-- A run begins with this move. -/
def Move.Begins (x : Move) : Prop := x.label = .start ∧ x.before.run = none

/-- **A tracker at rest**: it does not run, and no stop is in progress. -/
structure AtRest (t : Tracker) : Prop where
  run : t.run = none
  stop : ¬t.IsStopping
  lowered : t.ready.raised = false

namespace AtRest

theorem not_hasLock (h : t.AtRest) (orderly : t.Orderly) (hs : t.request? i = some s) :
    ¬s.HasLock := fun has =>
  (orderly.busy i s hs has).elim (absurd h.run) h.stop

theorem isCancelled (h : t.AtRest) (order : t.InOrder) {run : Run} (hr : t.run? r = some run) :
    run.isCancelled = true := by
  by_contra hc
  exact absurd (h.run.symm.trans (order.current r run hr (by simpa using hc))) (by simp)

theorem slot?_eq_none (h : t.AtRest) (order : t.InOrder) (m : MarketId) :
    t.desk.slot? m = none :=
  Desk.phase_eq_unregistered.mp (order.emptied h.run h.stop m)

theorem startup_ended (h : t.AtRest) (order : t.InOrder) {run : Run} (hr : t.run? r = some run) :
    run.startup = .ended :=
  order.startup_ended h.run (fun i hi => h.stop ⟨i, _, hi⟩) hr

/-- A request is made that is not a stop. -/
theorem append (h : t.AtRest) (hs : s.isStop = false) (lock : List Actor) :
    AtRest { t.append s with lock := lock } := by
  refine ⟨h.run, ?_, h.lowered⟩
  rintro ⟨i, st, hi⟩
  rcases request?_append (t := t) hi with ⟨-, rfl⟩ | hi
  · cases hs
  · exact h.stop ⟨i, st, hi⟩

theorem goes (h : t.AtRest) (hs : t.request? i = some s) (step : t.Goes i s l fx t') :
    t'.AtRest := by
  have hrun := step.rest.2.1
  have hnot : s.isStop = false := by
    by_contra hstop
    obtain ⟨st, rfl⟩ := RequestStage.isStop_iff.mp (by simpa using hstop)
    exact h.stop ⟨i, st, hs⟩
  -- neither is the request a stop afterwards
  have stop : ∀ {v}, t'.request? i = some v → v.isStop = false → ¬t'.IsStopping := by
    rintro v hv hstop ⟨j, st, hj⟩
    by_cases hji : j = i
    · subst hji
      obtain rfl := Option.some.inj (hv.symm.trans hj)
      cases hstop
    · exact h.stop ⟨j, st, (step.request?_of_ne hji).symm.trans hj⟩
  have rest : ∀ {v}, t'.request? i = some v → v.isStop = false → t'.ready = t.ready → t'.AtRest :=
    fun hv hstop ready => ⟨hrun.trans h.run, stop hv hstop, ready ▸ h.lowered⟩
  cases step.uses hs with
  | comes before desk ready after locking hstop lock => exact rest after (hstop.trans hnot) ready
  | leaves before desk ready after hstop lock => exact rest after rfl ready
  | keeps before ready after has hstop lock => exact rest after (hstop.trans hnot) ready
  | returns before ready after lock =>
    exact rest after rfl (ready.resolve_right fun hstop => by simp [hnot] at hstop)

theorem tends (h : t.AtRest) (order : t.InOrder) (step : t.Tends fx t') : t'.AtRest := by
  obtain ⟨-, hrun, hrequests⟩ := step.rest
  refine ⟨hrun.trans h.run, ?_, ?_⟩
  · rintro ⟨i, st, hi⟩
    rw [Tracker.request?, hrequests] at hi
    exact h.stop ⟨i, st, hi⟩
  · -- only a startup raises the signal, and all of them have ended
    cases step with
    | startupEnds hr none => exact absurd (none.symm.trans (h.startup_ended order hr)) (by simp)
    | startupActivates hr locking =>
      exact absurd (locking.symm.trans (h.startup_ended order hr)) (by simp)
    | _ => exact h.lowered

/-- **It stays at rest until a run begins.** -/
theorem move (h : x.before.AtRest) (order : x.before.InOrder) (begins : ¬x.Begins) :
    x.after.AtRest := by
  obtain ⟨t, l, fx, t', step⟩ := x
  dsimp only at h order ⊢
  cases step_happens step with
  | starts idle => exact absurd ⟨rfl, idle⟩ begins
  | abandons hrun => exact absurd (h.run.symm.trans hrun) (by simp)
  | asks step =>
    cases step with
    | addsNothing idle => exact h.append rfl _
    | adds hrun => exact absurd (h.run.symm.trans hrun) (by simp)
    | removes => exact h.append rfl _
    | stopsNothing idle => exact h.append rfl _
    | stops hrun => exact absurd (h.run.symm.trans hrun) (by simp)
    | awaits => exact h.append rfl _
  | goes hl hs step => exact h.goes hs step
  | tends hl other step => exact h.tends order step
  | _ => exact h

/-- Meanwhile no call is answered with yes. -/
theorem not_granted (h : x.before.AtRest) (orderly : x.before.Orderly) (j : ℕ) :
    .answered j (.flag true) ∉ x.effects := fun granted => by
  obtain ⟨s, hs, has⟩ := x.happens.hasLock_of_granted granted
  exact h.not_hasLock orderly hs has

theorem course (h : t.AtRest) (orderly : t.Orderly) (course : Course t ys t')
    (begins : ∀ y ∈ ys, ¬y.Begins) :
    t'.AtRest ∧ ∀ y ∈ ys, ∀ j, .answered j (.flag true) ∉ y.effects := by
  induction course with
  | nil => exact ⟨h, by simp⟩
  | @snoc ys y before _ ih =>
    obtain ⟨rest, none⟩ := ih fun z hz => begins z (List.mem_append_left _ hz)
    have horderly := before.orderly orderly
    refine ⟨rest.move horderly.inOrder (begins y (by simp)), fun z hz j => ?_⟩
    rcases List.mem_append.mp hz with hz | hz
    · exact none z hz j
    · exact (List.mem_singleton.mp hz) ▸ rest.not_granted horderly j

end AtRest

/-! ### The stop -/

/-- **How far the stop of a run has come.** -/
inductive Stops (r i : ℕ) (t : Tracker) : Prop where
  | awaits (hs : t.request? i = some (.stop (.awaitingTasks r)))
  /-- All tasks of the run have ended. -/
  | goesOn {stage : StopStage} (hs : t.request? i = some (.stop stage))
      (later : ∀ r, stage ≠ .awaitingTasks r)
      (ended : ∃ run, t.run? r = some run ∧ run.hasEnded = true)
  | answered {reply : Reply} (hs : t.request? i = some (.answered reply))

/-- A run that has ended has ended for good. -/
theorem Move.hasEnded (x : Move)
    (h : ∃ run, x.before.run? r = some run ∧ run.hasEnded = true) :
    ∃ run, x.after.run? r = some run ∧ run.hasEnded = true := by
  obtain ⟨run, hr, hended⟩ := h
  obtain ⟨run', hr', -, hended'⟩ := x.happens.run? hr
  exact ⟨run', hr', hended' hended⟩

/-- **The stop goes on**, or others do meanwhile. -/
theorem Stops.move (h : Stops r i x.before) : Stops r i x.after := by
  by_cases hx : x.IsOf i
  · have goes : ∀ {s}, x.before.request? i = some s →
        x.before.Goes i s x.label x.effects x.after := hx.goes
    have lasting := x.hasEnded (r := r)
    obtain ⟨t, l, fx, t', step⟩ := x
    dsimp only at h goes lasting ⊢
    cases h with
    | awaits hs =>
      have hgoes := goes hs
      cases hgoes with
      | stopQueues hr ended =>
        exact .goesOn (request?_setRequest_self hs) (by simp) (lasting ⟨_, hr, ended⟩)
    | goesOn hs later ended =>
      have hgoes := goes hs
      cases hgoes with
      | stopQueues => exact absurd rfl (later _)
      | stopDismisses => exact .goesOn (request?_setRequest_self hs) (by simp) (lasting ended)
      | stopDisbands => exact .answered (request?_setRequest_self hs)
      | stopDrains => exact .goesOn (request?_setRequest_self hs) (by simp) (lasting ended)
      | stopEnds => exact .answered (request?_setRequest_self hs)
    | answered hs =>
      have hgoes := goes hs
      cases hgoes
  · cases h with
    | awaits hs => exact .awaits (x.unmoved hs hx).1
    | goesOn hs later ended => exact .goesOn (x.unmoved hs hx).1 later (x.hasEnded ended)
    | answered hs => exact .answered (x.unmoved hs hx).1

/-- At any moment after it was asked for, the stop has come to some place. -/
theorem Since.stops (h : Since .stop i xs t)
    (running : ∀ x, xs.head? = some x → x.before.run = some r) : Stops r i t := by
  induction h with
  | @made x orderly asked number =>
    have hrun := running x rfl
    obtain ⟨t, l, fx, t', step⟩ := x
    dsimp only at asked number hrun
    subst asked number
    have hasks := (step_happens step).asked
    cases hasks with
    | stopsNothing idle => exact absurd (idle.symm.trans hrun) (by simp)
    | @stops r' hrun' =>
      obtain rfl := Option.some.inj (hrun'.symm.trans hrun)
      have hself := (t.cancelRun r').request?_append_self (.stop (.awaitingTasks r'))
      rw [requests_cancelRun] at hself
      exact .awaits hself
  | @snoc xs x before orderly ih =>
    exact (ih fun y hy => running y (by rw [List.head?_append, hy, Option.some_or])).move

/-- **When the stop returns,** the tracker is at rest, and all tasks of the run have ended. -/
theorem Since.atRest (h : Since .stop i (xs ++ [x]) t)
    (running : ∀ x, xs.head? = some x → x.before.run = some r) (later : xs ≠ [])
    (answered : .answered i .done ∈ x.effects) :
    t.AtRest ∧ ∃ run, t.run? r = some run ∧ run.hasEnded = true := by
  obtain ⟨rfl, ⟨rfl, -⟩ | ⟨before, orderly⟩⟩ := h.last
  · exact absurd rfl later
  · have hstops := before.stops running
    have order := before.orderly.inOrder
    have hx : x.IsOf i := x.happens.shown answered rfl
    have goes : ∀ {s}, x.before.request? i = some s →
        x.before.Goes i s x.label x.effects x.after := hx.goes
    have lasting := x.hasEnded (r := r)
    obtain ⟨t, l, fx, t', step⟩ := x
    dsimp only at hstops goes lasting order answered ⊢
    -- it was the only stop, and it has been answered
    have rest : ∀ {stage} {t' : Tracker}, t.request? i = some (.stop stage) →
        t'.run = t.run → t'.requests = t.requests.set i (.answered .done) →
        t'.ready = t.ready.clear → t'.AtRest := by
      intro stage t' hs hrun hrequests hready
      refine ⟨hrun.trans (order.stopped i _ hs), ?_, hready ▸ ReadySignal.raised_put _ _⟩
      rintro ⟨j, st, hj⟩
      rw [Tracker.request?, hrequests] at hj
      rcases eq_or_getElem?_of_set hj with ⟨-, hst⟩ | ⟨hji, hj⟩
      · cases hst
      · exact hji (order.stopsOnce j i _ _ hj hs)
    cases hstops with
    | awaits hs =>
      have hgoes := goes hs
      cases hgoes
      simp at answered
    | goesOn hs _ ended =>
      have hgoes := goes hs
      cases hgoes with
      | stopDisbands => exact ⟨rest hs rfl rfl rfl, lasting ended⟩
      | stopEnds => exact ⟨rest hs rfl rfl rfl, lasting ended⟩
      | _ => simp at answered
    | answered hs =>
      have hgoes := goes hs
      cases hgoes

/-! ### Calls that are pending -/

/-- It is asked for a market to be added or removed, and the call was not answered yet. -/
def IsPending (t : Tracker) (j : ℕ) : Prop :=
  ∃ m, (∃ r stage, t.request? j = some (.add m r stage)) ∨
    ∃ stage, t.request? j = some (.remove m stage)

/-- No market is active. -/
def Inactive (t : Tracker) : Prop := ∀ m, t.desk.phase m ≠ .active

/-- **A call that waits for the lock and will not do anything with it**, as long as no market is
active. -/
def Harmless (t : Tracker) : Actor → Prop
  | .request k => (∃ m, t.request? k = some (.remove m .locking)) ∨
      ∃ m r run, t.request? k = some (.add m r .locking) ∧ t.run? r = some run ∧
        run.isCancelled = true
  | _ => False

theorem isCancelled_of_run? {run : Run} (hr : t.run? r = some run)
    (cancelled : run.isCancelled = true) : t.isCancelled r = true := by
  rw [Tracker.isCancelled, hr]
  exact cancelled

theorem Harmless.isLocking (h : t.Harmless (.request k)) :
    ∃ s, t.request? k = some s ∧ s.IsLocking := by
  rcases h with ⟨m, hs⟩ | ⟨m, r, run, hs, -⟩
  · exact ⟨_, hs, trivial⟩
  · exact ⟨_, hs, trivial⟩

/-- It goes on only with the lock. -/
theorem Harmless.holdsLock (h : t.Harmless (.request k)) (step : t.Happens l fx t')
    (hl : l.request? = some k) : t.holdsLock (.request k) = true := by
  obtain ⟨v, hv, locking⟩ := h.isLocking
  cases step with
  | goes hl' hs step =>
    obtain rfl := Option.some.inj (hl'.symm.trans hl)
    obtain rfl := Option.some.inj (hs.symm.trans hv)
    cases step.uses hs with
    | comes before => exact absurd locking before.1
    | leaves before => exact absurd locking before.1
    | keeps before => exact (before.resolve_left locking.not_hasLock).2
    | returns before => exact (before.resolve_left locking.not_hasLock).2
  | tends hl' other step => exact absurd (hl'.symm.trans hl) (by simp)
  | _ => cases hl

/-- **It is answered with no, and that is all.** -/
theorem Harmless.declines (h : t.Harmless (.request k)) (inactive : t.Inactive)
    (step : t.Happens l fx t') (hl : l.request? = some k) : fx = [.answered k (.flag false)] ∧
      t' = (t.setRequest k (.answered (.flag false))).unlock := by
  cases step with
  | goes hl' hs step =>
    obtain rfl := Option.some.inj (hl'.symm.trans hl)
    rcases h with ⟨m, hv⟩ | ⟨m, r, run, hv, hr, cancelled⟩
    · obtain rfl := Option.some.inj (hs.symm.trans hv)
      cases step with
      | removeDeclines => exact ⟨rfl, rfl⟩
      | removeRetires holds active => exact absurd (Desk.phase_of_slot active) (inactive m)
      | removeRetiresNobody holds active => exact absurd (Desk.phase_of_slot active) (inactive m)
    · obtain rfl := Option.some.inj (hs.symm.trans hv)
      cases step with
      | addDeclines => exact ⟨rfl, rfl⟩
      | addRegisters holds going =>
        exact absurd (going.symm.trans (isCancelled_of_run? hr cancelled)) (by simp)
      | addQuits _ adding => cases adding
  | tends hl' other step => exact absurd (hl'.symm.trans hl) (by simp)
  | _ => cases hl

/-- The moves of others do not matter. -/
theorem Harmless.unmoved (h : x.before.Harmless (.request k)) (hx : x.label.request? ≠ some k) :
    x.after.Harmless (.request k) := by
  rcases h with ⟨m, hs⟩ | ⟨m, r, run, hs, hr, cancelled⟩
  · exact .inl ⟨m, x.happens.request?_of_ne hx hs⟩
  · obtain ⟨run', hr', hcancelled, -⟩ := x.happens.run? hr
    exact .inr ⟨m, r, run', x.happens.request?_of_ne hx hs, hr', hcancelled cancelled⟩

/-- **Whoever waits for the lock of a tracker at rest is harmless.** -/
theorem AtRest.harmless (h : t.AtRest) (orderly : t.Orderly) {a : Actor} (ha : a ∈ t.lock) :
    t.Harmless a ∧ ∃ k, a = .request k := by
  have hattends := orderly.queued.attends a ha
  cases a with
  | startup r =>
    obtain ⟨run, hr, hlocking⟩ := hattends
    rw [h.startup_ended orderly.inOrder hr] at hlocking
    exact hlocking.elim
  | request k =>
    obtain ⟨s, hs, hlock⟩ := hattends
    have locking := hlock.resolve_right (h.not_hasLock orderly hs)
    refine ⟨?_, k, rfl⟩
    rcases s with ⟨m, r, _ | _ | _ | _ | _ | _⟩ | ⟨m, _ | w | _⟩ | (r | _ | ws) | _ | reply
    all_goals first | exact absurd locking id | skip
    · obtain ⟨run, hr⟩ := orderly.known.add k m r _ hs
      exact .inr ⟨m, r, run, hs, hr, h.isCancelled orderly.inOrder hr⟩
    · exact .inl ⟨m, hs⟩
    · exact absurd ⟨k, _, hs⟩ h.stop
  | _ => exact hattends.elim

theorem AtRest.inactive (h : t.AtRest) (order : t.InOrder) : t.Inactive := fun m => by
  rw [Desk.phase_of_none (h.slot?_eq_none order m)]
  simp

/-- **A call that will be answered with no**, or was answered before. If it removes a market, those
before it in the queue are as harmless as itself, and whatever a new run does with the lock comes
later. -/
inductive Doomed (t : Tracker) (j : ℕ) : Prop where
  | adds {m : MarketId} {r : ℕ} {run : Run} {stage : AddStage}
      (hs : t.request? j = some (.add m r stage))
      (outside : stage = .awaitingReady ∨ stage = .locking) (hr : t.run? r = some run)
      (cancelled : run.isCancelled = true)
  | removes {m : MarketId} {pre post : List Actor} (hs : t.request? j = some (.remove m .locking))
      (lock : t.lock = pre ++ .request j :: post)
      (harmless : ∀ a ∈ pre, t.Harmless a ∧ ∃ k, a = .request k) (inactive : t.Inactive)
  | answered {reply : Reply} (hs : t.request? j = some (.answered reply))

namespace Doomed

/-- It is not answered with yes. -/
theorem not_granted (h : x.before.Doomed j) : .answered j (.flag true) ∉ x.effects := by
  intro granted
  obtain ⟨s, hs, has⟩ := x.happens.hasLock_of_granted granted
  cases h with
  | adds hs' outside =>
    obtain rfl := Option.some.inj (hs.symm.trans hs')
    rcases outside with rfl | rfl <;> exact has
  | removes hs' =>
    obtain rfl := Option.some.inj (hs.symm.trans hs')
    exact has
  | answered hs' =>
    obtain rfl := Option.some.inj (hs.symm.trans hs')
    exact has

/-- The adding of a market for a run that was cancelled comes to the lock at most. -/
theorem move_adds {run : Run} {stage : AddStage}
    (hs : x.before.request? j = some (.add m r stage))
    (outside : stage = .awaitingReady ∨ stage = .locking) (hr : x.before.run? r = some run)
    (cancelled : run.isCancelled = true) : x.after.Doomed j := by
  obtain ⟨run', hr', hcancelled, -⟩ := x.happens.run? hr
  have hcancelled := hcancelled cancelled
  by_cases hx : x.IsOf j
  · have hgoes := hx.goes hs
    obtain ⟨t, l, fx, t', step⟩ := x
    dsimp only at hs hr hr' hgoes ⊢
    cases hgoes with
    | addQueues => exact .adds (request?_setRequest_self hs) (.inr rfl) hr' hcancelled
    | addGivesUp => exact .answered (request?_setRequest_self hs)
    | addDeclines => exact .answered (request?_setRequest_self hs)
    | addRegisters holds going =>
      exact absurd (going.symm.trans (isCancelled_of_run? hr cancelled)) (by simp)
    | addQuits _ adding => rcases outside with rfl | rfl <;> cases adding
    | _ => simp at outside
  · exact .adds (x.unmoved hs hx).1 outside hr' hcancelled

section Queue

variable {pre post : List Actor}

/-- While the first in the queue does not go on, nobody in the queue does. -/
theorem waits (hs : x.before.request? j = some (.remove m .locking))
    (lock : x.before.lock = pre ++ .request j :: post)
    (harmless : ∀ a ∈ pre, x.before.Harmless a ∧ ∃ k, a = .request k)
    (inactive : x.before.Inactive) (order : x.before.Orderly) (orderly : x.IsOrderly)
    (holds : x.before.holdsLock (.request k) = true) (hl : x.label.request? ≠ some k) :
    x.after.Doomed j := by
  have here : x.before.Harmless (.request j) := .inl ⟨m, hs⟩
  -- whoever is harmless goes on only with the lock, which another has
  have hne : ∀ {k'}, x.before.Harmless (.request k') → x.label.request? ≠ some k' := by
    intro k' hk' h
    have hsame := holdsLock_unique holds (hk'.holdsLock x.happens h)
    exact hl (Actor.request.inj hsame ▸ h)
  obtain ⟨more, hmore⟩ := x.happens.lock_prefix order.inOrder holds hl
  have hlock : x.after.lock = pre ++ .request j :: (post ++ more) := by
    rw [← hmore, lock, List.append_assoc, List.cons_append]
  refine .removes (x.happens.request?_of_ne (hne here) hs) hlock (fun b hb => ?_) fun m' => ?_
  · obtain ⟨hb', k', rfl⟩ := harmless b hb
    exact ⟨hb'.unmoved (hne hb'), k', rfl⟩
  · rw [Ne, x.active_iff order.inOrder orderly holds hl]
    exact inactive m'

/-- The first in the queue is answered, and the others come one place nearer. -/
theorem comesNearer (hs : x.before.request? j = some (.remove m .locking))
    (lock : x.before.lock = .request k :: pre ++ .request j :: post)
    (harmless : ∀ a ∈ .request k :: pre, x.before.Harmless a ∧ ∃ k, a = .request k)
    (inactive : x.before.Inactive) (order : x.before.Orderly)
    (hl : x.label.request? = some k) : x.after.Doomed j := by
  obtain ⟨hfirst, -⟩ := harmless (.request k) (by simp)
  obtain ⟨-, hafter⟩ := hfirst.declines inactive x.happens hl
  -- nobody stands in the queue twice
  have nodup := order.queued.nodup
  rw [lock, List.cons_append, List.nodup_cons, List.mem_append, List.mem_cons] at nodup
  have hjk : j ≠ k := fun h => nodup.1 (.inr (.inl (h ▸ rfl)))
  have hne : ∀ {k'}, k' ≠ k → x.label.request? ≠ some k' := fun hne h =>
    hne (Option.some.inj (h.symm.trans hl))
  have hlock : x.after.lock = pre ++ .request j :: post := by
    rw [hafter]
    change x.before.lock.tail = _
    rw [lock, List.cons_append, List.tail_cons]
  refine .removes (x.happens.request?_of_ne (hne hjk) hs) hlock (fun b hb => ?_) ?_
  · obtain ⟨hb', k', rfl⟩ := harmless b (by simp [hb])
    have hk' : k' ≠ k := fun h => nodup.1 (.inl (h ▸ hb))
    exact ⟨hb'.unmoved (hne hk'), k', rfl⟩
  · rw [hafter]
    exact inactive

end Queue

/-- **It stays doomed**, even if another run begins. -/
theorem move (h : x.before.Doomed j) (order : x.before.Orderly) (orderly : x.IsOrderly) :
    x.after.Doomed j := by
  cases h with
  | adds hs outside hr cancelled => exact move_adds hs outside hr cancelled
  | @removes m pre post hs lock harmless inactive =>
    cases pre with
    | nil =>
      -- it is first itself
      have here : x.before.Harmless (.request j) := .inl ⟨m, hs⟩
      have holds : x.before.holdsLock (.request j) = true := holdsLock_iff.mpr (by rw [lock]; rfl)
      by_cases hl : x.label.request? = some j
      · obtain ⟨-, hafter⟩ := here.declines inactive x.happens hl
        rw [hafter]
        exact .answered (request?_setRequest_self hs)
      · exact waits hs lock harmless inactive order orderly holds hl
    | cons a pre =>
      obtain ⟨-, k, rfl⟩ := harmless a (by simp)
      have holds : x.before.holdsLock (.request k) = true := holdsLock_iff.mpr (by rw [lock]; rfl)
      by_cases hl : x.label.request? = some k
      · exact comesNearer hs lock harmless inactive order hl
      · exact waits hs lock harmless inactive order orderly holds hl
  | answered hs =>
    -- whoever was answered does not go on
    refine .answered (x.happens.request?_of_ne (fun hl => ?_) hs)
    have hgoes := Move.IsOf.goes (.inl hl) hs
    cases hgoes

theorem course (h : t.Doomed j) (order : t.Orderly) (course : Course t ys t') :
    t'.Doomed j ∧ ∀ y ∈ ys, .answered j (.flag true) ∉ y.effects := by
  induction course with
  | nil => exact ⟨h, by simp⟩
  | @snoc ys y before orderly ih =>
    refine ⟨ih.1.move (before.orderly order) orderly, fun z hz => ?_⟩
    rcases List.mem_append.mp hz with hz | hz
    · exact ih.2 z hz
    · exact (List.mem_singleton.mp hz) ▸ ih.1.not_granted

end Doomed

namespace AtRest

/-- A call that is pending waits without the lock. -/
theorem pending (h : t.AtRest) (orderly : t.Orderly) (hj : t.IsPending j) :
    (∃ m r run, t.request? j = some (.add m r .awaitingReady) ∧ t.run? r = some run ∧
        run.isCancelled = true) ∨
      t.Harmless (.request j) ∧ .request j ∈ t.lock := by
  have inQueue : ∀ {s}, t.request? j = some s → s.IsLocking →
      t.Harmless (.request j) ∧ .request j ∈ t.lock := fun hs locking =>
    have hmem := orderly.queued.waits j _ hs locking
    ⟨(h.harmless orderly hmem).1, hmem⟩
  obtain ⟨m, ⟨r, stage, hs⟩ | ⟨stage, hs⟩⟩ := hj
  · have hnot := h.not_hasLock orderly hs
    cases stage with
    | awaitingReady =>
      obtain ⟨run, hr⟩ := orderly.known.add j m r _ hs
      exact .inl ⟨m, r, run, hs, hr, h.isCancelled orderly.inOrder hr⟩
    | locking => exact .inr (inQueue hs trivial)
    | _ => exact absurd trivial hnot
  · have hnot := h.not_hasLock orderly hs
    cases stage with
    | locking => exact .inr (inQueue hs trivial)
    | _ => exact absurd trivial hnot

/-- **Where a tracker is at rest, all pending calls are doomed.** -/
theorem doomed (h : t.AtRest) (orderly : t.Orderly) (hj : t.IsPending j) : t.Doomed j := by
  rcases h.pending orderly hj with ⟨m, r, run, hs, hr, cancelled⟩ | ⟨harmless, hmem⟩
  · exact .adds hs (.inl rfl) hr cancelled
  · rcases harmless with ⟨m, hs⟩ | ⟨m, r, run, hs, hr, cancelled⟩
    · obtain ⟨pre, post, hlock⟩ := List.append_of_mem hmem
      exact .removes hs hlock (fun a ha => h.harmless orderly (hlock ▸ List.mem_append_left _ ha))
        (h.inactive orderly.inOrder)
    · exact .adds hs (.inr rfl) hr cancelled

end AtRest

/-! ### Calls return -/

/-- A call goes on by itself, and needs nobody for it. -/
def Move.IsOwn (x : Move) : Prop :=
  ∃ k, x.label = .proceed (.request k) ∨ x.label = .quit (.request k)

theorem Move.IsOwn.not_begins (h : x.IsOwn) : ¬x.Begins := by
  rintro ⟨hstart, -⟩
  obtain ⟨k, hl | hl⟩ := h
  · cases hstart.symm.trans hl
  · cases hstart.symm.trans hl

theorem Move.IsOwn.isOrderly (h : x.IsOwn) : x.IsOrderly := by
  intro hstart
  obtain ⟨k, hl | hl⟩ := h
  · cases hstart.symm.trans hl
  · cases hstart.symm.trans hl

/-- **The first in the queue can go on**, if it is harmless. -/
theorem Harmless.step (h : t.Harmless (.request k)) (inactive : t.Inactive)
    (holds : t.holdsLock (.request k) = true) :
    t.step (.proceed (.request k)) =
      some ((t.setRequest k (.answered (.flag false))).unlock, [.answered k (.flag false)]) := by
  rcases h with ⟨m, hs⟩ | ⟨m, r, run, hs, hr, cancelled⟩
  · have hbegin : t.beginRemove k m = t.conclude k (.flag false) := by
      unfold beginRemove
      split
      next i hi => exact absurd (Desk.phase_of_slot hi) (inactive m)
      next => rfl
    simp [Tracker.step, proceed, requestProceeds, hs, removeProceeds, holds, hbegin, conclude,
      answer]
  · have hcancelled := isCancelled_of_run? hr cancelled
    simp [Tracker.step, proceed, requestProceeds, hs, addProceeds, holds, beginAdd, hcancelled,
      conclude, answer]

namespace AtRest

/-- The first in the queue of a tracker at rest is answered with no, and the queue is shorter. -/
theorem first_returns (h : t.AtRest) (orderly : t.Orderly) {a : Actor} {rest : List Actor}
    (hlock : t.lock = a :: rest) : ∃ k x, a = .request k ∧ Course t [x] x.after ∧ x.IsOwn ∧
      x.effects = [.answered k (.flag false)] ∧ x.after.lock = rest := by
  obtain ⟨harmless, k, rfl⟩ := h.harmless orderly (a := a) (by simp [hlock])
  have holds : t.holdsLock (.request k) = true := holdsLock_iff.mpr (by rw [hlock]; rfl)
  have hstep := harmless.step (h.inactive orderly.inOrder) holds
  have own : Move.IsOwn ⟨t, _, _, _, hstep⟩ := ⟨k, .inl rfl⟩
  refine ⟨k, ⟨t, _, _, _, hstep⟩, rfl, .snoc (x := ⟨t, _, _, _, hstep⟩) .nil own.isOrderly, own,
    rfl, ?_⟩
  change t.lock.tail = rest
  rw [hlock, List.tail_cons]

/-- **Whoever is in the queue of a tracker at rest gets its turn**: those before it are answered
one after the other. -/
theorem returns_queued (pre : List Actor) {post : List Actor} {t : Tracker} (h : t.AtRest)
    (orderly : t.Orderly) (hlock : t.lock = pre ++ .request j :: post) :
    ∃ zs z, Course t (zs ++ [z]) z.after ∧ (∀ y ∈ zs ++ [z], y.IsOwn) ∧
      .answered j (.flag false) ∈ z.effects := by
  induction pre generalizing t with
  | nil =>
    obtain ⟨k, x, hk, first, own, effects, -⟩ := h.first_returns orderly hlock
    obtain rfl := Actor.request.inj hk
    exact ⟨[], x, first, fun y hy => (List.mem_singleton.mp hy) ▸ own, by simp [effects]⟩
  | cons a pre ih =>
    obtain ⟨k, x, -, first, own, -, hlock'⟩ := h.first_returns orderly hlock
    have begins : ∀ y ∈ [x], ¬y.Begins := fun y hy => (List.mem_singleton.mp hy) ▸ own.not_begins
    have rest := (h.course orderly first begins).1
    obtain ⟨zs, z, course, all, answered⟩ := ih rest (first.orderly orderly) hlock'
    refine ⟨x :: zs, z, first.append course, fun y hy => ?_, answered⟩
    rcases List.mem_cons.mp hy with rfl | hy
    · exact own
    · exact all y hy

/-- **Every pending call can return**, with no help of the source or anybody else. -/
theorem returns (h : t.AtRest) (orderly : t.Orderly) (hj : t.IsPending j) :
    ∃ zs z, Course t (zs ++ [z]) z.after ∧ (∀ y ∈ zs ++ [z], y.IsOwn) ∧
      .answered j (.flag false) ∈ z.effects := by
  rcases h.pending orderly hj with ⟨m, r, run, hs, hr, cancelled⟩ | ⟨-, hmem⟩
  · have hstep : t.step (.quit (.request j)) =
        some (t.setRequest j (.answered (.flag false)), [.answered j (.flag false)]) := by
      have hcancelled := isCancelled_of_run? hr cancelled
      simp [Tracker.step, quit, requestQuits, hs, hcancelled, addQuits, answer]
    have own : Move.IsOwn ⟨t, _, _, _, hstep⟩ := ⟨j, .inr rfl⟩
    refine ⟨[], _, .snoc (x := ⟨t, _, _, _, hstep⟩) .nil own.isOrderly, fun y hy => ?_, by simp⟩
    exact (List.mem_singleton.mp hy) ▸ own
  · obtain ⟨pre, post, hlock⟩ := List.append_of_mem hmem
    exact h.returns_queued pre orderly hlock

end AtRest

/-! ### The answer -/

/-- **Nothing is left of a run** and its markets. -/
structure Cleared (r : ℕ) (t : Tracker) : Prop where
  market : ∀ m, t.desk.Forgotten m
  lowered : t.ready.raised = false
  ended : ∃ run, t.run? r = some run ∧ run.hasEnded = true

/-- **What the return of a stop means**, which has found this run. -/
structure StopAnswers (r : ℕ) (t : Tracker) : Prop where
  /-- Nothing is left of the run, now and until the next run begins, and till then no market is
  added or removed. -/
  cleared : ∀ ys t', Course t ys t' → (∀ y ∈ ys, ¬y.Begins) →
    Cleared r t' ∧ ∀ y ∈ ys, ∀ j, .answered j (.flag true) ∉ y.effects
  /-- Calls that are pending now are not answered with yes even later. -/
  pending : ∀ j, t.IsPending j → ∀ ys t', Course t ys t' →
    ∀ y ∈ ys, .answered j (.flag true) ∉ y.effects
  /-- Calls that are pending then can return, with no. -/
  returns : ∀ ys t', Course t ys t' → (∀ y ∈ ys, ¬y.Begins) → ∀ j, t'.IsPending j →
    ∃ zs z, Course t' (zs ++ [z]) z.after ∧ (∀ y ∈ zs ++ [z], y.IsOwn) ∧
      .answered j (.flag false) ∈ z.effects

theorem hasEnded_course (h : ∃ run, t.run? r = some run ∧ run.hasEnded = true)
    (course : Course t ys t') : ∃ run, t'.run? r = some run ∧ run.hasEnded = true := by
  induction course with
  | nil => exact h
  | @snoc ys y _ _ ih => exact y.hasEnded ih

/-- **Stopping leaves nothing behind.** -/
theorem stop_answers {x₀ : Move} (h : Since .stop i (x₀ :: xs ++ [x]) t)
    (running : x₀.before.run = some r) (answered : .answered i .done ∈ x.effects) :
    StopAnswers r t := by
  have orderly := h.orderly
  have head : ∀ y, (x₀ :: xs).head? = some y → y.before.run = some r := by
    rintro y hy
    obtain rfl := Option.some.inj hy
    exact running
  obtain ⟨rest, ended⟩ := Since.atRest h head (by simp) answered
  refine ⟨fun ys t' course begins => ?_, fun j hj ys t' course => ?_,
    fun ys t' course begins j hj => ?_⟩
  · obtain ⟨rest', none⟩ := rest.course orderly course begins
    have order := (course.orderly orderly).inOrder
    refine ⟨⟨fun m => order.desk.forgotten (rest'.slot?_eq_none order m), rest'.lowered,
      hasEnded_course ended course⟩, none⟩
  · exact ((rest.doomed orderly hj).course orderly course).2
  · exact (rest.course orderly course begins).1.returns (course.orderly orderly) hj

/-! ### A tracker that is stopped

Its tasks have seen that they were cancelled, and its only worker has ended. -/

/-- A tracker of which it was asked to stop. -/
def sampleStopping : Tracker := (sampleReady.ask .stop).1

/-- All tasks see that they were cancelled, then the stop gets the lock, and the worker ends. -/
def quitAll : List Label :=
  Listener.all.map (fun l => .quit (.listener 0 l)) ++
    EventStream.all.map (fun s => .quit (.router 0 s)) ++
    [.quit (.refresh 0), .proceed (.request 0), .proceed (.request 0), .proceed (.worker 0)]

/-- The worker has ended. -/
def sampleDismissed : Tracker :=
  ((sampleStopping.stepAll ⟨"BTC-USD"⟩ quitAll).map Prod.fst).getD sampleStopping

theorem stop_answers_sample : ∃ x₀ xs x t, Since .stop 0 (x₀ :: xs ++ [x]) t ∧
    x₀.before.run = some 0 ∧ .answered 0 .done ∈ x.effects ∧ Cleared 0 t := by
  have made : Since .stop 0 _ sampleStopping :=
    .made (x := ⟨sampleReady, .ask .stop, [], sampleStopping, rfl⟩) orderly_sampleReady rfl rfl
  have steps : StepsWithin ⟨"BTC-USD"⟩ sampleStopping _ sampleDismissed :=
    stepsWithin_of_stepAll quitAll rfl
  obtain ⟨xs, since⟩ := made.within (by decide) steps
  have all := Since.snoc (x := ⟨sampleDismissed, .proceed (.request 0), _, _, rfl⟩) since
    (by simp [Move.IsOrderly])
  have answered : TrackerEffect.answered 0 .done ∈ [TrackerEffect.answered 0 .done] :=
    List.mem_singleton.mpr rfl
  have cleared := ((stop_answers (r := 0) all rfl answered).cleared [] _ .nil (by simp)).1
  exact ⟨_, xs, _, _, all, rfl, answered, cleared⟩

end Tracker

end LiveBook
