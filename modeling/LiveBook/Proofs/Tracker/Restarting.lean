import LiveBook.Proofs.Tracker.Stopping

/-!
# What a stop tears down

A run that begins while no stop is in progress is upheld until the next stop
(`LiveBook.Tracker.upheld_of_begins`): its markets stay tracked and its workers at work but for
what removals do, and the ready signal stays raised.

A run may also begin while an earlier stop waits for its tasks, for the lock or for workers. That
stop does not know of the new run: when it gets the lock, it dismisses whoever is in charge,
forgets all markets and lowers the ready signal (`LiveBook.Tracker.torn_down`).

* `LiveBook.Tracker.Happens.follows` – a step sends nobody away but the worker of a market that is
  removed, unless a stop has to do with it;
* `LiveBook.Tracker.Settled.move` – a market that is tracked, and that nobody is about to add, stays
  so until it is removed.
-/

namespace LiveBook

namespace Tracker

variable {t t' : Tracker} {m : MarketId} {i r : ℕ} {s s' : RequestStage} {l : Label}
  {fx : List TrackerEffect} {run : Run} {xs ys : List Move} {x : Move} {away : ℕ → Prop}

/-! ### Who works at the desk -/

/-- The removal of a market takes it away from this worker. -/
def Retires (t : Tracker) (l : Label) (i : ℕ) : Prop :=
  ∃ j m, l = .proceed (.request j) ∧ t.request? j = some (.remove m .locking) ∧
    t.desk.slot? m = some (.active i)

/-- **Who may be sent away with a step**: the worker of a market that is removed, and anybody once
a stop was asked for or the tracker was given up. -/
def SendsAway (t : Tracker) (l : Label) (i : ℕ) : Prop :=
  t.Retires l i ∨ t.IsStopping ∨ l = .ask .stop ∨ l = .abandon

/-- **Who works at the desk after a step.** Those who were there belong to the same runs and are
still at work, but perhaps for those who were sent away; and whoever has come belongs to a run
that is known. -/
def Follows (t : Tracker) (away : ℕ → Prop) (t' : Tracker) : Prop :=
  ∀ i w', t'.desk.worker? i = some w' →
    (∃ w, t.desk.worker? i = some w ∧ w'.run = w.run ∧
      (t.desk.AtWork i w → t'.desk.AtWork i w' ∨ away i)) ∨
    ∃ run, t.run? w'.run = some run ∧ (run.isCancelled = false → t'.desk.AtWork i w')

theorem follows_of_retains (h : t.desk.Retains away t'.desk) : t.Follows away t' :=
  fun i w' hw' => .inl (h i w' hw')

/-- A market is activated for a run. -/
theorem follows_of_activate {book : Snapshot} {window : ℕ} (hr : t.run? r = some run)
    (h : t.desk.activate m book r run.isCancelled window = .ok t'.desk) : t.Follows away t' := by
  intro i w' hw'
  rcases Desk.worker?_activate h hw' with ⟨w, hw, hrun, hwork⟩ | ⟨rfl, hwork⟩
  · exact .inl ⟨w, hw, hrun, fun h => .inl (hwork h)⟩
  · exact .inr ⟨run, hr, hwork⟩

theorem InOrder.phase_of_adding (h : t.InOrder) (hs : t.request? i = some s)
    (hop : s.operation = .adding m) : t.desk.phase m = .initializing := by
  have hsame := h.operation_eq hs (by simp [hop])
  exact (h.desk.market m).adding (hsame.trans hop)

theorem InOrder.phase_of_removing (h : t.InOrder) {j : Option ℕ} (hs : t.request? i = some s)
    (hop : s.operation = .removing m j) : t.desk.phase m = .removed := by
  have hsame := h.operation_eq hs (by simp [hop])
  exact (h.desk.market m).removing.mpr ⟨j, hsame.trans hop⟩

/-- A market that is not active is forgotten. -/
theorem follows_discard (hphase : t.desk.phase m ≠ .active) (desk : t'.desk = t.desk.discard m) :
    t.Follows away t' := by
  refine follows_of_retains (desk ▸ Desk.retains_discard fun j hj => hphase ?_)
  exact Desk.phase_of_slot hj

theorem Goes.follows (h : t.Goes i s l fx t') (orderly : t.Orderly) (hs : t.request? i = some s) :
    t.Follows (t.SendsAway l) t' := by
  have order := orderly.inOrder
  have rest : t'.desk = t.desk → t.Follows (t.SendsAway l) t' := by
    intro desk
    refine follows_of_retains ?_
    rw [desk]
    exact t.desk.retains_rest
  have discard : ∀ {m}, s.operation = .adding m → t'.desk = t.desk.discard m →
      t.Follows (t.SendsAway l) t' := fun hop =>
    follows_discard (by simp [order.phase_of_adding hs hop])
  -- a stop may send anybody away
  have stop : ∀ {st}, s = .stop st → t'.desk.staff = t.desk.staff ∨
      (∃ i, t'.desk = t.desk.cancel i) ∨ (∃ i, t'.desk = t.desk.dismiss.1.cancel i) →
      t.Follows (t.SendsAway l) t' := by
    rintro st rfl hdesk
    have all : t.desk.Retains (fun _ => True) t'.desk := by
      rcases hdesk with staff | ⟨i, desk⟩ | ⟨i, desk⟩
      · exact Desk.retains_all staff
      · exact desk ▸ (Desk.retains_cancel i).mono fun _ _ => trivial
      · have dismissed : t.desk.Retains (fun _ => True) t.desk.dismiss.1 := Desk.retains_all rfl
        exact desk ▸ dismissed.trans ((Desk.retains_cancel i).mono fun _ _ => trivial)
    exact follows_of_retains (all.mono fun _ _ => .inr (.inl ⟨i, st, hs⟩))
  cases h with
  | addRegisters holds going new => exact follows_of_retains (Desk.retains_register _ new)
  | addRefused => exact discard rfl rfl
  | addQuits cancelled adding => exact discard adding rfl
  | addFails why => exact discard rfl rfl
  | addActivates hd =>
    obtain ⟨run, hr⟩ := orderly.known.add i _ _ _ hs
    rw [Tracker.isCancelled, hr] at hd
    exact follows_of_activate hr hd
  | @removeRetires m j w holds active charge =>
    -- the worker in charge is the one whose market it was
    have hslot := (order.desk.market m).inCharge w charge
    have retired : t.desk.Retains (· = w) ((t.desk.retire m).1.cancel w) :=
      (Desk.retains_retire hslot).trans (Desk.retains_cancel w)
    refine follows_of_retains (retired.mono ?_)
    rintro w' rfl
    exact .inl ⟨i, m, rfl, hs, hslot⟩
  | @removeRetiresNobody m j holds active charge =>
    refine follows_of_retains ((Desk.retains_retire active).mono ?_)
    rintro w rfl
    exact .inl ⟨i, m, rfl, hs, active⟩
  | removeEnds b => exact follows_discard (by simp [order.phase_of_removing hs rfl]) rfl
  | stopDismisses => exact stop rfl (.inr (.inr ⟨_, rfl⟩))
  | stopDisbands => exact stop rfl (.inl rfl)
  | stopDrains => exact stop rfl (.inr (.inl ⟨_, rfl⟩))
  | stopEnds => exact stop rfl (.inl rfl)
  | _ => exact rest rfl

theorem Tends.follows (h : t.Tends fx t') : t.Follows away t' := by
  cases h with
  | task hr later startup minds tells => exact follows_of_retains minds.retains
  | worker minds tells => exact follows_of_retains minds.retains
  | startupActivates hr locking holds hd => exact follows_of_activate hr hd
  | _ => exact follows_of_retains t.desk.retains_rest

theorem retains_cancelRun (r : ℕ) : t.desk.Retains (fun _ => True) (t.cancelRun r).desk := by
  cases hr : t.run? r with
  | none =>
    rw [cancelRun_of_none hr]
    exact t.desk.retains_rest
  | some run =>
    rw [cancelRun_of_some hr]
    exact Desk.retains_cancelRun r

theorem staff_started (t : Tracker) : t.started.desk.staff = t.desk.staff := by
  obtain ⟨slots, heq⟩ := Desk.registerAll_eq
    { t.desk with metrics := t.desk.metrics.markStarted t.now } t.config.markets
    t.config.pendingCapacity
  rw [started, heq]

/-- **Who works at the desk after any step.** -/
theorem Happens.follows (h : t.Happens l fx t') (orderly : t.Orderly) :
    t.Follows (t.SendsAway l) t' := by
  cases h with
  | starts idle =>
    -- before a run begins, nobody is at work, unless a stop is in progress
    refine follows_of_retains (Desk.retains_of_staff t.staff_started fun i w hwork => .inr ?_)
    by_cases stopping : t.IsStopping
    · exact .inr (.inl stopping)
    · have hphase := orderly.inOrder.emptied idle stopping w.market
      exact absurd (hphase.symm.trans (Desk.phase_of_slot hwork.slot)) (by simp [Slot.phase])
  | abandons hrun =>
    exact follows_of_retains ((retains_cancelRun _).mono fun _ _ => .inr (.inr (.inr rfl)))
  | asks h =>
    cases h with
    | stops hrun =>
      exact follows_of_retains ((retains_cancelRun _).mono fun _ _ => .inr (.inr (.inl rfl)))
    | _ => exact follows_of_retains t.desk.retains_rest
  | goes hl hs h => exact h.follows orderly hs
  | tends hl other h => exact h.follows
  | _ => exact follows_of_retains t.desk.retains_rest

/-- **Every worker belongs to a run.** -/
theorem Orderly.run_of_worker {w : Worker} (h : t.Orderly) (hw : t.desk.worker? i = some w) :
    ∃ run, t.run? w.run = some run := by
  induction h generalizing w with
  | init h =>
    obtain ⟨-, rfl⟩ := eq_of_ofConfig h
    cases hw
  | step before orderly next ih =>
    have hhappens := step_happens next
    obtain ⟨run, hr⟩ : ∃ run, Tracker.run? _ w.run = some run := by
      rcases hhappens.follows before i w hw with ⟨v, hv, hrun, -⟩ | ⟨run, hr, -⟩
      · exact hrun ▸ ih hv
      · exact ⟨run, hr⟩
    exact (hhappens.run? hr).imp fun _ => And.left

/-! ### Markets that stay -/

/-- **A market is settled**: it is tracked, and nobody is about to add it. -/
structure Settled (t : Tracker) (m : MarketId) : Prop where
  tracked : t.desk.phase m ≠ .unregistered
  nobody : ∀ i s, t.request? i = some s → s.operation ≠ .adding m

/-- A removal of the market is answered with yes. -/
def Move.Removes (x : Move) (m : MarketId) : Prop :=
  ∃ j stage, x.before.request? j = some (.remove m stage) ∧ .answered j (.flag true) ∈ x.effects

/-- A stop is asked for, or the tracker is given up. -/
def Move.Halts (x : Move) : Prop := x.label = .ask .stop ∨ x.label = .abandon

namespace Settled

/-- The requests stay as they are. -/
theorem stays (h : t.Settled m) (requests : t'.requests = t.requests)
    (tracked : t'.desk.phase m ≠ .unregistered) : t'.Settled m := by
  refine ⟨tracked, fun i s hs => ?_⟩
  rw [Tracker.request?, requests] at hs
  exact h.nobody i s hs

/-- A request comes to another stage. -/
theorem set (h : t.Settled m) (requests : t'.requests = t.requests.set i s')
    (hop : s'.operation ≠ .adding m) (tracked : t'.desk.phase m ≠ .unregistered) :
    t'.Settled m := by
  refine ⟨tracked, fun j v hv => ?_⟩
  rw [Tracker.request?, requests] at hv
  rcases eq_or_getElem?_of_set hv with ⟨-, rfl⟩ | ⟨-, hv⟩
  · exact hop
  · exact h.nobody j v hv

/-- A request is made. -/
theorem append (h : t.Settled m) (hop : s.operation ≠ .adding m) (lock : List Actor) :
    Settled { t.append s with lock := lock } m := by
  refine ⟨h.tracked, fun j v hv => ?_⟩
  rcases request?_append (t := t) hv with ⟨-, rfl⟩ | hv
  · exact hop
  · exact h.nobody j v hv

theorem goes (h : t.Settled m) (running : ¬t.IsStopping) (hs : t.request? i = some s)
    (step : t.Goes i s l fx t') :
    t'.Settled m ∨ ∃ stage, s = .remove m stage ∧ .answered i (.flag true) ∈ fx := by
  have stop : ∀ {st}, s ≠ .stop st := by
    rintro st rfl
    exact running ⟨i, st, hs⟩
  -- nobody registers or gives up this market
  have other : ∀ {m'}, s.operation = .adding m' → m' ≠ m := by
    rintro m' hop rfl
    exact h.nobody i s hs hop
  have discard : ∀ {m'}, m' ≠ m → (t.desk.discard m').phase m ≠ .unregistered := by
    intro m' hne
    rw [Desk.phase_discard, if_neg hne]
    exact h.tracked
  have retire : ∀ {m' j}, t.desk.slot? m' = some (.active j) →
      (t.desk.retire m').1.phase m ≠ .unregistered := by
    intro m' j active
    rw [Desk.phase_retire active]
    split
    · simp
    · exact h.tracked
  cases step with
  | @addRegisters m' r holds going new =>
    have hne : m' ≠ m := by
      rintro rfl
      exact h.tracked (Desk.phase_of_none new)
    refine .inl (h.set rfl (by simpa [RequestStage.operation] using hne) ?_)
    change (t.desk.register m' _).phase m ≠ _
    rw [Desk.phase_register, if_neg hne]
    exact h.tracked
  | addSubscribed =>
    have hop := h.nobody i _ hs
    exact .inl (h.set rfl hop h.tracked)
  | addFetches =>
    have hop := h.nobody i _ hs
    exact .inl (h.set rfl hop h.tracked)
  | addRefused => exact .inl (h.set rfl (by simp [RequestStage.operation]) (discard (other rfl)))
  | addQuits cancelled adding =>
    exact .inl (h.set rfl (by simp [RequestStage.operation]) (discard (other adding)))
  | addFails why =>
    exact .inl (h.set rfl (by simp [RequestStage.operation]) (discard (other rfl)))
  | @addActivates m' r book d' hd =>
    refine .inl (h.set rfl (by simp [RequestStage.operation]) ?_)
    change d'.phase m ≠ _
    rw [Desk.phase_activate hd, if_neg (other rfl)]
    exact h.tracked
  | @removeRetires m' j w holds active charge =>
    refine .inl (h.set rfl (by simp [RequestStage.operation]) ?_)
    have hphase := ((Desk.quiet_cancel (t.desk.retire m').1 w).spares m).phase
    exact fun hnone => retire active (hphase.symm.trans hnone)
  | removeRetiresNobody holds active charge =>
    exact .inl (h.set rfl (by simp [RequestStage.operation]) (retire active))
  | @removeEnds m' b =>
    by_cases hm : m' = m
    · exact .inr ⟨_, by rw [hm], by simp⟩
    · exact .inl (h.set rfl (by simp [RequestStage.operation]) (discard hm))
  | stopQueues => exact absurd rfl stop
  | stopDismisses => exact absurd rfl stop
  | stopDisbands => exact absurd rfl stop
  | stopDrains => exact absurd rfl stop
  | stopEnds => exact absurd rfl stop
  | _ => exact .inl (h.set rfl (by simp [RequestStage.operation]) h.tracked)

theorem tends (h : t.Settled m) (order : t.InOrder) (step : t.Tends fx t') : t'.Settled m := by
  refine h.stays step.rest.2.2 ?_
  have quiet : ∀ {act d'}, t.desk.Minds act d' → d'.phase m ≠ .unregistered := by
    intro act d' minds hnone
    exact h.tracked (((minds.quiet order.desk).spares m).phase.symm.trans hnone)
  cases step with
  | task hr later startup minds tells => exact quiet minds
  | worker minds tells => exact quiet minds
  | @startupActivates r run m' rest book d' stage ready hr locking holds hd =>
    change d'.phase m ≠ _
    rw [Desk.phase_activate hd]
    split
    · simp
    · exact h.tracked
  | _ => exact h.tracked

/-- **It stays settled until it is removed**, as long as the run goes on. -/
theorem move (h : x.before.Settled m) (order : x.before.InOrder) (hrun : x.before.run = some r)
    (going : ¬x.Halts) : x.after.Settled m ∨ x.Removes m := by
  have running := order.not_isStopping hrun
  obtain ⟨t, l, fx, t', step⟩ := x
  dsimp only at h order hrun running ⊢
  cases step_happens step with
  | starts idle => exact absurd (hrun.symm.trans idle) (by simp)
  | goesOn => exact .inl h
  | abandons => exact absurd (.inr rfl) going
  | abandonsNothing => exact absurd (.inr rfl) going
  | asks step =>
    cases step with
    | stops => exact absurd (.inl rfl) going
    | stopsNothing => exact absurd (.inl rfl) going
    | _ => exact .inl (h.append (by simp [RequestStage.operation]) _)
  | goes hl hs step =>
    refine (h.goes running hs step).imp_right ?_
    rintro ⟨stage, rfl, granted⟩
    exact ⟨_, stage, hs, granted⟩
  | tends hl other step => exact .inl (h.tends order step)

end Settled

/-! ### Until the next stop -/

/-- **A run is upheld** through some moves. -/
structure Upheld (r : ℕ) (xs : List Move) (t : Tracker) : Prop where
  /-- It is the present run, and nobody has cancelled it. -/
  run : t.run = some r
  uncancelled : ∃ run, t.run? r = some run ∧ run.isCancelled = false
  /-- The markets of the configuration are tracked, but for those that were removed. -/
  registered : ∀ m ∈ t.config.markets, t.Settled m ∨ ∃ x ∈ xs, x.Removes m
  /-- Its workers are at work, but for those of markets that were removed. -/
  working : ∀ i w, t.desk.worker? i = some w → w.run = r →
    t.desk.AtWork i w ∨ ∃ x ∈ xs, x.before.Retires x.label i
  /-- The ready signal stays raised. -/
  ready : ∀ x ∈ xs, x.before.ready.raised = true → t.ready.raised = true

/-- Nothing but a stop lowers the ready signal. -/
theorem Happens.raised (h : t.Happens l fx t') (running : ¬t.IsStopping)
    (ready : t.ready.raised = true) : t'.ready.raised = true := by
  have cancel : ∀ r, (t.cancelRun r).ready.raised = true := fun r => by
    rw [ready_cancelRun, ready]
  cases h with
  | abandons hrun => exact cancel _
  | asks h =>
    cases h with
    | stops hrun => exact cancel _
    | _ => exact ready
  | @goes i s _ _ _ hl hs h =>
    cases h.uses hs with
    | comes before desk same => rw [same, ready]
    | leaves before desk same => rw [same, ready]
    | keeps before same => rw [same, ready]
    | returns before same =>
      rcases same with same | ⟨hstop, -⟩
      · rw [same, ready]
      · obtain ⟨st, rfl⟩ := RequestStage.isStop_iff.mp hstop
        exact absurd ⟨i, st, hs⟩ running
  | tends hl other h =>
    cases h with
    | startupEnds => exact ReadySignal.raised_put _ _
    | startupActivates _ _ _ _ _ _ hready =>
      rcases hready with rfl | rfl
      · exact ready
      · exact ReadySignal.raised_put _ _
    | _ => exact ready
  | _ => exact ready

namespace Upheld

/-- **A run begins and is upheld**, where no stop is in progress. -/
theorem started (orderly : t.Orderly) (idle : t.run = none) (alone : ¬t.IsStopping) :
    Upheld t.runs.length [] t.started where
  run := rfl
  uncancelled := ⟨_, List.getElem?_concat_length, rfl⟩
  registered m hm := by
    refine .inl ⟨?_, fun i s hs hop => ?_⟩
    · have hmarkets : m ∈ t.config.markets := hm
      rw [Tracker.started, Desk.phase_registerAll, if_pos hmarkets]
      simp
    · have has := RequestStage.hasLock_of_operation (s := s) (by simp [hop])
      exact (orderly.busy i s hs has).elim (absurd idle) alone
  working i w hw hrun := by
    -- nobody can belong to it yet
    rw [Desk.worker?, t.staff_started] at hw
    obtain ⟨run, hr⟩ := orderly.run_of_worker hw
    exact absurd (List.getElem?_eq_some_iff.mp hr).1 (by omega)
  ready := by simp

/-- It is the present run after the next move as well. -/
theorem goesOn (h : Upheld r xs x.before) (going : ¬x.Halts) :
    x.after.run = some r ∧ ∃ run, x.after.run? r = some run ∧ run.isCancelled = false := by
  have hrun := h.run
  obtain ⟨run, hr, uncancelled⟩ := h.uncancelled
  obtain ⟨t, l, fx, t', step⟩ := x
  dsimp only at hrun hr ⊢
  cases step_happens step with
  | starts idle => exact absurd (hrun.symm.trans idle) (by simp)
  | goesOn running => exact ⟨hrun, run, hr, uncancelled⟩
  | abandons => exact absurd (.inr rfl) going
  | abandonsNothing => exact absurd (.inr rfl) going
  | asks h =>
    cases h with
    | stops => exact absurd (.inl rfl) going
    | _ => exact ⟨hrun, run, hr, uncancelled⟩
  | goes hl hs h =>
    obtain ⟨-, hrun', hruns, -⟩ := h.rest
    refine ⟨hrun'.trans hrun, run, ?_, uncancelled⟩
    rwa [Tracker.run?, hruns]
  | tends hl other h =>
    obtain ⟨run', hr', later⟩ := h.later hr
    exact ⟨h.rest.2.1.trans hrun, run', hr', later.cancelled.trans uncancelled⟩

/-- **Every move upholds it**, unless a stop is asked for or the tracker is given up. -/
theorem move (h : Upheld r xs x.before) (orderly : x.before.Orderly) (going : ¬x.Halts) :
    Upheld r (xs ++ [x]) x.after := by
  have order := orderly.inOrder
  have running := order.not_isStopping h.run
  have before : ∀ {y}, y ∈ xs → y ∈ xs ++ [x] := List.mem_append_left _
  have last : x ∈ xs ++ [x] := by simp
  obtain ⟨hrun, huncancelled⟩ := h.goesOn going
  refine ⟨hrun, huncancelled, fun m hm => ?_, fun i w' hw' hr => ?_, fun y hy hraised => ?_⟩
  · -- a market that was removed before may be registered again, or not
    obtain ⟨act, hdoes, -⟩ := step_does x.step
    rcases h.registered m (hdoes.config ▸ hm) with settled | ⟨y, hy, removes⟩
    · exact (settled.move order h.run going).imp_right fun removes => ⟨x, last, removes⟩
    · exact .inr ⟨y, before hy, removes⟩
  · rcases x.happens.follows orderly i w' hw' with ⟨w, hw, hrun, hwork⟩ | ⟨run, hknown, hwork⟩
    · -- of those who may send a worker away, only a removal is left
      rcases h.working i w hw (hrun.symm.trans hr) with working | ⟨y, hy, retires⟩
      · rcases hwork working with working | retires | stopping | halts
        · exact .inl working
        · exact .inr ⟨x, last, retires⟩
        · exact absurd stopping running
        · exact absurd halts going
      · exact .inr ⟨y, before hy, retires⟩
    · -- somebody new, whose run is not cancelled
      obtain ⟨run', hr', uncancelled⟩ := h.uncancelled
      obtain rfl := Option.some.inj (hknown.symm.trans (hr ▸ hr'))
      exact .inl (hwork uncancelled)
  · have hbefore : x.before.ready.raised = true := by
      rcases List.mem_append.mp hy with hy | hy
      · exact h.ready y hy hraised
      · exact (List.mem_singleton.mp hy) ▸ hraised
    exact x.happens.raised running hbefore

theorem course (h : Upheld r xs t) (orderly : t.Orderly) (course : Course t ys t')
    (going : ∀ y ∈ ys, ¬y.Halts) : Upheld r (xs ++ ys) t' := by
  induction course with
  | nil => rwa [List.append_nil]
  | @snoc ys y before _ ih =>
    rw [← List.append_assoc]
    exact (ih fun z hz => going z (List.mem_append_left _ hz)).move (before.orderly orderly)
      (going y (by simp))

end Upheld

/-- **A stop tears down nothing but what was there when it was asked for**, if no run begins
before it has ended: whatever happens, a run that has begun is upheld until the next stop. -/
theorem upheld_of_begins {x₀ : Move} (orderly : x₀.before.Orderly) (begins : x₀.Begins)
    (alone : x₀.IsOrderly) (course : Course x₀.after xs t) (going : ∀ x ∈ xs, ¬x.Halts) :
    Upheld x₀.before.runs.length xs t := by
  have after : x₀.after = x₀.before.started := by
    have hstep := x₀.step
    rw [begins.1, Tracker.step, start_of_idle begins.2] at hstep
    exact (Prod.mk.inj (Option.some.inj hstep)).1.symm
  have first := Upheld.started orderly begins.2 (alone begins.1)
  exact (after ▸ first).course (.step orderly alone x₀.step) course going

/-! ### Moves by their labels -/

/-- The moves with these labels, as far as they are possible, and where they lead. -/
def moves (t : Tracker) : List Label → List Move × Tracker
  | [] => ([], t)
  | l :: ls =>
    match h : t.step l with
    | some (t', fx) => (⟨t, l, fx, t', h⟩ :: (t'.moves ls).1, (t'.moves ls).2)
    | none => ([], t)

theorem label_of_moves (ls : List Label) : ∀ {t : Tracker}, ∀ x ∈ (t.moves ls).1, x.label ∈ ls := by
  induction ls with
  | nil => simp [moves]
  | cons l ls ih =>
    intro t x hx
    unfold moves at hx
    split at hx
    next t' fx h =>
      rcases List.mem_cons.mp hx with rfl | hx
      · exact List.mem_cons_self
      · exact List.mem_cons_of_mem _ (ih x hx)
    next => cases hx

theorem course_moves (ls : List Label) (hls : .start ∉ ls) :
    ∀ t : Tracker, Course t (t.moves ls).1 (t.moves ls).2 := by
  induction ls with
  | nil => exact fun t => .nil
  | cons l ls ih =>
    intro t
    rw [List.mem_cons, not_or] at hls
    obtain ⟨hl, hls⟩ := hls
    unfold moves
    split
    next t' fx h =>
      have first : Course t [⟨t, l, fx, t', h⟩] t' :=
        .snoc (x := ⟨t, l, fx, t', h⟩) .nil fun hstart => absurd (Eq.symm hstart) hl
      exact first.append (ih hls t')
    next => exact .nil

/-- A run of the sample begins, and its market becomes active. -/
theorem upheld_of_begins_sample : ∃ (x₀ : Move) (xs : List Move) (t : Tracker),
    x₀.before.Orderly ∧ x₀.Begins ∧ x₀.IsOrderly ∧ Course x₀.after xs t ∧
    (∀ x ∈ xs, ¬x.Halts) ∧ Upheld 0 xs t ∧ t.desk.phase ⟨"BTC-USD"⟩ = .active := by
  have valid : ofConfig sample.config = .ok sample := rfl
  have alone : ¬sample.IsStopping := fun ⟨i, st, hi⟩ => by cases hi
  have labels : ∀ l ∈ fetchBook 10 ++ [.proceed (.startup 0)], l ≠ .start ∧ l ≠ .ask .stop ∧
      l ≠ .abandon := by simp [fetchBook]
  have course := course_moves _ (fun h => (labels _ h).1 rfl) sampleStarted
  have going : ∀ x ∈ (sampleStarted.moves (fetchBook 10 ++ [.proceed (.startup 0)])).1,
      ¬x.Halts := fun x hx hhalts =>
    hhalts.elim (labels _ (label_of_moves _ x hx)).2.1 (labels _ (label_of_moves _ x hx)).2.2
  have begins : Move.Begins ⟨sample, .start, [], sampleStarted, rfl⟩ := ⟨rfl, rfl⟩
  exact ⟨_, _, _, .init valid, begins, fun _ => alone, course, going,
    upheld_of_begins (.init valid) begins (fun _ => alone) course going, rfl⟩

/-! ### A run that begins during a stop

The tracker of one market is stopped at once. While its tasks have still to see this, another run
begins; its market becomes active, and the ready signal is raised. -/

/-- A run of the sample was cancelled before it had done anything. -/
def sampleHalted : Tracker := (sampleStarted.ask .stop).1

/-- The market of the new run becomes active. Then the tasks of the first run end, the stop gets
the lock, and the worker ends. -/
def restarting : List Label :=
  [.proceed (.startup 1), .hear (.startup 1) (.book (.ok (sampleSnapshot 10))),
    .proceed (.startup 1), .quit (.startup 0)] ++ quitAll

/-- The new run has become ready, and then its only worker was dismissed. -/
def sampleRestarted : Tracker := (sampleHalted.started.moves restarting).2

/-- **A stop tears down a run that has begun meanwhile**: its market is forgotten, its worker has
ended, and the ready signal is down. -/
theorem torn_down : ∃ (x₀ : Move) (xs : List Move) (t : Tracker), x₀.before.Reachable ∧
    x₀.before.requests = [.stop (.awaitingTasks 0)] ∧ x₀.Begins ∧ Course x₀.after xs t ∧
    (∀ x ∈ xs, ¬x.Halts ∧ ∀ q, x.label ≠ .ask q) ∧ ¬Upheld x₀.before.runs.length xs t ∧
    (∃ x ∈ xs, x.before.ready.raised = true) ∧ t.ready.raised = false ∧
    t.desk.phase ⟨"BTC-USD"⟩ = .unregistered ∧ ⟨"BTC-USD"⟩ ∈ t.config.markets ∧ t.run = some 1 ∧
    ∃ w, t.desk.worker? 0 = some w ∧ w.run = 1 ∧ w.isCancelled = true ∧ w.stage = .ended := by
  have reachable : sampleHalted.Reachable := by
    have hstart : sample.step .start = some (sampleStarted, []) := rfl
    have hstop : sampleStarted.step (.ask .stop) = some (sampleHalted, []) := rfl
    exact (reachable_sample.step hstart).step hstop
  have labels : ∀ l ∈ restarting, l ≠ .start ∧ l ≠ .abandon ∧ ∀ q, l ≠ .ask q := by
    simp [restarting, quitAll, Listener.all, EventStream.all]
  let x : Move := ⟨sampleRestarted, .proceed (.request 0), _, _, rfl⟩
  -- with its last move the stop returns
  have course : Course sampleHalted.started ((sampleHalted.started.moves restarting).1 ++ [x])
      x.after :=
    .snoc (course_moves _ (fun h => (labels _ h).1 rfl) _) fun hstart => Label.noConfusion hstart
  have mem : x ∈ (sampleHalted.started.moves restarting).1 ++ [x] := by simp
  refine ⟨⟨sampleHalted, .start, [], sampleHalted.started, rfl⟩, _, _, reachable, rfl, ⟨rfl, rfl⟩,
    course, fun y hy => ?_, fun h => ?_, ⟨x, mem, rfl⟩, rfl, rfl, by decide, rfl, _, rfl, rfl, rfl,
    rfl⟩
  · obtain ⟨habandon, hask⟩ : y.label ≠ .abandon ∧ ∀ q, y.label ≠ .ask q := by
      rcases List.mem_append.mp hy with hy | hy
      · exact (labels _ (label_of_moves _ y hy)).2
      · rw [List.mem_singleton.mp hy]
        exact ⟨nofun, nofun⟩
    exact ⟨fun halts => halts.elim (hask _) habandon, hask⟩
  · -- the signal was up before the last move
    have raised : x.after.ready.raised = true := h.ready x mem rfl
    cases raised

end Tracker

end LiveBook
