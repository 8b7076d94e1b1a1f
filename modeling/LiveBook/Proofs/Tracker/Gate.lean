import LiveBook.Proofs.Tracker.Stopping
import LiveBook.Proofs.Tracker.Tasks

/-!
# What waits for the ready signal

The routers of snapshots and trades, the refresh and the adding of markets wait for the ready
signal. A stop lowers it again, but not before all of these have ended or given up, so that whenever
the signal is down, nobody is past it.

* `LiveBook.Tracker.Outlived` – all runs but the present one have ended, or a stop waits for them;
* `LiveBook.Tracker.Held` – nobody is past the signal;
* `LiveBook.Tracker.Orderly.held` – this holds whenever the signal is down;
* `LiveBook.Tracker.Move.Waits` – what a move does not do then, and
  `LiveBook.Tracker.Orderly.waits`, that it does not;
* `LiveBook.Tracker.Orderly.atRest` – the signal is down between a stop and the next run.
-/

namespace LiveBook

/-! ### Runs -/

/-- **Nobody in a run is past the signal.** -/
structure Run.Held (run : Run) : Prop where
  router : ∀ s, run.routers.get s = .routing → s = .diff
  refresh : run.refresh = .awaitingReady ∨ run.refresh = .ended

/-- What was received is in the inbox of its stream. -/
def Run.Sorted (run : Run) : Prop := ∀ s, ∀ e ∈ run.inbox.get s, e.stream = s

namespace Run

variable {run : Run}

theorem held_begin (markets : List MarketId) (refreshes : Bool) :
    (Run.begin markets refreshes).Held where
  router s hs := by cases s <;> first | rfl | cases hs
  refresh := by cases refreshes <;> simp [Run.begin]

theorem held_of_hasEnded (h : run.hasEnded = true) : run.Held := by
  simp only [hasEnded, Bool.and_eq_true, List.all_eq_true, decide_eq_true_eq] at h
  refine ⟨fun s hs => ?_, .inr h.2⟩
  have hall : s ∈ EventStream.all := by cases s <;> simp [EventStream.all]
  cases hs.symm.trans (h.1.1.2 s hall)

theorem sorted_begin (markets : List MarketId) (refreshes : Bool) :
    (Run.begin markets refreshes).Sorted := by
  simp [Sorted, Run.begin]

end Run

namespace Tracker

variable {t t' : Tracker} {i j r : ℕ} {m : MarketId} {s : RequestStage} {l : Label}
  {fx : List TrackerEffect} {run run' : Run} {x : Move}

/-- While the signal is down, the refresh does nothing but end. -/
theorem Refreshes.held {stage : RefreshStage} {d' : Desk} (h : t.Refreshes r run l fx stage d')
    (lowered : t.ready.raised = false) (held : run.Held) : stage = .ended ∧ fx = [] := by
  have waits := held.refresh
  cases h with
  | begins _ ready => exact nomatch ready.symm.trans lowered
  | quits => exact ⟨rfl, rfl⟩
  | idles hs | asks hs | writes _ hs | fails _ hs | wakes hs => exact absurd waits (by simp [hs])

namespace Performs

variable {d' : Desk}

/-- While the signal is down, nobody gets past it. -/
theorem held (h : t.Performs r run l fx run' d') (lowered : t.ready.raised = false)
    (held : run.Held) : run'.Held := by
  cases h with
  | @listens k _ _ _ h => cases k <;> exact ⟨held.router, held.refresh⟩
  | receives e => exact ⟨held.router, held.refresh⟩
  | opens s ready => exact nomatch ready.symm.trans lowered
  | routes => exact ⟨held.router, held.refresh⟩
  | routerEnds s =>
    refine ⟨fun s' hs' => ?_, held.refresh⟩
    rw [Run.setRouter, PerStream.get_update] at hs'
    split at hs'
    next => cases hs'
    next => exact held.router s' hs'
  | refreshes h => exact ⟨held.router, .inr (h.held lowered held).1⟩

theorem sorted (h : t.Performs r run l fx run' d') (sorted : run.Sorted) : run'.Sorted := by
  cases h with
  | @listens k _ _ _ h => cases k <;> exact sorted
  | receives e =>
    intro s e' he'
    rw [PerStream.get_update] at he'
    split at he'
    next hs =>
      rcases List.mem_append.mp he' with he' | he'
      · exact sorted s e' he'
      · exact List.mem_singleton.mp he' ▸ hs
    next => exact sorted s e' he'
  | @routes s e rest routing inbox =>
    intro s' e' he'
    rw [PerStream.get_update] at he'
    split at he'
    next hs =>
      subst hs
      exact sorted s e' (inbox ▸ List.mem_cons_of_mem _ he')
    next => exact sorted s' e' he'
  | _ => exact sorted

end Performs

namespace Changes

theorem held (h : t.Changes r run fx run') (lowered : t.ready.raised = false) (held : run.Held) :
    run'.Held := by
  cases h with
  | stays => exact held
  | cancelled => exact ⟨held.router, held.refresh⟩
  | performs h => exact h.held lowered held
  | fetches stage => exact ⟨held.router, held.refresh⟩

theorem sorted (h : t.Changes r run fx run') (sorted : run.Sorted) : run'.Sorted := by
  cases h with
  | performs h => exact h.sorted sorted
  | _ => exact sorted

end Changes

/-! ### Runs that have ended -/

/-- **All runs but the present one have ended,** or a stop waits for them. -/
def Outlived (t : Tracker) : Prop :=
  ∀ r run, t.run? r = some run → t.run = some r ∨ run.hasEnded = true ∨
    ∃ i, t.request? i = some (.stop (.awaitingTasks r))

/-- A run is the present one until a stop waits for it. -/
theorem Happens.run_or_stops (h : t.Happens l fx t') (hrun : t.run = some r) :
    t'.run = some r ∨ ∃ i, t'.request? i = some (.stop (.awaitingTasks r)) := by
  cases h with
  | starts idle => exact nomatch hrun.symm.trans idle
  | abandons => exact .inl ((t.run_cancelRun _).trans hrun)
  | asks h =>
    cases h with
    | stops hrun' =>
      obtain rfl := Option.some.inj (hrun.symm.trans hrun')
      exact .inr ⟨_, List.getElem?_concat_length⟩
    | _ => exact .inl hrun
  | goes hl hs h => exact .inl (h.rest.2.1.trans hrun)
  | tends hl other h => exact .inl (h.rest.2.1.trans hrun)
  | _ => exact .inl hrun

/-- A stop waits for a run until that has ended. -/
theorem Happens.stops_or_ended (h : t.Happens l fx t')
    (hi : t.request? i = some (.stop (.awaitingTasks r))) :
    t'.request? i = some (.stop (.awaitingTasks r)) ∨
      ∃ run, t.run? r = some run ∧ run.hasEnded = true := by
  by_cases hl : l.request? = some i
  · cases h with
    | goes hl' hs h =>
      obtain rfl := Option.some.inj (hl'.symm.trans hl)
      obtain rfl := Option.some.inj (hs.symm.trans hi)
      cases h with
      | stopQueues hr ended => exact .inr ⟨_, hr, ended⟩
    | tends hl' => exact nomatch hl'.symm.trans hl
    | _ => cases hl
  · exact .inl (h.request?_of_ne hl hi)

theorem Orderly.outlived (h : t.Orderly) : t.Outlived := by
  induction h with
  | init h =>
    obtain ⟨-, rfl⟩ := eq_of_ofConfig h
    intro r run hr
    simp [run?] at hr
  | step before orderly next ih =>
    have hhappens := step_happens next
    intro r run' hr'
    rcases step_changes next hr' with ⟨run, hr, -⟩ | ⟨-, rfl, rfl, -⟩
    · obtain ⟨run'', hr'', -, hended⟩ := hhappens.run? hr
      obtain rfl := Option.some.inj (hr'.symm.trans hr'')
      rcases ih r run hr with hrun | ended | ⟨i, hi⟩
      · exact (hhappens.run_or_stops hrun).imp_right .inr
      · exact .inr (.inl (hended ended))
      · rcases hhappens.stops_or_ended hi with hi | ⟨run₁, hr₁, ended⟩
        · exact .inr (.inr ⟨i, hi⟩)
        · obtain rfl := Option.some.inj (hr.symm.trans hr₁)
          exact .inr (.inl (hended ended))
    · exact .inl rfl

/-! ### Nobody is past the signal -/

/-- **Nobody is past the signal**: in no run, and with no market that is to be added, unless that
waits for the lock in vain. -/
structure Held (t : Tracker) : Prop where
  run : ∀ r run, t.run? r = some run → run.Held
  add : ∀ i m r stage, t.request? i = some (.add m r stage) →
    stage = .awaitingReady ∨ stage = .locking ∧ t.isCancelled r = true

/-- Only a stop that ends lowers the signal. -/
theorem Happens.lowers (h : t.Happens l fx t') (order : t.InOrder) (ready : t.ready.raised = true)
    (lowered : t'.ready.raised = false) : ∃ i st, t.request? i = some (.stop st) ∧
      (∀ r, st ≠ .awaitingTasks r) ∧ t.holdsLock (.request i) = true ∧ t'.runs = t.runs ∧
      ∀ j m r stage, t'.request? j = some (.add m r stage) →
        t.request? j = some (.add m r stage) ∧ j ≠ i := by
  have same : t'.ready = t.ready → False := fun h =>
    nomatch ready.symm.trans ((congrArg ReadySignal.raised h).symm.trans lowered)
  have raises : t'.ready = t.ready.raise → False := fun h => by
    rw [h, ReadySignal.raise, ReadySignal.raised_put] at lowered
    cases lowered
  cases h with
  | abandons => exact (same (t.ready_cancelRun _)).elim
  | asks h =>
    cases h with
    | stops => exact (same (t.ready_cancelRun _)).elim
    | _ => exact (same rfl).elim
  | @goes i s _ _ _ hl hs h =>
    -- what is not the stop is as before
    have add : ∀ {reply : Reply}, ∀ j m r stage, (t.requests.set i (.answered reply))[j]? =
        some (.add m r stage) → t.request? j = some (.add m r stage) ∧ j ≠ i := by
      intro reply j m r stage hj
      rcases eq_or_getElem?_of_set hj with ⟨-, heq⟩ | ⟨hne, hj⟩
      · cases heq
      · exact ⟨hj, hne⟩
    cases h with
    | stopDisbands holds => exact ⟨i, _, hs, nofun, holds, rfl, add⟩
    | stopEnds => exact ⟨i, _, hs, nofun, order.held i _ hs trivial, rfl, add⟩
    | _ => exact (same rfl).elim
  | tends hl other h =>
    cases h with
    | startupEnds => exact (raises rfl).elim
    | startupActivates _ _ _ _ _ _ hready => exact (hready.elim same raises).elim
    | _ => exact (same rfl).elim
  | _ => exact (same rfl).elim

/-- **When a stop ends, nobody is past the signal**: all runs have ended, and nobody but the stop
does anything that takes the lock. -/
theorem Orderly.held_of_lowers (h : t.Orderly) (step : t.Happens l fx t')
    (ready : t.ready.raised = true) (lowered : t'.ready.raised = false) : t'.Held := by
  have order := h.inOrder
  obtain ⟨i, st, hi, later, holds, runs, add⟩ := step.lowers order ready lowered
  have idle := order.stopped i st hi
  refine ⟨fun r run hr => ?_, fun j m r stage hj => ?_⟩
  · rw [Tracker.run?, runs] at hr
    rcases h.outlived r run hr with hrun | ended | ⟨j, hj⟩
    · cases hrun.symm.trans idle
    · exact Run.held_of_hasEnded ended
    · obtain rfl := order.stopsOnce i j _ _ hi hj
      exact absurd (RequestStage.stop.inj (Option.some.inj (hi.symm.trans hj))) (later r)
  · obtain ⟨hj, hne⟩ := add j m r stage hj
    have without : ¬RequestStage.HasLock (.add m r stage) := fun has =>
      hne (Actor.request.inj (holdsLock_unique (order.held j _ hj has) holds))
    obtain ⟨run, hr⟩ := h.known.add j m r stage hj
    have cancelled : t'.isCancelled r = true := by
      have hr' : t'.run? r = some run := by rwa [Tracker.run?, runs]
      refine isCancelled_of_run? hr' ?_
      by_contra hc
      cases (order.current r run hr (by simpa using hc)).symm.trans idle
    cases stage with
    | awaitingReady => exact .inl rfl
    | locking => exact .inr ⟨rfl, cancelled⟩
    | _ => exact absurd trivial without

/-- A request that is held stays so, or is not about adding any more. -/
theorem Goes.held (h : t.Goes i s l fx t') (hs : t.request? i = some s)
    (lowered : t.ready.raised = false) (held : t.Held) {stage : AddStage}
    (hi : t'.request? i = some (.add m r stage)) :
    s = .add m r stage ∧ (stage = .awaitingReady ∨ stage = .locking) := by
  have self : ∀ {v}, (t.requests.set i v)[i]? = some (.add m r stage) → v = .add m r stage :=
    fun hv => by
      rw [List.getElem?_set_self (List.getElem?_eq_some_iff.mp hs).1] at hv
      exact Option.some.inj hv
  cases h with
  | addQueues ready => exact nomatch ready.symm.trans lowered
  | addRegisters holds going =>
    rcases held.add i _ _ _ hs with hstage | ⟨-, cancelled⟩
    · cases hstage
    · exact nomatch going.symm.trans cancelled
  | addSubscribed | addFetches | addFails =>
    rcases held.add i _ _ _ hs with hstage | ⟨hstage, -⟩ <;> cases hstage
  | addQuits cancelled adding =>
    rcases held.add i _ _ _ hs with rfl | ⟨rfl, -⟩ <;> cases adding
  | _ => cases self hi

/-- A market that is to be added is held, or was held before. -/
theorem Held.add_before (h : t.Held) (step : t.Happens l fx t') (lowered : t.ready.raised = false)
    {stage : AddStage} (hi : t'.request? i = some (.add m r stage)) :
    stage = .awaitingReady ∨ t.request? i = some (.add m r stage) := by
  have append : ∀ {t₀ : Tracker} {v}, t₀.requests = t.requests →
      (v = .add m r stage → stage = .awaitingReady) →
      (t₀.append v).request? i = some (.add m r stage) →
      stage = .awaitingReady ∨ t.request? i = some (.add m r stage) := by
    intro t₀ v hrequests hv hi
    rcases request?_append hi with ⟨-, heq⟩ | hi
    · exact .inl (hv heq.symm)
    · rw [Tracker.request?, hrequests] at hi
      exact .inr hi
  cases step with
  | abandons => exact .inr ((t.request?_cancelRun _ i).symm.trans hi)
  | asks step =>
    cases step with
    | stops => exact append (t.requests_cancelRun _) (by simp) hi
    | adds => exact append rfl (by rintro ⟨⟩; rfl) hi
    | addsNothing | removes | stopsNothing | awaits => exact append rfl (by simp) hi
  | @goes j s _ _ _ hl hs step =>
    by_cases hij : i = j
    · subst hij
      obtain ⟨rfl, -⟩ := step.held hs lowered h hi
      exact .inr hs
    · exact .inr ((step.request?_of_ne hij).symm.trans hi)
  | tends hl other step =>
    rw [Tracker.request?, step.rest.2.2] at hi
    exact .inr hi
  | _ => exact .inr hi

/-- **As long as the signal is down,** nobody gets past it. -/
theorem Held.step (h : t.Held) (orderly : t.Orderly) (next : t.step l = some (t', fx))
    (lowered : t.ready.raised = false) : t'.Held := by
  have happens := step_happens next
  refine ⟨fun r run' hr' => ?_, fun i m r stage hi => ?_⟩
  · rcases step_changes next hr' with ⟨run, hr, changes⟩ | ⟨-, -, -, rfl⟩
    · exact changes.held lowered (h.run r run hr)
    · exact Run.held_begin _ _
  · rcases h.add_before happens lowered hi with hstage | hi
    · exact .inl hstage
    · -- whoever waits for the lock in vain goes on to do so
      obtain ⟨run, hr⟩ := orderly.known.add i m r stage hi
      obtain ⟨run', hr', hcancelled, -⟩ := happens.run? hr
      refine (h.add i m r stage hi).imp_right fun ⟨hstage, cancelled⟩ => ⟨hstage, ?_⟩
      rw [Tracker.isCancelled, hr] at cancelled
      exact isCancelled_of_run? hr' (hcancelled cancelled)

/-- **Whenever the signal is down, nobody is past it.** -/
theorem Orderly.held (h : t.Orderly) (lowered : t.ready.raised = false) : t.Held := by
  induction h with
  | init h =>
    obtain ⟨-, rfl⟩ := eq_of_ofConfig h
    exact ⟨by simp [run?], by simp [request?]⟩
  | @step t t' l fx before orderly next ih =>
    cases hready : t.ready.raised with
    | true => exact before.held_of_lowers (step_happens next) hready lowered
    | false => exact (ih hready).step before next hready

/-- **Whatever was received is in the inbox of its stream.** -/
theorem Orderly.sorted (h : t.Orderly) (hr : t.run? r = some run) : run.Sorted := by
  induction h generalizing r run with
  | init h =>
    obtain ⟨-, rfl⟩ := eq_of_ofConfig h
    simp [run?] at hr
  | step before orderly next ih =>
    rcases step_changes next hr with ⟨run₀, hr₀, changes⟩ | ⟨-, -, -, rfl⟩
    · exact changes.sorted (ih hr₀)
    · exact Run.sorted_begin _ _

/-! ### Between a stop and the next run -/

/-- A stop that is in progress goes on, or lowers the signal and ends. -/
theorem Happens.isStopping_or_lowered (h : t.Happens l fx t') (stopping : t.IsStopping) :
    t'.IsStopping ∨ t'.ready.raised = false := by
  obtain ⟨i, st, hi⟩ := stopping
  by_cases hl : l.request? = some i
  · cases h with
    | goes hl' hs h =>
      obtain rfl := Option.some.inj (hl'.symm.trans hl)
      obtain rfl := Option.some.inj (hs.symm.trans hi)
      have self : ∀ v, (t.requests.set _ v)[_]? = some v := fun v => request?_setRequest_self hi
      cases h with
      | stopQueues | stopDismisses | stopDrains => exact .inl ⟨_, _, self _⟩
      | stopDisbands | stopEnds => exact .inr (ReadySignal.raised_put _ _)
    | tends hl' => exact nomatch hl'.symm.trans hl
    | _ => cases hl
  · exact .inl ⟨i, st, h.request?_of_ne hl hi⟩

/-- What begins is a run. -/
theorem Move.Begins.after (h : x.Begins) : x.after = x.before.started := by
  have step := x.step
  rw [h.1, Tracker.step, start_of_idle h.2] at step
  exact (Prod.mk.inj (Option.some.inj step)).1.symm

/-- **Where there is neither a run nor a stop, the signal is down.** -/
theorem Orderly.atRest (h : t.Orderly) (idle : t.run = none) (alone : ¬t.IsStopping) :
    t.AtRest := by
  induction h with
  | init h =>
    obtain ⟨-, rfl⟩ := eq_of_ofConfig h
    exact ⟨rfl, alone, rfl⟩
  | @step t t' l fx before orderly next ih =>
    have happens := step_happens next
    cases hrun : t.run with
    | some r =>
      rcases happens.run_or_stops hrun with hrun' | ⟨i, hi⟩
      · exact nomatch hrun'.symm.trans idle
      · exact absurd ⟨i, _, hi⟩ alone
    | none =>
      by_cases stopping : t.IsStopping
      · exact ⟨idle, alone, (happens.isStopping_or_lowered stopping).resolve_left alone⟩
      · let x : Move := ⟨t, l, fx, t', next⟩
        refine AtRest.move (x := x) (ih hrun stopping) before.inOrder fun begins => ?_
        have after : t' = t.started := begins.after
        rw [after] at idle
        cases idle

/-! ### What does not happen -/

/-- **What a move does not do** while the signal is down: no snapshot or trade is routed, nothing is
asked of the source for a market that is to be added, and no prices are asked for. -/
structure Move.Waits (x : Move) : Prop where
  routed : ∀ r e outcome, .routed r e outcome ∈ x.effects → e.stream = .diff
  added : ∀ i m r stage, x.before.request? i = some (.add m r stage) →
    ∀ call, .called (.request i) call ∉ x.effects
  priced : ∀ a ms, .called a (.prices ms) ∉ x.effects

/-- Nothing is asked for a market that is to be added and held. -/
theorem Goes.calls (h : t.Goes i s l fx t') (hs : t.request? i = some s) (held : t.Held)
    {a : Actor} {call : SourceCall} (hcall : .called a call ∈ fx) (m : MarketId) (r : ℕ)
    (stage : AddStage) : s ≠ .add m r stage := by
  cases h with
  | addRegisters holds going =>
    rcases held.add i _ _ _ hs with hstage | ⟨-, cancelled⟩
    · cases hstage
    · exact nomatch going.symm.trans cancelled
  | addFetches | addFails =>
    rcases held.add i _ _ _ hs with hstage | ⟨hstage, -⟩ <;> cases hstage
  | addQuits cancelled adding =>
    rcases held.add i _ _ _ hs with rfl | ⟨rfl, -⟩ <;> cases adding
  | removeRetiresNobody | removeUnsubscribes => exact nofun
  | _ => simp at hcall

/-- Tasks that are held route nothing but diffs. -/
theorem Performs.stream_of_routed {d' : Desk} {e : Event} {outcome : RouteOutcome} {r' : ℕ}
    (h : t.Performs r run l fx run' d') (lowered : t.ready.raised = false) (held : run.Held)
    (sorted : run.Sorted) (he : .routed r' e outcome ∈ fx) : e.stream = .diff := by
  cases h with
  | listens h => exact (h.mute _ he).elim
  | @routes s e' rest routing inbox =>
    obtain ⟨-, rfl, -⟩ := TrackerEffect.routed.inj (List.mem_singleton.mp he)
    exact (sorted s _ (inbox ▸ List.mem_cons_self)).trans (held.router s routing)
  | refreshes h =>
    obtain ⟨-, rfl⟩ := h.held lowered held
    cases he
  | _ => simp at he

/-- While the signal is down, nothing but diffs is routed. -/
theorem Orderly.stream_of_routed {e : Event} {outcome : RouteOutcome} (h : x.before.Orderly)
    (lowered : x.before.ready.raised = false) (he : .routed r e outcome ∈ x.effects) :
    e.stream = .diff := by
  have held := h.held lowered
  obtain ⟨t, l, fx, t', step⟩ := x
  dsimp only at h held lowered he
  cases step_happens step with
  | goes hl hs goes => cases goes.shown _ he
  | asks asks => cases asks <;> simp at he
  | tends hl other =>
    cases step_advances step hl other with
    | performs hr _ performs =>
      exact performs.stream_of_routed lowered (held.run _ _ hr) (h.sorted hr) he
    | fetches hr fetches => exact absurd he (fetches.not_routed _ _ _)
    | works | passes => simp at he
  | _ => simp at he

/-- While nobody is past the signal, nothing is asked for a market that is to be added. -/
theorem Held.not_called {call : SourceCall} {stage : AddStage} (held : x.before.Held)
    (hi : x.before.request? i = some (.add m r stage)) :
    .called (.request i) call ∉ x.effects := by
  intro hcall
  obtain ⟨t, l, fx, t', step⟩ := x
  dsimp only at held hi hcall
  cases step_happens step with
  | goes hl hs goes =>
    obtain rfl := Option.some.inj (goes.shown _ hcall)
    exact goes.calls hs held hcall m r stage (Option.some.inj (hs.symm.trans hi))
  | asks asks => cases asks <;> simp at hcall
  | tends _ _ tends => cases tends.shown _ hcall
  | _ => simp at hcall

/-- **Whenever the signal is down,** a move keeps to this. -/
theorem Orderly.waits (h : x.before.Orderly) (lowered : x.before.ready.raised = false) :
    x.Waits where
  routed _ _ _ := h.stream_of_routed lowered
  added _ _ _ _ hi _ := (h.held lowered).not_called hi
  priced a ms hcall := by
    obtain ⟨r, run, hr, checking, -⟩ := step_prices x.step hcall
    rcases ((h.held lowered).run r run hr).refresh with waits | ended
    · cases checking.symm.trans waits
    · cases checking.symm.trans ended

end Tracker

end LiveBook
