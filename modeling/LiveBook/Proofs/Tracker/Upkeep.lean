import LiveBook.Proofs.Tracker.Rules

/-!
# Every step keeps the order

A tracker that is in order stays so with every step, as long as no run begins before a stop
has ended (`LiveBook.Tracker.InOrder.keeps_step`). The statement says two things more
(`LiveBook.Tracker.Keeps`), which hold for the same reasons: no market moves by more than one
phase, unless a stop ends, and nobody tries to activate a market that does not wait for a
book.

The proof goes through the rules of `LiveBook.Proofs.Tracker.Rules`. A request that has the lock
takes a turn at the desk (`LiveBook.Tracker.InOrder.keeps_turn`), which is its last one
(`LiveBook.Tracker.InOrder.keeps_conclude`) or not; what else goes on does nothing that concerns
the order of the desk, the startup with a book excepted.
-/

namespace LiveBook

/-- A market that waits for its book is activated, unless there is something wrong with the
book. -/
theorem Desk.activate_eq_error {d : Desk} {m : MarketId} {s : Snapshot} {run : ℕ}
    {isCancelled : Bool} {window : ℕ} {e : TrackerError}
    (h : d.activate m s run isCancelled window = .error e) (waits : d.phase m = .initializing) :
    ∃ c, e = .book c := by
  obtain ⟨p, hp⟩ := phase_eq_initializing.mp waits
  unfold activate at h
  split at h
  next => exact ⟨_, (Except.error.inj h).symm⟩
  next =>
    split at h
    next => exact ⟨_, (Except.error.inj h).symm⟩
    next =>
      rw [hp] at h
      cases h

/-- A run has ended only when its startup has. -/
theorem Run.startup_of_hasEnded {run : Run} (hended : run.hasEnded = true) :
    run.startup = .ended := by
  simp only [Run.hasEnded, Bool.and_eq_true, decide_eq_true_eq] at hended
  exact hended.1.2

namespace Tracker

variable {t t' : Tracker} {l : Label} {fx : List TrackerEffect} {i r : ℕ} {m : MarketId}
  {s s' : RequestStage} {run : Run} {d' : Desk}

/-- A stop ends between these two states. -/
def StopEnds (t t' : Tracker) : Prop :=
  ∃ i st, t.request? i = some (.stop st) ∧ t'.request? i = some (.answered .done)

/-- **What every step keeps**: the order, and the way from phase to phase. -/
structure Keeps (t : Tracker) (fx : List TrackerEffect) (t' : Tracker) : Prop where
  order : t'.InOrder
  phase : ∀ m, t'.desk.phase m = t.desk.phase m ∨
    (t.desk.phase m).Next (t'.desk.phase m) ∨
    t.StopEnds t' ∧ t'.desk.phase m = .unregistered
  /-- No market was activated that does not wait. -/
  waited : ∀ a m, TrackerEffect.failed a (.notInitializing m) ∉ fx

/-- Nothing is done at the desk that concerns its order. -/
theorem keeps_quiet (order : t'.InOrder) (hq : t.desk.Quiet t'.desk)
    (waited : ∀ a m, TrackerEffect.failed a (.notInitializing m) ∉ fx) : t.Keeps fx t' :=
  ⟨order, fun m => .inl (hq.spares m).phase, waited⟩

/-- Nothing is done at the desk. -/
theorem keeps_rest (order : t'.InOrder) (hdesk : t'.desk = t.desk)
    (waited : ∀ a m, TrackerEffect.failed a (.notInitializing m) ∉ fx) : t.Keeps fx t' :=
  keeps_quiet order (hdesk ▸ t.desk.quiet_rest) waited

namespace InOrder

/-! ### Requests -/

/-- **A request that has the lock takes a turn**, and keeps the lock. -/
theorem keeps_turn (h : t.InOrder) (hs : t.request? i = some s)
    (holds : t.holdsLock (.request i) = true) (turn : t.desk.Turn s.operation s'.operation d')
    (stop : s'.isStop = s.isStop) (awaited : ∀ r, s ≠ .stop (.awaitingTasks r))
    (running : ∀ m, s'.operation = .adding m → s.operation = .adding m ∨ t.run ≠ none)
    (waited : ∀ a m, TrackerEffect.failed a (.notInitializing m) ∉ fx) :
    t.Keeps fx ({ t with desk := d' }.setRequest i s') := by
  refine ⟨h.setRequest_turn hs holds turn stop awaited running, fun m => ?_, waited⟩
  have hop := operation_of_holdsLock holds hs
  exact (turn.phase (hop ▸ h.desk) m).imp_right .inl

/-- **A request that has the lock takes its last turn**, and gives the lock back. -/
theorem keeps_conclude (h : t.InOrder) (hs : t.request? i = some s)
    (holds : t.holdsLock (.request i) = true) (turn : t.desk.Turn s.operation .idle d')
    (stop : s.isStop = false) (reply : Reply) :
    t.Keeps [.answered i reply] ({ t with desk := d' }.setRequest i (.answered reply)).unlock := by
  have order : ({ t with desk := d' }.setRequest i (.answered reply)).InOrder := by
    refine h.setRequest_turn hs holds turn stop.symm ?_ fun m hm => ?_
    · rintro r rfl
      cases stop
    · cases hm
  refine ⟨order.unlock (h.isFree_setRequest holds id), fun m => ?_, by simp⟩
  have hop := operation_of_holdsLock holds hs
  exact (turn.phase (hop ▸ h.desk) m).imp_right .inl

/-- A request is answered that has not got the lock. -/
theorem keeps_answer (h : t.InOrder) (hs : t.request? i = some s) (hop : s.operation = .idle)
    (stop : s.isStop = false) (reply : Reply) :
    t.Keeps [.answered i reply] (t.setRequest i (.answered reply)) := by
  refine keeps_rest (h.setRequest_idle hs hop id stop.symm ?_) rfl (by simp)
  rintro r run rfl
  cases stop

/-- A request comes to the lock. -/
theorem keeps_queue (h : t.InOrder) (hs : t.request? i = some s) (hop : s.operation = .idle)
    (hlock : ¬s'.HasLock) (stop : s'.isStop = s.isStop)
    (awaited : ∀ r run, s = .stop (.awaitingTasks r) → t.run? r = some run →
      run.startup = .ended) :
    t.Keeps [] ((t.setRequest i s').queueForLock (.request i)) := by
  refine keeps_rest ((h.setRequest_idle hs hop hlock stop awaited).queueForLock ?_) rfl (by simp)
  rintro j v hj hv
  obtain rfl := Actor.request.inj hj
  obtain rfl := Option.some.inj ((request?_setRequest_self hs).symm.trans hv)
  exact RequestStage.operation_of_not_hasLock hlock

/-- **A stop ends,** when the last worker has. -/
theorem keeps_finish (h : t.InOrder) {st : StopStage} (hs : t.request? i = some (.stop st))
    (holds : t.holdsLock (.request i) = true) (awaited : ∀ r, st ≠ .awaitingTasks r)
    (order : d'.InOrder (.dismissing [])) :
    t.Keeps [.answered i .done]
      ({ t with desk := d'.clear, ready := t.ready.clear }.setRequest i
        (.answered .done)).unlock := by
  have order' := (h.finish hs holds awaited order .done).tick t.ready.clear t.clock t.now
  refine ⟨order'.unlock (h.isFree_setRequest holds id), fun m => ?_, by simp⟩
  refine .inr (.inr ⟨⟨i, st, hs, request?_setRequest_self hs⟩, ?_⟩)
  exact Desk.phase_of_none (Table.get?_empty m)

/-- A run that was not cancelled is the present one. -/
theorem run_of_not_isCancelled (h : t.InOrder) (going : t.isCancelled r = false) :
    t.run = some r := by
  unfold isCancelled at going
  split at going
  next run hr => exact h.current r run hr going
  next => cases going

/-- While nothing is under way, the worker that has a market is in charge of it. -/
theorem inCharge_of_active (h : t.InOrder) (hop : t.operation = .idle) {j : ℕ}
    (active : t.desk.slot? m = some (.active j)) : t.desk.inCharge.get? m = some j := by
  rcases (h.desk.market m).charged j active with hj | ⟨ws, hws⟩
  · exact hj
  · exact absurd (hop.symm.trans hws) (by simp)

/-- A market that could not be activated was waiting all the same. -/
theorem cause_ne_notInitializing (h : t.InOrder) (hop : t.operation = .adding m)
    {result : Except SourceError Snapshot} {isCancelled : Bool} {window : ℕ} {cause : TrackerError}
    (why : (∃ e, result = .error e ∧ cause = .source e) ∨ ∃ book, result = .ok book ∧
      t.desk.activate m book r isCancelled window = .error cause) (m' : MarketId) :
    cause ≠ .notInitializing m' := by
  rcases why with ⟨e, -, rfl⟩ | ⟨book, -, he⟩
  · simp
  · obtain ⟨c, rfl⟩ := Desk.activate_eq_error he ((h.desk.market m).adding hop)
    simp

/-- **Whatever a request does.** -/
theorem keeps_goes (h : t.InOrder) (hs : t.request? i = some s) (step : t.Goes i s l fx t') :
    t.Keeps fx t' := by
  have held := h.held i s hs
  cases step with
  | addQueues ready => exact h.keeps_queue hs rfl id rfl (by simp)
  | addGivesUp cancelled => exact h.keeps_answer hs rfl rfl _
  | addDeclines holds => exact h.keeps_conclude hs holds (.rest t.desk.quiet_rest) rfl _
  | addRegisters holds going new =>
    have hrun := h.run_of_not_isCancelled going
    exact h.keeps_turn hs holds (.register _ new) rfl (by simp) (fun _ _ => .inr (by simp [hrun]))
      (by simp)
  | addSubscribed =>
    exact h.keeps_turn hs (held trivial) (.rest t.desk.quiet_rest) rfl (by simp)
      (fun _ hm => .inl hm) (by simp)
  | addRefused => exact h.keeps_conclude hs (held trivial) (.withdraw _) rfl _
  | addFetches =>
    exact h.keeps_turn hs (held trivial) (.rest t.desk.quiet_rest) rfl (by simp)
      (fun _ hm => .inl hm) (by simp)
  | addActivates hd => exact h.keeps_conclude hs (held trivial) (.activate hd) rfl _
  | @addQuits m r stage cancelled adding =>
    have has := RequestStage.hasLock_of_operation (s := .add m r stage) (by simp [adding])
    exact h.keeps_turn hs (held has) (adding ▸ .withdraw m) rfl (by simp)
      (fun _ hm => by cases hm) (by simp)
  | @addFails m r result cause why =>
    -- the market waits for its book as long as the call has the lock
    have hop : t.operation = .adding m := operation_of_holdsLock (held trivial) hs
    have hcause := h.cause_ne_notInitializing hop why
    exact h.keeps_turn hs (held trivial) (.withdraw m) rfl (by simp) (fun _ hm => by cases hm)
      fun a m' => by simpa using fun _ => (hcause m').symm
  | addRolledBack b => exact h.keeps_conclude hs (held trivial) (.rest t.desk.quiet_rest) rfl _
  | removeDeclines holds inactive =>
    exact h.keeps_conclude hs holds (.rest t.desk.quiet_rest) rfl _
  | removeRetires holds active charge =>
    have hop : t.operation = .idle := operation_of_holdsLock holds hs
    obtain rfl := Option.some.inj (charge.symm.trans (h.inCharge_of_active hop active))
    exact h.keeps_turn hs holds (.retire active) rfl (by simp) (fun _ hm => by cases hm) (by simp)
  | removeRetiresNobody holds active charge =>
    have hop : t.operation = .idle := operation_of_holdsLock holds hs
    exact absurd (charge.symm.trans (h.inCharge_of_active hop active)) (by simp)
  | removeUnsubscribes ended =>
    exact h.keeps_turn hs (held trivial) (.ended ended) rfl (by simp) (fun _ hm => by cases hm)
      (by simp)
  | removeEnds b => exact h.keeps_conclude hs (held trivial) (.forget _) rfl _
  | stopQueues hr ended =>
    refine h.keeps_queue hs rfl id rfl fun r' run' heq hr' => ?_
    cases heq
    obtain rfl := Option.some.inj (hr.symm.trans hr')
    exact Run.startup_of_hasEnded ended
  | @stopDismisses w ws holds workers =>
    exact h.keeps_turn hs holds (workers ▸ .dismiss w) rfl (by simp) (fun _ hm => by cases hm)
      (by simp)
  | stopDisbands holds nobody =>
    -- the stop dismisses nobody and ends at once
    have hop : t.operation = .idle := operation_of_holdsLock holds hs
    have order := (hop ▸ h.desk : t.desk.InOrder .idle).dismiss
    exact h.keeps_finish hs holds (by simp) (nobody ▸ order)
  | @stopDrains w w' ws ended =>
    exact h.keeps_turn hs (held trivial) (.drain ended w') rfl (by simp) (fun _ hm => by cases hm)
      (by simp)
  | @stopEnds w ended =>
    have hop : t.operation = .dismissing [w] := operation_of_holdsLock (held trivial) hs
    have order := (hop ▸ h.desk : t.desk.InOrder (.dismissing [w])).drain ended
    exact h.keeps_finish hs (held trivial) (by simp) order
  | alerted ready => exact h.keeps_answer hs rfl rfl _

/-! ### Runs and workers -/

/-- The startup comes to another stage, where no other markets remain. -/
theorem setStartup (h : t.InOrder) {stage : StartupStage} (hr : t.run? r = some run)
    (going : run.startup ≠ .ended) (remaining : stage.remaining.Sublist run.startup.remaining) :
    (t.setStartup r run stage).InOrder :=
  h.setRun hr id (fun hended => absurd hended going) remaining

/-- A market does not wait any more once the startup that it waited for has gone on. -/
theorem not_waits_setStartup (h : t.InOrder) {stage : StartupStage} (hr : t.run? r = some run)
    (going : run.startup ≠ .ended) (gone : m ∉ stage.remaining) :
    ¬(t.setStartup r run stage).Waits m := by
  rintro ⟨r', run', hr', hm⟩
  rcases run?_setRun hr' with ⟨-, rfl⟩ | ⟨hne, hr'⟩
  · exact gone hm
  · -- there is no other startup
    refine hne (h.starting_unique hr' ?_ hr going)
    intro hended
    rw [hended] at hm
    cases hm

/-- **The startup activates a market,** and gives the lock back. -/
theorem keeps_startupActivates (h : t.InOrder) {rest : List MarketId} {book : Snapshot}
    {isCancelled : Bool} {window : ℕ} {stage : StartupStage} (hr : t.run? r = some run)
    (locking : run.startup = .locking m rest book) (holds : t.holdsLock (.startup r) = true)
    (hd : t.desk.activate m book r isCancelled window = .ok d') (hstage : stage.remaining = rest)
    (ready : ReadySignal) :
    t.Keeps [] { t.setStartup r run stage with desk := d', ready := ready }.unlock := by
  have free := h.isFree holds (by simp)
  have going : run.startup ≠ .ended := by simp [locking]
  have remaining : run.startup.remaining = m :: rest := by rw [locking]; rfl
  have waits : t.desk.phase m = .initializing := Desk.phase_of_activate hd
  have order : (t.setStartup r run stage).InOrder := by
    refine h.setStartup hr going ?_
    rw [hstage, remaining]
    exact List.sublist_cons_self m rest
  have gone : ¬(t.setStartup r run stage).Waits m := by
    refine h.not_waits_setStartup hr going ?_
    rw [hstage]
    exact (List.nodup_cons.mp (remaining ▸ h.distinct r run hr)).1
  have idle : t.operation = .idle := free.operation
  have active : { t.setStartup r run stage with desk := d' }.InOrder := by
    refine order.setDesk ?_ (fun m' hm' => ?_) fun hnone => ?_
    · exact idle ▸ (idle ▸ h.desk : t.desk.InOrder .idle).activate (.inl rfl) hd
    · have hne : m ≠ m' := by
        rintro rfl
        exact gone hm'
      rw [Desk.phase_activate hd, if_neg hne]
      exact (order.waiting m' hm').1
    · exact absurd (waits.symm.trans (hnone m)) (by simp)
  refine ⟨(active.tick ready _ _).unlock free, fun m' => ?_, by simp⟩
  exact (Desk.next_of_update (Desk.phase_activate hd) (waits ▸ .activated) m').imp_right .inl

/-- **Whatever goes on in a run or with a worker.** -/
theorem keeps_tends (h : t.InOrder) (step : t.Tends fx t') : t.Keeps fx t' := by
  cases step with
  | @task r run run' x d' fx hr later startup minds tells =>
    have hq := minds.quiet h.desk
    have order : (t.setRun r run').InOrder :=
      h.setRun hr (fun hc => later.cancelled.trans hc) later.startup (startup ▸ .refl _)
    exact keeps_quiet (order.quiet hq) hq tells.waited
  | worker minds tells =>
    have hq := minds.quiet h.desk
    exact keeps_quiet (h.quiet hq) hq tells.waited
  | startup hr going outside remaining tells =>
    exact keeps_rest (h.setStartup hr going remaining) rfl tells.waited
  | @startupEnds r run hr none =>
    have order : (t.setStartup r run .ended).InOrder :=
      h.setStartup hr (by simp [none]) (List.nil_sublist _)
    exact keeps_rest (order.tick _ _ _) rfl (by simp)
  | @startupQueues r run m rest book hr fetching =>
    have order : (t.setStartup r run (.locking m rest book)).InOrder :=
      h.setStartup hr (by simp [fetching]) (by rw [fetching]; exact .refl _)
    exact keeps_rest (order.queueForLock (by simp)) rfl (by simp)
  | startupActivates hr locking holds hd outside remaining hready =>
    exact h.keeps_startupActivates hr locking holds hd remaining _
  | @startupRetries r run m rest book hr locking holds e he =>
    have waits := (h.waiting m ⟨r, run, hr, by simp [locking, StartupStage.remaining]⟩).1
    obtain ⟨c, rfl⟩ := Desk.activate_eq_error he waits
    have order : (t.retryBook r run m rest).InOrder :=
      h.setStartup hr (by simp [locking]) (by rw [locking]; exact .refl _)
    exact keeps_rest (order.unlock (h.isFree holds (by simp))) rfl (by simp)
  | time clock now => exact keeps_rest (h.tick t.ready clock now) rfl (by simp)

/-! ### Whatever happens -/

theorem keeps_asks (h : t.InOrder) {q : Request} (step : t.Asks q fx t') : t.Keeps fx t' := by
  cases step with
  | addsNothing idle => exact keeps_rest (h.append id rfl) rfl (by simp)
  | adds hrun => exact keeps_rest (h.append id rfl) rfl (by simp)
  | @removes m =>
    have order : (t.append (.remove m .locking)).InOrder := h.append id rfl
    refine keeps_rest (order.queueForLock ?_) rfl (by simp)
    rintro j v hj hv
    obtain rfl := Actor.request.inj hj
    obtain rfl := Option.some.inj ((t.request?_append_self _).symm.trans hv)
    rfl
  | stopsNothing idle => exact keeps_rest (h.append id rfl) rfl (by simp)
  | @stops r hrun =>
    have hrun' : (t.cancelRun r).run = some r := (t.run_cancelRun r).trans hrun
    exact keeps_quiet ((h.cancelRun r).stop hrun' fun _ => isCancelled_cancelRun)
      (t.quiet_cancelRun r) (by simp)
  | awaits => exact keeps_rest (h.append id rfl) rfl (by simp)

/-- **A run begins,** with markets that were not tracked. -/
theorem keeps_started (h : t.InOrder) (hnot : ¬t.IsStopping) (idle : t.run = none) :
    t.Keeps [] t.started := by
  refine ⟨h.start hnot (start_of_idle idle), fun m => ?_, by simp⟩
  unfold started
  dsimp only
  rw [Desk.phase_registerAll]
  split
  · exact .inr (.inl ((h.emptied idle hnot m) ▸ .registered))
  · exact .inl rfl

/-- **Every step keeps a tracker in order,** as long as no run begins before a stop has ended. -/
theorem keeps_step (h : t.InOrder) (orderly : l = .start → ¬t.IsStopping)
    (step : t.step l = some (t', fx)) : t.Keeps fx t' := by
  cases step_happens step with
  | starts idle => exact h.keeps_started (orderly rfl) idle
  | goesOn running => exact keeps_rest h rfl (by simp)
  | abandons hrun => exact keeps_quiet (h.cancelRun _) (t.quiet_cancelRun _) (by simp)
  | abandonsNothing idle => exact keeps_rest h rfl (by simp)
  | asks step => exact h.keeps_asks step
  | goes hl hs step => exact h.keeps_goes hs step
  | tends hl other step => exact h.keeps_tends step

end InOrder

end Tracker

end LiveBook
