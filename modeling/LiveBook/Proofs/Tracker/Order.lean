import LiveBook.Proofs.Desk.Turns
import LiveBook.Tracker.Step

/-!
# The order of a tracker

What is under way at the desk of a tracker is a matter of who has the lock
(`LiveBook.Tracker.operation`). A tracker is in order (`LiveBook.Tracker.InOrder`) if its desk
is, if only one request does such a thing at a time, and if the markets of a startup wait until
it has got to them.

All that tasks and requests do to a tracker is made of a few changes: a run comes to another
stage, a request comes to another stage with what it does at the desk, the lock is asked for or
given back. There is one statement here for each of them, that it keeps the order. Three more
are about the start of a run, the moment when a stop is asked for, and the one when it ends.
-/

namespace LiveBook

/-! ### Lists of runs and requests -/

/-- What is in a list with one item changed is this item, at its place, or was there before. -/
theorem eq_or_getElem?_of_set {α : Type} {l : List α} {a b : α} {i j : ℕ}
    (h : (l.set i a)[j]? = some b) : j = i ∧ b = a ∨ j ≠ i ∧ l[j]? = some b := by
  rw [List.getElem?_set] at h
  split at h
  next heq =>
    split at h
    · exact .inl ⟨heq.symm, (Option.some.inj h).symm⟩
    · cases h
  next hne => exact .inr ⟨Ne.symm hne, h⟩

/-- What is in a list with one item more is this item or was there before. -/
theorem eq_or_getElem?_of_concat {α : Type} {l : List α} {a b : α} {j : ℕ}
    (h : (l ++ [a])[j]? = some b) : j = l.length ∧ b = a ∨ l[j]? = some b := by
  rw [List.getElem?_append] at h
  split at h
  next => exact .inr h
  next hj =>
    obtain ⟨hlt, hb⟩ := List.getElem?_eq_some_iff.mp h
    rw [List.length_singleton] at hlt
    exact .inl ⟨by omega, by simpa using hb.symm⟩

/-! ### Stages -/

/-- What is under way while a request is at this stage. -/
def RequestStage.operation : RequestStage → Operation
  | .add m _ .subscribing | .add m _ .subscribed | .add m _ .fetching => .adding m
  | .remove m (.awaitingWorker w) => .removing m (some w)
  | .remove m .unsubscribing => .removing m none
  | .stop (.draining ws) => .dismissing ws
  | _ => .idle

/-- A request is at this stage only with the lock. -/
def RequestStage.HasLock : RequestStage → Prop
  | .add _ _ .subscribing | .add _ _ .subscribed | .add _ _ .fetching
  | .add _ _ .rollingBack => True
  | .remove _ (.awaitingWorker _) | .remove _ .unsubscribing => True
  | .stop (.draining _) => True
  | _ => False

/-- Whether a request is a stop that was not yet answered. -/
def RequestStage.isStop : RequestStage → Bool
  | .stop _ => true
  | _ => false

theorem RequestStage.operation_of_not_hasLock {s : RequestStage} (h : ¬s.HasLock) :
    s.operation = .idle := by
  rcases s with ⟨m, r, - | - | - | - | - | -⟩ | ⟨m, - | w | -⟩ | (- | - | ws) | - | -
  all_goals first | rfl | exact absurd trivial h

/-- Something is under way only with the lock. -/
theorem RequestStage.hasLock_of_operation {s : RequestStage} (h : s.operation ≠ .idle) :
    s.HasLock := by
  by_contra hlock
  exact h (operation_of_not_hasLock hlock)

theorem RequestStage.isStop_of_dismissing {s : RequestStage} {ws : List ℕ}
    (h : s.operation = .dismissing ws) : ∃ st, s = .stop st := by
  rcases s with ⟨m, r, _ | _ | _ | _ | _ | _⟩ | ⟨m, _ | w | _⟩ | st | _ | _
  all_goals first | exact ⟨st, rfl⟩ | cases h

theorem RequestStage.remove_of_removing {s : RequestStage} {m : MarketId} {j : Option ℕ}
    (h : s.operation = .removing m j) : ∃ stage, s = .remove m stage ∧ stage ≠ .locking := by
  rcases s with ⟨m, r, _ | _ | _ | _ | _ | _⟩ | ⟨m, _ | w | _⟩ | (_ | _ | ws) | _ | _
  all_goals first
    | (obtain ⟨rfl, -⟩ := Operation.removing.inj h
       exact ⟨_, rfl, by simp⟩)
    | cases h

theorem RequestStage.isStop_iff {s : RequestStage} : s.isStop = true ↔ ∃ st, s = .stop st := by
  cases s <;> simp [isStop]

/-- The markets whose first books have still to come. -/
def StartupStage.remaining : StartupStage → List MarketId
  | .next ms => ms
  | .fetching m rest | .locking m rest _ | .backingOff m rest _ => m :: rest
  | .pausing rest _ => rest
  | .ended => []

namespace Tracker

variable {t t' : Tracker} {a : Actor} {i r : ℕ} {m : MarketId} {s s' : RequestStage} {run : Run}
  {d' : Desk}

/-! ### What is under way -/

/-- **What is under way**, because of whoever has the lock. -/
def operation (t : Tracker) : Operation :=
  match t.lock.head? with
  | some (.request i) => ((t.request? i).map RequestStage.operation).getD .idle
  | _ => .idle

/-- Whether a stop is in progress. -/
def IsStopping (t : Tracker) : Prop := ∃ i s, t.request? i = some (.stop s)

/-- A market has still to get its first book from a startup. -/
def Waits (t : Tracker) (m : MarketId) : Prop :=
  ∃ r run, t.run? r = some run ∧ m ∈ run.startup.remaining

theorem operation_of_holdsLock (h : t.holdsLock (.request i) = true)
    (hs : t.request? i = some s) : t.operation = s.operation := by
  have hhead : t.lock.head? = some (.request i) := of_decide_eq_true h
  simp only [operation, hhead, hs, Option.map_some, Option.getD_some]

/-- Behind what is under way there is a request that has the lock. -/
theorem exists_request_of_operation (hop : t.operation ≠ .idle) :
    ∃ i s, t.request? i = some s ∧ t.holdsLock (.request i) = true ∧ t.operation = s.operation := by
  by_cases hreq : ∃ i s, t.request? i = some s ∧ t.lock.head? = some (.request i)
  · obtain ⟨i, s, hs, hhead⟩ := hreq
    have holds : t.holdsLock (.request i) = true := decide_eq_true hhead
    exact ⟨i, s, hs, holds, operation_of_holdsLock holds hs⟩
  · refine absurd ?_ hop
    unfold operation
    split
    next i hhead =>
      cases hs : t.request? i with
      | none => rfl
      | some s => exact absurd ⟨i, s, hs, hhead⟩ hreq
    next => rfl

/-- Nobody does anything that takes the lock. -/
def IsFree (t : Tracker) : Prop := ∀ i s, t.request? i = some s → ¬s.HasLock

theorem IsFree.operation (h : t.IsFree) : t.operation = .idle := by
  by_contra hop
  obtain ⟨i, s, hs, -, hsame⟩ := exists_request_of_operation hop
  exact hop (hsame.trans (RequestStage.operation_of_not_hasLock (h i s hs)))

/-- **A tracker in order.** -/
structure InOrder (t : Tracker) : Prop where
  desk : t.desk.InOrder t.operation
  held : ∀ i s, t.request? i = some s → s.HasLock → t.holdsLock (.request i) = true
  /-- There is one stop at a time, and no run with it. -/
  stopped : ∀ i s, t.request? i = some (.stop s) → t.run = none
  stopsOnce : ∀ i j s s', t.request? i = some (.stop s) → t.request? j = some (.stop s') → i = j
  /-- Without a run, no market is tracked, unless a stop has still to end. -/
  emptied : t.run = none → ¬t.IsStopping → ∀ m, t.desk.phase m = .unregistered
  current : ∀ r run, t.run? r = some run → run.isCancelled = false → t.run = some r
  /-- A startup goes on only in the present run, or while a stop waits for it. -/
  starting : ∀ r run, t.run? r = some run → run.startup ≠ .ended →
    t.run = some r ∨ ∃ i, t.request? i = some (.stop (.awaitingTasks r))
  /-- The markets of a startup wait for their books. -/
  waiting : ∀ m, t.Waits m → t.desk.phase m = .initializing ∧ t.operation ≠ .adding m
  distinct : ∀ r run, t.run? r = some run → run.startup.remaining.Nodup
  markets : t.config.markets.Nodup

namespace InOrder

/-- Only one startup goes on. -/
theorem starting_unique (h : t.InOrder) {r r' : ℕ} {run run' : Run} (hr : t.run? r = some run)
    (hstartup : run.startup ≠ .ended) (hr' : t.run? r' = some run')
    (hstartup' : run'.startup ≠ .ended) : r = r' := by
  rcases h.starting r run hr hstartup with hrun | ⟨i, hi⟩
  · rcases h.starting r' run' hr' hstartup' with hrun' | ⟨i, hi⟩
    · exact Option.some.inj (hrun.symm.trans hrun')
    · exact absurd (hrun.symm.trans (h.stopped i _ hi)) (by simp)
  · rcases h.starting r' run' hr' hstartup' with hrun' | ⟨j, hj⟩
    · exact absurd (hrun'.symm.trans (h.stopped i _ hi)) (by simp)
    · obtain rfl := h.stopsOnce i j _ _ hi hj
      simpa using hi.symm.trans hj

/-- While there is a run, no stop is in progress. -/
theorem not_isStopping (h : t.InOrder) (hrun : t.run = some r) : ¬t.IsStopping := by
  rintro ⟨i, st, hi⟩
  exact absurd (hrun.symm.trans (h.stopped i st hi)) (by simp)

/-- What is under way because of a request is what is under way. -/
theorem operation_eq (h : t.InOrder) (hs : t.request? i = some s) (hop : s.operation ≠ .idle) :
    t.operation = s.operation :=
  operation_of_holdsLock (h.held i s hs (RequestStage.hasLock_of_operation hop)) hs

/-- Where there is neither a run nor a stop that waits for one, all startups have ended. -/
theorem startup_ended (h : t.InOrder) (hrun : t.run = none)
    (hstop : ∀ i, t.request? i ≠ some (.stop (.awaitingTasks r))) (hr : t.run? r = some run) :
    run.startup = .ended := by
  by_contra hstartup
  rcases h.starting r run hr hstartup with hrun' | ⟨i, hi⟩
  · exact absurd (hrun.symm.trans hrun') (by simp)
  · exact hstop i hi

/-- If somebody else has the lock, nobody does anything that takes it. -/
theorem isFree (h : t.InOrder) (holds : t.holdsLock a = true) (ha : ∀ i, a ≠ .request i) :
    t.IsFree := by
  intro i s hs hlock
  have hhead : t.lock.head? = some a := of_decide_eq_true holds
  have hhead' : t.lock.head? = some (.request i) := of_decide_eq_true (h.held i s hs hlock)
  exact ha i (Option.some.inj (hhead.symm.trans hhead'))

/-! ### Changes at the desk -/

theorem setDesk (h : t.InOrder) (order : d'.InOrder t.operation)
    (waits : ∀ m, t.Waits m → d'.phase m = .initializing)
    (untracked : (∀ m, t.desk.phase m = .unregistered) → ∀ m, d'.phase m = .unregistered) :
    { t with desk := d' }.InOrder :=
  { h with
    desk := order
    emptied := fun hrun hstop => untracked (h.emptied hrun hstop)
    waiting := fun m hm => ⟨waits m hm, (h.waiting m hm).2⟩ }

/-- What does not touch the order of the desk. -/
theorem quiet (h : t.InOrder) (hq : t.desk.Quiet d') : { t with desk := d' }.InOrder :=
  h.setDesk (h.desk.quiet hq) (fun m hm => (hq.spares m).phase.trans (h.waiting m hm).1)
    fun hd m => (hq.spares m).phase.trans (hd m)

/-- The time, and whether all first books are there, do not matter. -/
theorem tick (h : t.InOrder) (ready : ReadySignal) (clock : ℕ) (now : Instant) :
    { t with ready := ready, clock := clock, now := now }.InOrder :=
  { h with }

/-! ### Changes of a run -/

theorem run?_setRun {r' : ℕ} {run' : Run} (hr : (t.setRun r run).run? r' = some run') :
    r' = r ∧ run' = run ∨ r' ≠ r ∧ t.run? r' = some run' :=
  eq_or_getElem?_of_set hr

/-- **A run comes to another stage**: it is not revived, and its startup does not go back. -/
theorem setRun (h : t.InOrder) {run' : Run} (hr : t.run? r = some run)
    (cancelled : run.isCancelled = true → run'.isCancelled = true)
    (startup : run.startup = .ended → run'.startup = .ended)
    (remaining : run'.startup.remaining.Sublist run.startup.remaining) :
    (t.setRun r run').InOrder where
  desk := h.desk
  held := h.held
  stopped := h.stopped
  stopsOnce := h.stopsOnce
  emptied := h.emptied
  current r' v hv hcancel := by
    rcases run?_setRun hv with ⟨rfl, rfl⟩ | ⟨-, hv⟩
    · refine h.current r' run hr ?_
      by_contra hc
      simp [cancelled (by simpa using hc)] at hcancel
    · exact h.current r' v hv hcancel
  starting r' v hv hstartup := by
    rcases run?_setRun hv with ⟨rfl, rfl⟩ | ⟨-, hv⟩
    · exact h.starting r' run hr fun hended => hstartup (startup hended)
    · exact h.starting r' v hv hstartup
  waiting m := by
    rintro ⟨r', v, hv, hm⟩
    rcases run?_setRun hv with ⟨rfl, rfl⟩ | ⟨-, hv⟩
    · exact h.waiting m ⟨r', run, hr, remaining.subset hm⟩
    · exact h.waiting m ⟨r', v, hv, hm⟩
  distinct r' v hv := by
    rcases run?_setRun hv with ⟨rfl, rfl⟩ | ⟨-, hv⟩
    · exact (h.distinct r' run hr).sublist remaining
    · exact h.distinct r' v hv
  markets := h.markets

/-! ### Changes of a request -/

end InOrder

theorem request?_setRequest {j : ℕ} {v : RequestStage}
    (hv : (t.setRequest i s').request? j = some v) :
    j = i ∧ v = s' ∨ j ≠ i ∧ t.request? j = some v :=
  eq_or_getElem?_of_set hv

theorem request?_setRequest_self (hs : t.request? i = some s) :
    (t.setRequest i s').request? i = some s' :=
  List.getElem?_set_self (List.getElem?_eq_some_iff.mp hs).1

theorem request?_setRequest_ne {j : ℕ} (hne : j ≠ i) :
    (t.setRequest i s').request? j = t.request? j :=
  List.getElem?_set_ne (Ne.symm hne)

/-- Only the stage of whoever has the lock matters. -/
theorem operation_setRequest (hs : t.request? i = some s) (hop : s.operation = s'.operation) :
    (t.setRequest i s').operation = t.operation := by
  by_cases holds : t.holdsLock (.request i) = true
  · rw [operation_of_holdsLock holds hs, hop]
    exact operation_of_holdsLock holds (request?_setRequest_self hs)
  · unfold operation
    change (match t.lock.head? with | some (.request j) => _ | _ => _) = _
    split
    next j hj =>
      have hne : j ≠ i := by
        rintro rfl
        exact holds (decide_eq_true hj)
      rw [request?_setRequest_ne hne]
    next => rfl

/-- The stops are those that there were before. -/
theorem exists_stop_of_setRequest (hs : t.request? i = some s) (stop : s'.isStop = s.isStop)
    {j : ℕ} {st : StopStage} (hj : (t.setRequest i s').request? j = some (.stop st)) :
    ∃ st', t.request? j = some (.stop st') := by
  rcases request?_setRequest hj with ⟨rfl, rfl⟩ | ⟨-, hj⟩
  · obtain ⟨st', rfl⟩ := RequestStage.isStop_iff.mp stop.symm
    exact ⟨st', hs⟩
  · exact ⟨st, hj⟩

theorem IsStopping.setRequest (h : t.IsStopping) (hs : t.request? i = some s)
    (stop : s'.isStop = s.isStop) : (t.setRequest i s').IsStopping := by
  obtain ⟨j, st, hj⟩ := h
  by_cases hji : j = i
  · obtain rfl := hji
    obtain rfl := Option.some.inj (hs.symm.trans hj)
    obtain ⟨st', rfl⟩ := RequestStage.isStop_iff.mp stop
    exact ⟨j, st', request?_setRequest_self hs⟩
  · exact ⟨j, st, (request?_setRequest_ne hji).trans hj⟩

namespace InOrder

/-- **A request comes to another stage,** with a turn at the desk. It does not become a stop or
cease to be one, and the startup that it may have waited for has ended. -/
theorem setRequest (h : t.InOrder) (hs : t.request? i = some s)
    (turn : t.desk.Turn t.operation ({ t with desk := d' }.setRequest i s').operation d')
    (lock : s'.HasLock → t.holdsLock (.request i) = true) (stop : s'.isStop = s.isStop)
    (awaited : ∀ r run, s = .stop (.awaitingTasks r) → t.run? r = some run → run.startup = .ended)
    (running : ∀ m, ({ t with desk := d' }.setRequest i s').operation = .adding m →
      t.operation = .adding m ∨ t.run ≠ none) :
    ({ t with desk := d' }.setRequest i s').InOrder := by
  refine
    { desk := turn.inOrder h.desk
      held := fun j v hv hlock => ?_
      stopped := fun j st hj => ?_
      stopsOnce := fun j k st st' hj hk => ?_
      emptied := fun hrun hnot => ?_
      current := h.current
      starting := fun r run hr hstartup => ?_
      waiting := fun m hm => turn.waits h.desk (h.waiting m hm).1 (h.waiting m hm).2
      distinct := h.distinct
      markets := h.markets }
  · rcases request?_setRequest hv with ⟨rfl, rfl⟩ | ⟨-, hj⟩
    · exact lock hlock
    · exact h.held j v hj hlock
  · obtain ⟨st', hj⟩ := exists_stop_of_setRequest (t := t) hs stop hj
    exact h.stopped j st' hj
  · obtain ⟨_, hj⟩ := exists_stop_of_setRequest (t := t) hs stop hj
    obtain ⟨_, hk⟩ := exists_stop_of_setRequest (t := t) hs stop hk
    exact h.stopsOnce j k _ _ hj hk
  · exact turn.untracked h.desk (fun m hm => (running m hm).resolve_right (not_not.mpr hrun))
      (h.emptied hrun fun hstopping => hnot (hstopping.setRequest hs stop))
  · refine (h.starting r run hr hstartup).imp_right ?_
    rintro ⟨j, hj⟩
    refine ⟨j, (request?_setRequest_ne ?_).trans hj⟩
    rintro rfl
    exact hstartup (awaited r run (Option.some.inj (hs.symm.trans hj)) hr)

/-- A request that does nothing to the desk comes to another stage where it does nothing. -/
theorem setRequest_idle (h : t.InOrder) (hs : t.request? i = some s) (hop : s.operation = .idle)
    (hlock : ¬s'.HasLock) (stop : s'.isStop = s.isStop)
    (awaited : ∀ r run, s = .stop (.awaitingTasks r) → t.run? r = some run →
      run.startup = .ended) : (t.setRequest i s').InOrder := by
  have hsame : (t.setRequest i s').operation = t.operation :=
    operation_setRequest hs (hop.trans (RequestStage.operation_of_not_hasLock hlock).symm)
  have turn : t.desk.Turn t.operation (t.setRequest i s').operation t.desk := by
    rw [hsame]
    exact .rest t.desk.quiet_rest
  exact h.setRequest hs turn (fun hl => absurd hl hlock) stop awaited fun m hm =>
    .inl (hsame.symm.trans hm)

/-- A request that has the lock takes a turn. -/
theorem setRequest_turn (h : t.InOrder) (hs : t.request? i = some s)
    (holds : t.holdsLock (.request i) = true) (turn : t.desk.Turn s.operation s'.operation d')
    (stop : s'.isStop = s.isStop) (awaited : ∀ r, s ≠ .stop (.awaitingTasks r))
    (running : ∀ m, s'.operation = .adding m → s.operation = .adding m ∨ t.run ≠ none) :
    ({ t with desk := d' }.setRequest i s').InOrder := by
  have hop : ({ t with desk := d' }.setRequest i s').operation = s'.operation :=
    operation_of_holdsLock holds (request?_setRequest_self (t := { t with desk := d' }) hs)
  rw [← operation_of_holdsLock holds hs] at turn running
  refine h.setRequest hs (hop ▸ turn) (fun _ => holds) stop
    (fun r _ hr => absurd hr (awaited r)) fun m hm => running m (hop.symm.trans hm)

end InOrder

/-- A request is made. -/
def append (t : Tracker) (s : RequestStage) : Tracker := { t with requests := t.requests ++ [s] }

theorem request?_append {j : ℕ} {v : RequestStage} (hv : (t.append s).request? j = some v) :
    j = t.requests.length ∧ v = s ∨ t.request? j = some v :=
  eq_or_getElem?_of_concat hv

theorem request?_append_of_some {j : ℕ} {v : RequestStage} (hv : t.request? j = some v) :
    (t.append s).request? j = some v :=
  (List.getElem?_append_left (List.getElem?_eq_some_iff.mp hv).1).trans hv

theorem operation_append (hop : s.operation = .idle) : (t.append s).operation = t.operation := by
  unfold operation
  change (match t.lock.head? with | some (.request j) => _ | _ => _) = _
  split
  next j _ =>
    cases hj : t.request? j with
    | some v => rw [request?_append_of_some hj]
    | none =>
      -- somebody has the lock who was not there before
      cases hj' : (t.append s).request? j with
      | none => rfl
      | some v =>
        rcases request?_append hj' with ⟨-, rfl⟩ | hv
        · exact hop
        · exact absurd (hj.symm.trans hv) (by simp)
  next => rfl

namespace InOrder

/-- **A request is made** that is not a stop. -/
theorem append (h : t.InOrder) (hlock : ¬s.HasLock) (stop : s.isStop = false) :
    (t.append s).InOrder := by
  have hop : (t.append s).operation = t.operation :=
    operation_append (RequestStage.operation_of_not_hasLock hlock)
  have hstop : ∀ {j : ℕ} {st : StopStage}, (t.append s).request? j = some (.stop st) →
      t.request? j = some (.stop st) := by
    intro j st hj
    rcases request?_append hj with ⟨-, rfl⟩ | hj
    · cases stop
    · exact hj
  refine
    { desk := hop ▸ h.desk
      held := fun j v hv hl => ?_
      stopped := fun j st hj => h.stopped j st (hstop hj)
      stopsOnce := fun j k st st' hj hk => h.stopsOnce j k st st' (hstop hj) (hstop hk)
      emptied := fun hrun hnot => h.emptied hrun fun ⟨j, st, hj⟩ =>
        hnot ⟨j, st, request?_append_of_some hj⟩
      current := h.current
      starting := fun r run hr hstartup => (h.starting r run hr hstartup).imp_right
        fun ⟨j, hj⟩ => ⟨j, request?_append_of_some hj⟩
      waiting := fun m hm => hop ▸ h.waiting m hm
      distinct := h.distinct
      markets := h.markets }
  rcases request?_append hv with ⟨-, rfl⟩ | hv
  · exact absurd hl hlock
  · exact h.held j v hv hl

/-! ### The lock -/

/-- The lock is asked for. -/
theorem queueForLock (h : t.InOrder)
    (ha : ∀ i s, a = .request i → t.request? i = some s → s.operation = .idle) :
    (t.queueForLock a).InOrder := by
  have hhead : t.lock.head? = none ∧ (t.queueForLock a).lock.head? = some a ∨
      (t.queueForLock a).lock.head? = t.lock.head? := by
    unfold Tracker.queueForLock
    cases t.lock with
    | nil => exact .inl ⟨rfl, rfl⟩
    | cons b bs => exact .inr rfl
  have hop : (t.queueForLock a).operation = t.operation := by
    unfold operation
    rcases hhead with ⟨hnone, hsome⟩ | hsame
    · rw [hnone, hsome]
      cases a with
      | request i =>
        change ((t.request? i).map RequestStage.operation).getD .idle = .idle
        cases hs : t.request? i with
        | none => rfl
        | some s => exact ha i s rfl hs
      | _ => rfl
    · rw [hsame]
      rfl
  refine
    { h with
      desk := hop ▸ h.desk
      held := fun i s hs hlock => ?_
      waiting := fun m hm => hop ▸ h.waiting m hm }
  have hheld : t.lock.head? = some (.request i) := of_decide_eq_true (h.held i s hs hlock)
  rcases hhead with ⟨hnone, -⟩ | hsame
  · exact absurd (hnone.symm.trans hheld) (by simp)
  · exact decide_eq_true (hsame.trans hheld)

/-- The lock is given back. -/
theorem unlock (h : t.InOrder) (free : t.IsFree) : t.unlock.InOrder := by
  have hop : t.unlock.operation = .idle := IsFree.operation (t := t.unlock) free
  refine
    { h with
      desk := hop ▸ free.operation ▸ h.desk
      held := fun i s hs hlock => absurd hlock (free i s hs)
      waiting := fun m hm => ⟨(h.waiting m hm).1, by simp [hop]⟩ }

/-! ### Start and stop -/

end InOrder

theorem cancelRun_of_none (hr : t.run? r = none) : t.cancelRun r = t := by
  unfold cancelRun
  rw [hr]

theorem cancelRun_of_some (hr : t.run? r = some run) : t.cancelRun r =
    { t.setRun r { run with isCancelled := true } with desk := t.desk.cancelRun r } := by
  unfold cancelRun
  rw [hr]

theorem isCancelled_cancelRun (hr : (t.cancelRun r).run? r = some run) :
    run.isCancelled = true := by
  cases hv : t.run? r with
  | none =>
    rw [cancelRun_of_none hv] at hr
    exact absurd (hv.symm.trans hr) (by simp)
  | some v =>
    rw [cancelRun_of_some hv] at hr
    have hself : (t.setRun r { v with isCancelled := true }).run? r =
        some { v with isCancelled := true } :=
      List.getElem?_set_self (List.getElem?_eq_some_iff.mp hv).1
    obtain rfl := Option.some.inj (hself.symm.trans hr)
    rfl

theorem run_cancelRun (t : Tracker) (r : ℕ) : (t.cancelRun r).run = t.run := by
  cases hr : t.run? r with
  | none => rw [cancelRun_of_none hr]
  | some run =>
    rw [cancelRun_of_some hr]
    rfl

/-- It does not matter which run is the present one. -/
theorem cancelRun_withRun (t : Tracker) (r : ℕ) (run? : Option ℕ) :
    { t with run := run? }.cancelRun r = { t.cancelRun r with run := run? } := by
  cases hr : t.run? r with
  | none =>
    rw [cancelRun_of_none hr]
    exact cancelRun_of_none hr
  | some run =>
    rw [cancelRun_of_some hr]
    exact cancelRun_of_some hr

theorem quiet_cancelRun (t : Tracker) (r : ℕ) : t.desk.Quiet (t.cancelRun r).desk := by
  cases hr : t.run? r with
  | none =>
    rw [cancelRun_of_none hr]
    exact t.desk.quiet_rest
  | some run =>
    rw [cancelRun_of_some hr]
    exact t.desk.quiet_cancelRun r

namespace InOrder

/-- Where no market is tracked, nothing is under way, unless it is a stop. -/
theorem operation_of_untracked (h : t.InOrder) (hnot : ¬t.IsStopping)
    (hd : ∀ m, t.desk.phase m = .unregistered) : t.operation = .idle := by
  cases hop : t.operation with
  | idle => rfl
  | adding m =>
    exact absurd ((hd m).symm.trans ((h.desk.market m).adding hop)) (by simp)
  | removing m j =>
    exact absurd ((hd m).symm.trans ((h.desk.market m).removing.mpr ⟨j, hop⟩)) (by simp)
  | dismissing ws =>
    obtain ⟨i, s, hs, -, hsame⟩ := exists_request_of_operation (t := t) (by simp [hop])
    obtain ⟨st, rfl⟩ := RequestStage.isStop_of_dismissing (hsame.symm.trans hop)
    exact absurd ⟨i, st, hs⟩ hnot

/-- **A run begins.** All startups before have ended, so only the markets of the new one
wait. -/
theorem start (h : t.InOrder) (hnot : ¬t.IsStopping) (hstart : t.start = .ok t') :
    t'.InOrder := by
  unfold Tracker.start at hstart
  split at hstart
  next => cases hstart
  next hrun =>
    obtain rfl := Except.ok.inj hstart
    have hphase := h.emptied hrun hnot
    have hslot : ∀ m, t.desk.slot? m = none := fun m =>
      Desk.phase_eq_unregistered.mp (hphase m)
    have hop := h.operation_of_untracked hnot hphase
    have hold : ∀ r run, t.run? r = some run → run.startup = .ended := fun r run hr =>
      h.startup_ended hrun (fun i hi => hnot ⟨i, _, hi⟩) hr
    refine
      { desk := hop ▸ (hop ▸ h.desk).registerAll hslot t.config.markets
          t.config.pendingCapacity t.now
        held := h.held
        stopped := fun i s hs => absurd ⟨i, s, hs⟩ hnot
        stopsOnce := h.stopsOnce
        emptied := fun hrun' => by cases hrun'
        current := fun r run hr hcancel => ?_
        starting := fun r run hr hstartup => .inl ?_
        waiting := ?_
        distinct := fun r run hr => ?_
        markets := h.markets }
    · rcases eq_or_getElem?_of_concat hr with ⟨rfl, -⟩ | hr
      · rfl
      · exact absurd (hrun.symm.trans (h.current r run hr hcancel)) (by simp)
    · rcases eq_or_getElem?_of_concat hr with ⟨rfl, -⟩ | hr
      · rfl
      · exact absurd (hold r run hr) hstartup
    · rintro m ⟨r, run, hr, hm⟩
      rcases eq_or_getElem?_of_concat hr with ⟨-, rfl⟩ | hr
      · refine ⟨?_, fun hadding => absurd (hop.symm.trans hadding) (by simp)⟩
        exact (Desk.phase_registerAll _ _ _ m).trans (if_pos hm)
      · rw [hold r run hr] at hm
        cases hm
    · rcases eq_or_getElem?_of_concat hr with ⟨-, rfl⟩ | hr
      · exact h.markets
      · exact h.distinct r run hr

/-- The tasks of a run are cancelled. -/
theorem cancelRun (h : t.InOrder) (r : ℕ) : (t.cancelRun r).InOrder := by
  cases hr : t.run? r with
  | none => exact (cancelRun_of_none hr).symm ▸ h
  | some run =>
    have hrun : (t.setRun r { run with isCancelled := true }).InOrder :=
      h.setRun hr (fun _ => rfl) id (.refl _)
    rw [cancelRun_of_some hr]
    exact hrun.quiet (t.desk.quiet_cancelRun r)

/-- **A stop is asked for**, which cancels the run. -/
theorem stop (h : t.InOrder) (hrun : t.run = some r)
    (cancelled : ∀ run, t.run? r = some run → run.isCancelled = true) :
    { t.append (.stop (.awaitingTasks r)) with run := none }.InOrder := by
  have hnot : ∀ i st, t.request? i ≠ some (.stop st) := fun i st hi =>
    h.not_isStopping hrun ⟨i, st, hi⟩
  have hop : (t.append (.stop (.awaitingTasks r))).operation = t.operation := operation_append rfl
  have hself : (t.append (.stop (.awaitingTasks r))).request? t.requests.length =
      some (.stop (.awaitingTasks r)) := List.getElem?_concat_length
  -- it is the only stop
  have hstop : ∀ {j : ℕ} {st : StopStage},
      (t.append (.stop (.awaitingTasks r))).request? j = some (.stop st) →
      j = t.requests.length := by
    intro j st hj
    rcases request?_append hj with ⟨rfl, -⟩ | hj
    · rfl
    · exact absurd hj (hnot j st)
  refine
    { desk := hop ▸ h.desk
      held := fun j v hv hlock => ?_
      stopped := fun _ _ _ => rfl
      stopsOnce := fun j k st st' hj hk => (hstop hj).trans (hstop hk).symm
      emptied := fun _ hnone => absurd ⟨_, _, hself⟩ hnone
      current := fun r' run hr hcancel => ?_
      starting := fun r' run hr hstartup => .inr ⟨t.requests.length, ?_⟩
      waiting := fun m hm => hop ▸ h.waiting m hm
      distinct := h.distinct
      markets := h.markets }
  · rcases request?_append hv with ⟨-, rfl⟩ | hv
    · exact absurd hlock id
    · exact h.held j v hv hlock
  · obtain rfl : r = r' := Option.some.inj (hrun.symm.trans (h.current r' run hr hcancel))
    exact absurd ((cancelled run hr).symm.trans hcancel) (by simp)
  · rcases h.starting r' run hr hstartup with hrun' | ⟨i, hi⟩
    · obtain rfl : r = r' := Option.some.inj (hrun.symm.trans hrun')
      exact hself
    · exact absurd hi (hnot i _)

/-- Once a request that has the lock comes to a stage that does not need it, nobody does anything
that does. -/
theorem isFree_setRequest (h : t.InOrder) (holds : t.holdsLock (.request i) = true)
    (hlock : ¬s'.HasLock) : (t.setRequest i s').IsFree := by
  intro j v hv hl
  rcases request?_setRequest hv with ⟨-, rfl⟩ | ⟨hne, hv⟩
  · exact hlock hl
  · have hhead : t.lock.head? = some (.request i) := of_decide_eq_true holds
    have hhead' : t.lock.head? = some (.request j) := of_decide_eq_true (h.held j v hv hl)
    exact hne (Actor.request.inj (Option.some.inj (hhead'.symm.trans hhead)))

/-- **A stop ends**: all its workers have ended, and all markets are forgotten. -/
theorem finish (h : t.InOrder) {st : StopStage} (hs : t.request? i = some (.stop st))
    (holds : t.holdsLock (.request i) = true) (awaited : ∀ r, st ≠ .awaitingTasks r)
    (order : d'.InOrder (.dismissing [])) (reply : Reply) :
    ({ t with desk := d'.clear }.setRequest i (.answered reply)).InOrder := by
  have free : ({ t with desk := d'.clear }.setRequest i (.answered reply)).IsFree :=
    h.isFree_setRequest holds id
  -- it was the only stop
  have hnot : ∀ j st', ({ t with desk := d'.clear }.setRequest i (.answered reply)).request? j ≠
      some (.stop st') := by
    intro j st' hj
    rcases request?_setRequest hj with ⟨-, hcase⟩ | ⟨hne, hj⟩
    · cases hcase
    · exact hne (h.stopsOnce j i _ _ hj hs)
  have hended : ∀ r run, t.run? r = some run → run.startup = .ended := by
    intro r run hr
    refine h.startup_ended (h.stopped i st hs) (fun j hj => ?_) hr
    obtain rfl := h.stopsOnce j i _ _ hj hs
    obtain rfl := RequestStage.stop.inj (Option.some.inj (hs.symm.trans hj))
    exact awaited r rfl
  refine
    { desk := free.operation ▸ order.clear
      held := fun j v hv hlock => absurd hlock (free j v hv)
      stopped := fun j st' hj => absurd hj (hnot j st')
      stopsOnce := fun j _ st' _ hj _ => absurd hj (hnot j st')
      emptied := fun _ _ m => Desk.phase_of_none (Table.get?_empty m)
      current := h.current
      starting := fun r run hr hstartup => absurd (hended r run hr) hstartup
      waiting := ?_
      distinct := h.distinct
      markets := h.markets }
  rintro m ⟨r, run, hr, hm⟩
  rw [hended r run hr] at hm
  cases hm

end InOrder

end Tracker

end LiveBook
