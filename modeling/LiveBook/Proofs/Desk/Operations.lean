import LiveBook.Proofs.Book.Staleness
import LiveBook.Tracker.Routing

/-!
# What is done at a desk

A desk is seen through two views, the slots of the markets and the workers. For each
operation of the desk there is one statement here that says what it does to both, so that
nothing that is proved about desks has to look at the operations again.

* `LiveBook.Desk.Alike` – desks that differ in trades and cancellations only, which most
  operations lead to;
* `LiveBook.Desk.activate_eq_ok` – when a market is activated, and what comes of it;
* `LiveBook.Desk.Routes` – the ways of an event, and `LiveBook.Desk.routes_route`, that
  every event goes one of them;
* `LiveBook.Desk.Works` – the steps of a worker, and `LiveBook.Desk.works_work`, that it takes
  no others.
-/

namespace LiveBook

/-! ### Workers that differ in trades and cancellations only -/

/-- Two states of a worker that differ in the trades of the book, and in whether the worker
was cancelled. -/
structure Worker.Alike (w w' : Worker) : Prop where
  market : w'.market = w.market
  pending : w'.pending = w.pending
  queue : w'.queue = w.queue
  stage : w'.stage = w.stage
  keeper : w'.keeper.untraded = w.keeper.untraded

namespace Worker.Alike

theorem refl (w : Worker) : w.Alike w := ⟨rfl, rfl, rfl, rfl, rfl⟩

theorem trans {w w' w'' : Worker} (h : w.Alike w') (h' : w'.Alike w'') : w.Alike w'' :=
  ⟨h'.market.trans h.market, h'.pending.trans h.pending, h'.queue.trans h.queue,
    h'.stage.trans h.stage, h'.keeper.trans h.keeper⟩

theorem cancelled (w : Worker) : w.Alike { w with isCancelled := true } :=
  ⟨rfl, rfl, rfl, rfl, rfl⟩

theorem backlog {w w' : Worker} (h : w.Alike w') : w'.backlog = w.backlog := by
  rw [Worker.backlog, Worker.backlog, h.pending, h.queue]

end Worker.Alike

/-- A worker that takes a message is left as it was but for its backlog. -/
theorem Worker.take?_eq {w rest : Worker} {x : BookMessage} (h : w.take? = some (x, rest)) :
    ∃ pending queue, rest = { w with pending := pending, queue := queue } := by
  unfold take? at h
  split at h
  · obtain ⟨-, rfl⟩ := Prod.mk.inj (Option.some.inj h)
    exact ⟨_, w.queue, rfl⟩
  · obtain ⟨-, rfl⟩ := Prod.mk.inj (Option.some.inj h)
    exact ⟨w.pending, _, rfl⟩
  · cases h

namespace Desk

variable {d : Desk} {m : MarketId} {i j : ℕ} {w : Worker}

/-! ### The two views -/

/-- Behind everything that is shown there is a slot. -/
theorem exists_of_slot? {x : Slot} (h : d.slot? m = some x) :
    ∃ s, d.slots.get? m = some s ∧ s.view = x :=
  Option.map_eq_some_iff.mp h

theorem slot?_of_get? {s : MarketSlot} (h : d.slots.get? m = some s) : d.slot? m = some s.view := by
  rw [slot?, h, Option.map_some]

theorem isSupplied_iff : d.isSupplied i w = true ↔ d.slot? w.market = some (.active i) := by
  rw [isSupplied, decide_eq_true_iff, Option.bind_eq_some_iff, slot?, Option.map_eq_some_iff]
  simp only [MarketSlot.queue_eq_some_iff]

/-- **One slot is changed**, and shows something else then. -/
theorem slot?_adjust {f : MarketSlot → MarketSlot} {x y : Slot} {d' : Desk}
    (slots : d'.slots = d.slots.adjust m f) (shown : d.slot? m = some x)
    (changed : ∀ s : MarketSlot, s.view = x → (f s).view = y) (m' : MarketId) :
    d'.slot? m' = if m = m' then some y else d.slot? m' := by
  rw [slot?, slots, Table.get?_adjust]
  split
  next hm =>
    subst hm
    obtain ⟨s, hs, hx⟩ := exists_of_slot? shown
    rw [hs, Option.map_some, Option.map_some, changed s hx]
  next => rfl

/-- The other slots show what they did. -/
theorem slot?_adjust_ne {f : MarketSlot → MarketSlot} {d' : Desk} {m' : MarketId}
    (slots : d'.slots = d.slots.adjust m f) (hm : m ≠ m') : d'.slot? m' = d.slot? m' := by
  rw [slot?, slots, Table.get?_adjust, if_neg hm, slot?]

/-- Only a market that waits for its book has diffs set aside. -/
theorem pendingSize_eq_zero (h : ∀ p, d.slot? m ≠ some (.initializing p)) :
    d.pendingSize m = 0 := by
  unfold pendingSize
  cases hs : d.slots.get? m with
  | none => rfl
  | some s =>
    refine PendingDiffs.size_eq_zero.mpr (s.lawful.emptied fun hphase => ?_)
    exact h s.pending ((slot?_of_get? hs).trans (congrArg some (MarketSlot.view_of_waiting hphase)))

theorem slot?_setPending {p : PendingDiffs} (h : d.slot? m = some (.initializing p))
    (p' : PendingDiffs) (m' : MarketId) :
    (d.setPending m p').slot? m' = if m = m' then some (.initializing p') else d.slot? m' :=
  slot?_adjust rfl h (fun _ hs => MarketSlot.view_setPending hs p') m'

theorem lt_length (h : d.worker? i = some w) : i < d.staff.length :=
  (List.getElem?_eq_some_iff.mp h).1

theorem worker?_setWorker_self {w' : Worker} (h : d.worker? i = some w) :
    (d.setWorker i w').worker? i = some w' :=
  List.getElem?_set_self (lt_length h)

theorem worker?_setWorker_ne (hne : i ≠ j) (w : Worker) :
    (d.setWorker i w).worker? j = d.worker? j :=
  List.getElem?_set_ne hne

variable (d)

/-! ### What leaves slots and messages alone -/

/-- Two states of a desk that differ in trades, cancellations and records only. -/
structure Alike (d d' : Desk) : Prop where
  policy : d'.policy = d.policy
  slots : d'.slots = d.slots
  length : d'.staff.length = d.staff.length
  staff : ∀ j w, d.worker? j = some w → ∃ w', d'.worker? j = some w' ∧ w.Alike w'

namespace Alike

theorem refl : d.Alike d := ⟨rfl, rfl, rfl, fun _ w hw => ⟨w, hw, .refl w⟩⟩

variable {d}

theorem trans {d' d'' : Desk} (h : d.Alike d') (h' : d'.Alike d'') : d.Alike d'' := by
  refine ⟨h'.policy.trans h.policy, h'.slots.trans h.slots, h'.length.trans h.length, ?_⟩
  intro j w hw
  obtain ⟨w', hw', halike⟩ := h.staff j w hw
  obtain ⟨w'', hw'', halike'⟩ := h'.staff j w' hw'
  exact ⟨w'', hw'', halike.trans halike'⟩

theorem slot? {d' : Desk} (h : d.Alike d') (m : MarketId) : d'.slot? m = d.slot? m :=
  congrArg (fun t => (Table.get? t m).map MarketSlot.view) h.slots

/-- A worker is changed in such a way. -/
theorem setWorker {w' : Worker} (hw : d.worker? i = some w) (h : w.Alike w') :
    d.Alike (d.setWorker i w') := by
  refine ⟨rfl, rfl, List.length_set, fun j v hv => ?_⟩
  by_cases hij : i = j
  · subst hij
    obtain rfl := Option.some.inj (hw.symm.trans hv)
    exact ⟨w', worker?_setWorker_self hw, h⟩
  · exact ⟨v, (worker?_setWorker_ne hij w').trans hv, .refl v⟩

end Alike

theorem alike_cancel (i : ℕ) : d.Alike (d.cancel i) := by
  unfold cancel
  split
  next w hw => exact .setWorker hw (.cancelled w)
  next => exact .refl d

theorem alike_cancelRun (r : ℕ) : d.Alike (d.cancelRun r) := by
  refine ⟨rfl, rfl, List.length_map _, fun j w hw => ?_⟩
  have hmap : (d.cancelRun r).worker? j =
      (d.worker? j).map fun w => if w.run = r then { w with isCancelled := true } else w :=
    List.getElem?_map
  refine ⟨_, by rw [hmap, hw]; rfl, ?_⟩
  dsimp only
  split
  · exact .cancelled w
  · exact .refl w

theorem alike_dismiss : d.Alike d.dismiss.1 := ⟨rfl, rfl, rfl, fun _ w hw => ⟨w, hw, .refl w⟩⟩

theorem untraded_refreshBook (b : Book) (price? : Option Decimal) (now : Instant) :
    (refreshBook b price? now).untraded = b.untraded := by
  cases price? <;> rfl

theorem alike_refresh (asked : List (MarketId × ℕ)) (prices : Table MarketId Decimal)
    (now : Instant) : d.Alike (d.refresh asked prices now) := by
  unfold refresh
  induction asked generalizing d with
  | nil => exact .refl d
  | cons a asked ih =>
    obtain ⟨m, i⟩ := a
    rw [List.foldl_cons]
    refine .trans ?_ (ih _)
    dsimp only
    split
    next w hw =>
      refine .setWorker hw ⟨rfl, rfl, rfl, rfl, ?_⟩
      unfold BookKeeper.untraded
      dsimp only
      rw [untraded_refreshBook]
    next => exact .refl d

/-! ### Markets come and go -/

@[simp] theorem slot?_register (m m' : MarketId) (c : ℕ) :
    (d.register m c).slot? m' =
      if m = m' then some (.initializing (.ofCapacity c)) else d.slot? m' := by
  rw [slot?, register, Table.get?_set]
  split <;> rfl

theorem slot?_registerAll (ms : List MarketId) (c : ℕ) (m : MarketId) :
    (ms.foldl (fun d m => d.register m c) d).slot? m =
      if m ∈ ms then some (.initializing (.ofCapacity c)) else d.slot? m := by
  induction ms generalizing d with
  | nil => simp
  | cons a ms ih =>
    rw [List.foldl_cons, ih, slot?_register]
    by_cases ham : a = m
    · simp [ham]
    · simp [ham, Ne.symm ham]

theorem registerAll_eq (ms : List MarketId) (c : ℕ) :
    ∃ slots, ms.foldl (fun d m => d.register m c) d = { d with slots := slots } := by
  induction ms generalizing d with
  | nil => exact ⟨d.slots, rfl⟩
  | cons a ms ih =>
    obtain ⟨slots, h⟩ := ih (d.register a c)
    exact ⟨slots, h⟩

@[simp] theorem slot?_discard (m m' : MarketId) :
    (d.discard m).slot? m' = if m = m' then none else d.slot? m' := by
  rw [slot?, discard, Table.get?_erase]
  split <;> rfl

variable {d}

theorem slot?_retire (active : d.slot? m = some (.active i)) (m' : MarketId) :
    (d.retire m).1.slot? m' = if m = m' then some .removed else d.slot? m' :=
  slot?_adjust rfl active (fun _ => MarketSlot.view_retired) m'

/-- **When a market is activated, and what comes of it**: it waits for a book, the snapshot
is one of the market and valid, and a new worker gets its book and the diffs set aside. -/
theorem activate_eq_ok {s : Snapshot} {run : ℕ} {isCancelled : Bool} {window : ℕ} {d' : Desk}
    (h : d.activate m s run isCancelled window = .ok d') :
    ∃ b p, s.market = m ∧ Book.ofSnapshot s = .ok b ∧ d.slot? m = some (.initializing p) ∧
      d' = { d with
        slots := d.slots.adjust m (·.activated d.staff.length)
        staff := d.staff ++ [{
          market := m, run := run, keeper := .ofBook b window, pending := p.toList, queue := [],
          isCancelled := isCancelled, stage := .running }]
        inCharge := d.inCharge.set m d.staff.length } := by
  unfold activate at h
  split at h
  next => cases h
  next hm =>
    cases hb : Book.ofSnapshot s with
    | error e => rw [hb] at h; cases h
    | ok b =>
      rw [hb] at h
      dsimp only at h
      split at h
      next p hp => exact ⟨b, p, not_not.mp hm, rfl, hp, (Except.ok.inj h).symm⟩
      next => cases h

/-! ### Events -/

/-- **The ways of an event**: what becomes of it, of the slots and of the workers. The
records that are made of it, `ms`, are left open. -/
inductive Routes (d : Desk) : Event → RouteOutcome → Desk → Prop where
  /-- The market of a diff is not tracked. -/
  | unknown {e : Diff} (ms : Metrics)
      (slot : d.slot? e.market = none ∨ d.slot? e.market = some .removed) :
      Routes d (.diff e) .unknown { d with metrics := ms }
  /-- The market of a diff has no book yet. -/
  | buffered {e : Diff} {p : PendingDiffs} (ms : Metrics)
      (slot : d.slot? e.market = some (.initializing p)) :
      Routes d (.diff e) (.buffered (p.push e).2)
        { d.setPending e.market (p.push e).1 with metrics := ms }
  /-- A diff is stale for the book. -/
  | stale {e : Diff} {i : ℕ} {w : Worker} (ms : Metrics)
      (slot : d.slot? e.market = some (.active i)) (worker : d.worker? i = some w)
      (isStale : w.keeper.book.isStale d.policy e.sequence = true) :
      Routes d (.diff e) .stale { d with metrics := ms }
  /-- There is nobody to take the event. -/
  | rejected {e : Event} (ms : Metrics)
      (ended : ∀ i w, d.slot? e.market = some (.active i) → d.worker? i = some w →
        w.stage = .ended)
      (active : ∀ x, e = .diff x → ∃ i, d.slot? e.market = some (.active i)) :
      Routes d e .rejected { d with metrics := ms }
  /-- A message goes into the queue of the worker. -/
  | delivered {e : Event} {x : BookMessage} {i : ℕ} {w : Worker} (ms : Metrics)
      (message : e.message? = some x) (slot : d.slot? e.market = some (.active i))
      (worker : d.worker? i = some w) (running : w.stage ≠ .ended) :
      Routes d e .delivered
        { d.setWorker i { w with queue := w.queue ++ [x] } with metrics := ms }
  /-- A trade goes to the book. -/
  | traded {e : Trade} {i : ℕ} {w : Worker} (ms : Metrics) (now : Instant)
      (slot : d.slot? e.market = some (.active i)) (worker : d.worker? i = some w) :
      Routes d (.trade e) .delivered
        { d.setWorker i
            { w with keeper := { w.keeper with book := w.keeper.book.applyTrade e.price now } }
          with metrics := ms }

/-- What becomes of a message that nothing speaks against. -/
theorem routes_deliver {e : Event} {x : BookMessage} (message : e.message? = some x)
    (slot : d.slot? e.market = some (.active i)) (worker : d.worker? i = some w)
    (stream : EventStream) (now : Instant) :
    d.Routes e (d.deliver i w x e.market stream now).2 (d.deliver i w x e.market stream now).1 := by
  unfold deliver
  split
  next h =>
    refine .rejected _ ?_ fun _ _ => ⟨i, slot⟩
    intro i' w' hi hw
    -- the slot leads to one worker only
    obtain rfl := Slot.active.inj (Option.some.inj (slot.symm.trans hi))
    obtain rfl := Option.some.inj (worker.symm.trans hw)
    exact h
  next h => exact .delivered _ message slot worker h

/-- An active market whose worker is not there. -/
theorem routes_absent {e : Event} (slot : d.slot? e.market = some (.active i))
    (absent : d.worker? i = none) (ms : Metrics) :
    d.Routes e .rejected { d with metrics := ms } := by
  refine .rejected ms ?_ fun _ _ => ⟨i, slot⟩
  intro j w hj hw
  obtain rfl := Slot.active.inj (Option.some.inj (slot.symm.trans hj))
  exact absurd (absent.symm.trans hw) (by simp)

/-- A market that is not active, for anything but a diff. -/
theorem routes_inactive {e : Event} (inactive : ∀ i, d.slot? e.market ≠ some (.active i))
    (other : ∀ x, e ≠ .diff x) (ms : Metrics) : d.Routes e .rejected { d with metrics := ms } :=
  .rejected ms (fun i _ hi => absurd hi (inactive i)) fun x hx => absurd hx (other x)

theorem routes_routeDiff (e : Diff) (now : Instant) :
    d.Routes (.diff e) (d.routeDiff e now).2 (d.routeDiff e now).1 := by
  unfold routeDiff
  split
  next h => exact .unknown _ (.inl h)
  next h => exact .unknown _ (.inr h)
  next p h =>
    dsimp only
    split
    next => exact .buffered _ h
    next => exact .buffered _ h
  next i h =>
    split
    next hw => exact routes_absent h hw _
    next w hw =>
      split
      next hstale => exact .stale _ h hw hstale
      next => exact routes_deliver rfl h hw .diff now

theorem routes_routeSnapshot (e : Snapshot) (now : Instant) :
    d.Routes (.snapshot e) (d.routeSnapshot e now).2 (d.routeSnapshot e now).1 := by
  unfold routeSnapshot
  split
  next i h =>
    split
    next hw => exact routes_absent h hw _
    next w hw => exact routes_deliver rfl h hw .snapshot now
  next h => exact routes_inactive h (fun _ => Event.noConfusion) _

theorem routes_routeTrade (e : Trade) (now : Instant) :
    d.Routes (.trade e) (d.routeTrade e now).2 (d.routeTrade e now).1 := by
  unfold routeTrade
  split
  next i h =>
    split
    next hw => exact routes_absent h hw _
    next w hw => exact .traded _ now h hw
  next h => exact routes_inactive h (fun _ => Event.noConfusion) _

/-- **Every event goes one of these ways.** -/
theorem routes_route (e : Event) (now : Instant) :
    d.Routes e (d.route e now).2 (d.route e now).1 := by
  cases e with
  | diff e => exact routes_routeDiff e now
  | snapshot e => exact routes_routeSnapshot e now
  | trade e => exact routes_routeTrade e now

/-! ### Workers -/

/-- **The steps of a worker**, with what it does and the desk that this leads to. The records
that are made of it, `ms`, are left open. -/
inductive Works (d : Desk) (i : ℕ) : WorkerAct → Desk → Prop where
  /-- It takes the next message, and goes on or makes a pause. -/
  | took {w rest : Worker} {x : BookMessage} (ms : Metrics) (stage : WorkerStage)
      (worker : d.worker? i = some w) (running : w.stage = .running)
      (wanted : w.isCancelled = false) (next : w.take? = some (x, rest))
      (going : stage ≠ .ended) :
      Works d i (.took x (rest.keeper.process d.policy x).2)
        { d.setWorker i
            { rest with keeper := (rest.keeper.process d.policy x).1, stage := stage }
          with metrics := ms }
  /-- The pause is over. -/
  | resumed {w : Worker} {due : ℕ} (worker : d.worker? i = some w)
      (paused : w.stage = .backingOff due) :
      Works d i .resumed (d.setWorker i { w with stage := .running })
  /-- It was cancelled, or it has nothing left to do and nothing more comes. -/
  | ended {w : Worker} (worker : d.worker? i = some w) (going : w.stage ≠ .ended)
      (why : w.isCancelled = true ∨
        w.backlog = [] ∧ d.slot? w.market ≠ some (.active i)) :
      Works d i .ended (d.setWorker i { w with stage := .ended })

theorem works_takeNext {backoff clock : ℕ} {now : Instant} {d' : Desk} {act : WorkerAct}
    (worker : d.worker? i = some w) (running : w.stage = .running)
    (wanted : w.isCancelled = false)
    (h : d.takeNext i w backoff clock now = some (d', act)) : d.Works i act d' := by
  unfold takeNext at h
  split at h
  next x rest next =>
    have hstage : rest.stage = .running := by
      obtain ⟨pending, queue, rfl⟩ := Worker.take?_eq next
      exact running
    dsimp only at h
    -- only a message that was refused makes it pause
    split at h
    next hv =>
      obtain ⟨rfl, rfl⟩ := Prod.mk.inj (Option.some.inj h)
      exact .took _ rest.stage worker running wanted next (by simp [hstage])
    next hv =>
      obtain ⟨rfl, rfl⟩ := Prod.mk.inj (Option.some.inj h)
      exact .took d.metrics _ worker running wanted next (by simp)
    next hv _ =>
      obtain ⟨rfl, rfl⟩ := Prod.mk.inj (Option.some.inj h)
      exact .took d.metrics rest.stage worker running wanted next (by simp [hstage])
  next hnone =>
    split at h
    next => cases h
    next hsupplied =>
      obtain ⟨rfl, rfl⟩ := Prod.mk.inj (Option.some.inj h)
      refine .ended worker (by simp [running]) (.inr ⟨Worker.take?_eq_none.mp hnone, ?_⟩)
      exact mt isSupplied_iff.mpr hsupplied

/-- **A worker takes no other steps.** -/
theorem works_work {backoff clock : ℕ} {now : Instant} {d' : Desk} {act : WorkerAct}
    (h : d.work i backoff clock now = some (d', act)) : d.Works i act d' := by
  unfold work at h
  split at h
  next => cases h
  next w worker =>
    split at h
    next => cases h
    next due paused =>
      split at h
      next =>
        obtain ⟨rfl, rfl⟩ := Prod.mk.inj (Option.some.inj h)
        exact .resumed worker paused
      next => cases h
    next running =>
      split at h
      next cancelled =>
        obtain ⟨rfl, rfl⟩ := Prod.mk.inj (Option.some.inj h)
        exact .ended worker (by simp [running]) (.inl cancelled)
      next wanted => exact works_takeNext worker running (by simpa using wanted) h

theorem works_workerQuits {d' : Desk} (h : d.workerQuits i = some d') : d.Works i .ended d' := by
  unfold workerQuits at h
  split at h
  next => cases h
  next w worker =>
    split at h
    next due paused =>
      split at h
      next cancelled =>
        obtain rfl := Option.some.inj h
        exact .ended worker (by simp [paused]) (.inl cancelled)
      next => cases h
    next => cases h

end Desk

end LiveBook
