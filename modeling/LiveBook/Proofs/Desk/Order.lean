import LiveBook.Proofs.Desk.Acts
import LiveBook.Proofs.Desk.Safety

/-!
# The order at a desk

Slots, workers, charges and tallies of a desk are four tables about the same markets. That
they fit together is the order of a desk (`LiveBook.Desk.InOrder`). What has to fit depends on
what is under way (`LiveBook.Operation`): a market that is being added waits for its book, one
that is being removed is the only one whose slot says so, and when all workers are dismissed
nobody is in charge any more.

Who has the lock takes turns (`LiveBook.Desk.Turn`), each of which leads from one operation to
the next; everybody else leaves the order as it is (`LiveBook.Desk.Quiet`). A start, a first
book and the end of a stop come in addition.

* `LiveBook.Desk.Turn.inOrder` – every turn keeps the order;
* `LiveBook.Desk.Turn.phase` – and moves phases by single steps only
  (`LiveBook.Phase.Next`).
-/

namespace LiveBook

/-- **What is under way at a desk.** -/
inductive Operation where
  | idle
  /-- A market is being added. -/
  | adding (market : MarketId)
  /-- A market is being removed, whose worker, if there is one, has still to end. -/
  | removing (market : MarketId) (worker? : Option ℕ)
  /-- All workers were dismissed, and these have still to end. -/
  | dismissing (workers : List ℕ)

/-- **The steps of a market**, from one phase to the next. -/
inductive Phase.Next : Phase → Phase → Prop where
  | registered : Next .unregistered .initializing
  | activated : Next .initializing .active
  | retired : Next .active .removed
  | forgotten : Next .removed .unregistered
  | withdrawn : Next .initializing .unregistered

namespace Desk

variable {d d' : Desk} {m m' : MarketId} {i : ℕ} {op op' : Operation}

/-! ### Phases -/

theorem phase_eq (d : Desk) (m : MarketId) :
    d.phase m = (d.slot? m).elim .unregistered Slot.phase := by
  unfold phase slot?
  cases d.slots.get? m with
  | none => rfl
  | some s => exact s.phase_view.symm

theorem phase_of_slot {s : Slot} (h : d.slot? m = some s) : d.phase m = s.phase := by
  rw [phase_eq, h, Option.elim_some]

theorem phase_of_none (h : d.slot? m = none) : d.phase m = .unregistered := by
  rw [phase_eq, h, Option.elim_none]

theorem phase_eq_unregistered : d.phase m = .unregistered ↔ d.slot? m = none := by
  refine ⟨fun h => ?_, phase_of_none⟩
  cases hs : d.slot? m with
  | none => rfl
  | some s =>
    rw [phase_of_slot hs] at h
    cases s <;> cases h

theorem phase_eq_initializing :
    d.phase m = .initializing ↔ ∃ p, d.slot? m = some (.initializing p) := by
  refine ⟨fun h => ?_, fun ⟨p, hp⟩ => phase_of_slot hp⟩
  cases hs : d.slot? m with
  | none =>
    rw [phase_of_none hs] at h
    cases h
  | some s =>
    rw [phase_of_slot hs] at h
    cases s with
    | initializing p => exact ⟨p, rfl⟩
    | _ => cases h

theorem phase_eq_active : d.phase m = .active ↔ ∃ i, d.slot? m = some (.active i) := by
  refine ⟨fun h => ?_, fun ⟨i, hi⟩ => phase_of_slot hi⟩
  cases hs : d.slot? m with
  | none =>
    rw [phase_of_none hs] at h
    cases h
  | some s =>
    rw [phase_of_slot hs] at h
    cases s with
    | active i => exact ⟨i, rfl⟩
    | _ => cases h

@[simp] theorem phase_register (d : Desk) (m m' : MarketId) (c : ℕ) :
    (d.register m c).phase m' = if m = m' then .initializing else d.phase m' := by
  rw [phase_eq, phase_eq, slot?_register]
  split <;> rfl

@[simp] theorem phase_discard (d : Desk) (m m' : MarketId) :
    (d.discard m).phase m' = if m = m' then .unregistered else d.phase m' := by
  rw [phase_eq, phase_eq, slot?_discard]
  split <;> rfl

theorem phase_retire {i : ℕ} (active : d.slot? m = some (.active i)) (m' : MarketId) :
    (d.retire m).1.phase m' = if m = m' then .removed else d.phase m' := by
  rw [phase_eq, phase_eq, slot?_retire active]
  split <;> rfl

theorem phase_registerAll (d : Desk) (ms : List MarketId) (c : ℕ) (m : MarketId) :
    (ms.foldl (fun (d : Desk) m => d.register m c) d).phase m =
      if m ∈ ms then .initializing else d.phase m := by
  rw [phase_eq, phase_eq, slot?_registerAll]
  split <;> rfl

theorem slot?_activate {s : Snapshot} {run : ℕ} {isCancelled : Bool} {window : ℕ}
    (h : d.activate m s run isCancelled window = .ok d') (m' : MarketId) :
    d'.slot? m' = if m = m' then some (.active d.staff.length) else d.slot? m' :=
  (Does.activate h).slot? m'

theorem phase_activate {s : Snapshot} {run : ℕ} {isCancelled : Bool} {window : ℕ}
    (h : d.activate m s run isCancelled window = .ok d') (m' : MarketId) :
    d'.phase m' = if m = m' then .active else d.phase m' := by
  rw [phase_eq, phase_eq, slot?_activate h]
  split <;> rfl

theorem inCharge_activate {s : Snapshot} {run : ℕ} {isCancelled : Bool} {window : ℕ}
    (h : d.activate m s run isCancelled window = .ok d') (m' : MarketId) :
    d'.inCharge.get? m' = if m = m' then some d.staff.length else d.inCharge.get? m' := by
  obtain ⟨b, p, -, -, -, rfl⟩ := activate_eq_ok h
  exact Table.get?_set _ _ _ _

theorem metrics_activate {s : Snapshot} {run : ℕ} {isCancelled : Bool} {window : ℕ}
    (h : d.activate m s run isCancelled window = .ok d') : d'.metrics = d.metrics := by
  obtain ⟨b, p, -, -, -, rfl⟩ := activate_eq_ok h
  rfl

theorem phase_of_activate {s : Snapshot} {run : ℕ} {isCancelled : Bool} {window : ℕ}
    (h : d.activate m s run isCancelled window = .ok d') : d.phase m = .initializing := by
  obtain ⟨b, p, -, -, hp, -⟩ := activate_eq_ok h
  exact phase_of_slot hp

@[simp] theorem inCharge_retire (d : Desk) (m m' : MarketId) :
    (d.retire m).1.inCharge.get? m' = if m = m' then none else d.inCharge.get? m' :=
  Table.get?_erase _ _ _

/-! ### The order -/

/-- **A market in order**, at a desk with something under way. -/
structure InOrderAt (op : Operation) (m : MarketId) (d : Desk) : Prop where
  /-- When it is being added, it waits for its book. -/
  adding : op = .adding m → d.phase m = .initializing
  /-- It is removed only while it is being removed. -/
  removing : d.phase m = .removed ↔ ∃ j, op = .removing m j
  /-- Who is in charge of it works for it. -/
  inCharge : ∀ i, d.inCharge.get? m = some i → d.slot? m = some (.active i)
  /-- Who works for it is in charge of it, unless all were dismissed. -/
  charged : ∀ i, d.slot? m = some (.active i) →
    d.inCharge.get? m = some i ∨ ∃ ws, op = .dismissing ws
  dismissed : ∀ ws, op = .dismissing ws → d.inCharge.get? m = none
  /-- Whoever has not ended works for it, or is one of those that are waited for. -/
  working : ∀ i w, d.worker? i = some w → w.market = m → w.stage ≠ .ended →
    op = .removing m (some i) ∨
      d.slot? m = some (.active i) ∧ ∀ ws, op = .dismissing ws → i ∈ ws
  /-- It has a tally only when it is tracked. -/
  tallied : d.metrics.hasMarket m = true → d.phase m ≠ .unregistered

/-- **A desk in order**, with something under way. -/
structure InOrder (op : Operation) (d : Desk) : Prop where
  staffed : d.Staffed
  market : ∀ m, d.InOrderAt op m

/-- Whoever has not ended has a market that is tracked. -/
theorem InOrder.tracked (h : d.InOrder op) {w : Worker} (hw : d.worker? i = some w)
    (going : w.stage ≠ .ended) : d.phase w.market ≠ .unregistered := by
  rcases (h.market w.market).working i w hw rfl going with hop | ⟨hs, -⟩
  · rw [(h.market w.market).removing.mpr ⟨_, hop⟩]
    simp
  · rw [phase_of_slot hs]
    simp [Slot.phase]

/-! ### What leaves a market alone -/

/-- **Nothing that concerns the order of a market was done**: messages were moved, and perhaps
workers have ended. -/
structure Spares (m : MarketId) (d d' : Desk) : Prop where
  active : ∀ i, d'.slot? m = some (.active i) ↔ d.slot? m = some (.active i)
  phase : d'.phase m = d.phase m
  inCharge : d'.inCharge.get? m = d.inCharge.get? m
  working : ∀ i w', d'.worker? i = some w' → w'.market = m → w'.stage ≠ .ended →
    ∃ w, d.worker? i = some w ∧ w.market = m ∧ w.stage ≠ .ended
  tallied : d'.metrics.hasMarket m = true →
    d.metrics.hasMarket m = true ∨ d.phase m ≠ .unregistered

theorem InOrderAt.spared (h : d.InOrderAt op m) (hs : Spares m d d') : d'.InOrderAt op m where
  adding hop := hs.phase.trans (h.adding hop)
  removing := by rw [hs.phase, h.removing]
  inCharge i hi := (hs.active i).mpr (h.inCharge i (hs.inCharge ▸ hi))
  charged i hi := by
    rw [hs.inCharge]
    exact h.charged i ((hs.active i).mp hi)
  dismissed ws hop := hs.inCharge.trans (h.dismissed ws hop)
  working i w' hw' hm going := by
    obtain ⟨w, hw, hm', hstage⟩ := hs.working i w' hw' hm going
    rw [hs.active]
    exact h.working i w hw hm' hstage
  tallied hm := by
    rw [hs.phase]
    exact (hs.tallied hm).elim h.tallied id

/-- An act leaves a market alone if it does so with its slot, and if nobody is put in charge of
it. -/
theorem Does.spares {x : DeskAct} (h : d.Does x d') (ds : List Diff)
    (slot : d'.slot? m = (d.slot? m).map (.setAside ds)) (hx : x ≠ .activated m)
    (inCharge : d'.inCharge.get? m = d.inCharge.get? m)
    (tallied : d'.metrics.hasMarket m = true →
      d.metrics.hasMarket m = true ∨ d.phase m ≠ .unregistered) : Spares m d d' where
  active i := by
    rw [slot, Option.map_eq_some_iff]
    constructor
    · rintro ⟨s, hs, hactive⟩
      rw [hs, Slot.setAside_eq_active.mp hactive]
    · exact fun hs => ⟨_, hs, rfl⟩
  phase := by
    rw [phase_eq, phase_eq, slot]
    rcases d.slot? m with - | (p | i | -) <;> rfl
  inCharge := inCharge
  working i w' hw' hm going := by
    rcases h.worker?_before hw' with ⟨w, hw, hcontinues⟩ | ⟨m', rfl, rfl⟩
    · exact ⟨w, hw, hcontinues.market.symm.trans hm, fun hended => going (hcontinues.ended hended)⟩
    · -- the new worker is one of another market
      obtain ⟨-, w, -, hw, hmarket, -⟩ := h.activated
      obtain rfl := Option.some.inj (hw'.symm.trans hw)
      exact absurd (congrArg _ (hmarket.symm.trans hm)) hx
  tallied := tallied

/-- **Nothing that concerns the order was done.** -/
structure Quiet (d d' : Desk) : Prop where
  staffed : d.Staffed → d'.Staffed
  spares : ∀ m, Spares m d d'

theorem InOrder.quiet (h : d.InOrder op) (hq : d.Quiet d') : d'.InOrder op :=
  ⟨hq.staffed h.staffed, fun m => (h.market m).spared (hq.spares m)⟩

/-- Where only workers are changed. -/
theorem quiet_of_rested (h : d.Does .rested d') (inCharge : d'.inCharge = d.inCharge)
    (metrics : d'.metrics = d.metrics) : d.Quiet d' := by
  refine ⟨h.staffed, fun m => h.spares [] ?_ (by simp) ?_ fun hm => .inl (metrics ▸ hm)⟩
  · exact (h.slot? m).trans (Slot.map_setAside_nil _).symm
  · rw [inCharge]

theorem quiet_rest (d : Desk) : d.Quiet d := quiet_of_rested .rest rfl rfl

theorem quiet_cancel (d : Desk) (i : ℕ) : d.Quiet (d.cancel i) := by
  refine quiet_of_rested (.cancel i) ?_ ?_
  · unfold cancel
    split <;> rfl
  · unfold cancel
    split <;> rfl

theorem quiet_cancelRun (d : Desk) (r : ℕ) : d.Quiet (d.cancelRun r) :=
  quiet_of_rested (.cancelRun r) rfl rfl

theorem refresh_eq (d : Desk) (asked : List (MarketId × ℕ)) (prices : Table MarketId Decimal)
    (now : Instant) : ∃ staff, d.refresh asked prices now = { d with staff := staff } := by
  unfold refresh
  induction asked generalizing d with
  | nil => exact ⟨d.staff, rfl⟩
  | cons a asked ih =>
    rw [List.foldl_cons]
    dsimp only
    split
    next w hw =>
      obtain ⟨staff, h⟩ := ih (d.setWorker a.2 _)
      exact ⟨staff, h⟩
    next => exact ih d

theorem quiet_refresh (d : Desk) (asked : List (MarketId × ℕ)) (prices : Table MarketId Decimal)
    (now : Instant) : d.Quiet (d.refresh asked prices now) := by
  obtain ⟨staff, h⟩ := d.refresh_eq asked prices now
  refine quiet_of_rested (.refresh asked prices now) ?_ ?_
  · rw [h]
  · rw [h]

/-! ### Tallies -/

/-- A record makes a tally for the market that it names. -/
theorem hasMarket_record {market? : Option MarketId} {stream : EventStream} {outcome : Outcome}
    {latency : Option Float} {now : Instant} :
    (d.record market? stream outcome latency now).metrics.hasMarket m = true ↔
      market? = some m ∨ d.metrics.hasMarket m = true :=
  Metrics.hasMarket_record d.metrics

/-- A record that names no market. -/
theorem hasMarket_of_unnamed {stream : EventStream} {outcome : Outcome} {latency : Option Float}
    {now : Instant} (h : (d.record none stream outcome latency now).metrics.hasMarket m = true) :
    d.metrics.hasMarket m = true :=
  (hasMarket_record.mp h).resolve_left (Option.some_ne_none m).symm

/-- A record that names an active market. -/
theorem hasMarket_of_active (hs : d.slot? m' = some (.active i)) {d₁ : Desk} {stream : EventStream}
    {outcome : Outcome} {latency : Option Float} {now : Instant} (metrics : d₁.metrics = d.metrics)
    (h : (d₁.record (some m') stream outcome latency now).metrics.hasMarket m = true) :
    d.metrics.hasMarket m = true ∨ ∃ i, d.slot? m = some (.active i) := by
  rcases hasMarket_record.mp h with hm | hm
  · obtain rfl := Option.some.inj hm
    exact .inr ⟨i, hs⟩
  · exact .inl (metrics ▸ hm)

theorem hasMarket_deliver (hs : d.slot? m' = some (.active i)) {w : Worker} {x : BookMessage}
    {stream : EventStream} {now : Instant}
    (h : (d.deliver i w x m' stream now).1.metrics.hasMarket m = true) :
    d.metrics.hasMarket m = true ∨ ∃ i, d.slot? m = some (.active i) := by
  unfold deliver at h
  split at h
  · exact hasMarket_of_active hs rfl h
  · exact hasMarket_of_active hs rfl h

theorem hasMarket_routeDiff {e : Diff} {now : Instant}
    (h : (d.routeDiff e now).1.metrics.hasMarket m = true) :
    d.metrics.hasMarket m = true ∨ ∃ i, d.slot? m = some (.active i) := by
  unfold routeDiff at h
  split at h
  · exact .inl (hasMarket_of_unnamed h)
  · exact .inl (hasMarket_of_unnamed h)
  · have h := hasMarket_of_unnamed h
    split at h
    · exact .inl (hasMarket_of_unnamed h)
    · exact .inl h
  next hs =>
    split at h
    · exact .inl (hasMarket_of_unnamed h)
    · split at h
      · exact hasMarket_of_active hs rfl h
      · exact hasMarket_deliver hs h

theorem hasMarket_routeSnapshot {e : Snapshot} {now : Instant}
    (h : (d.routeSnapshot e now).1.metrics.hasMarket m = true) :
    d.metrics.hasMarket m = true ∨ ∃ i, d.slot? m = some (.active i) := by
  unfold routeSnapshot at h
  split at h
  next hs =>
    split at h
    · exact .inl (hasMarket_of_unnamed h)
    · exact hasMarket_deliver hs h
  · exact .inl (hasMarket_of_unnamed h)

theorem hasMarket_routeTrade {e : Trade} {now : Instant}
    (h : (d.routeTrade e now).1.metrics.hasMarket m = true) :
    d.metrics.hasMarket m = true ∨ ∃ i, d.slot? m = some (.active i) := by
  unfold routeTrade at h
  split at h
  next hs =>
    split at h
    · exact .inl (hasMarket_of_unnamed h)
    · exact hasMarket_of_active hs rfl h
  · exact .inl (hasMarket_of_unnamed h)

/-- **Events are counted for active markets only.** -/
theorem hasMarket_route {e : Event} {now : Instant}
    (h : (d.route e now).1.metrics.hasMarket m = true) :
    d.metrics.hasMarket m = true ∨ ∃ i, d.slot? m = some (.active i) := by
  cases e with
  | diff e => exact hasMarket_routeDiff h
  | snapshot e => exact hasMarket_routeSnapshot h
  | trade e => exact hasMarket_routeTrade h

/-- **Stale diffs are counted for markets of workers that go on.** -/
theorem hasMarket_work {backoff clock : ℕ} {now : Instant} {act : WorkerAct}
    (h : d.work i backoff clock now = some (d', act)) (hm : d'.metrics.hasMarket m = true) :
    d.metrics.hasMarket m = true ∨
      ∃ w, d.worker? i = some w ∧ w.stage ≠ .ended ∧ w.market = m := by
  have hworks := works_work h
  cases hworks with
  | @took w rest x ms stage worker running wanted next going =>
    obtain ⟨d'', w', hwork, -, -, -, hmetrics⟩ :=
      work_eq_took worker running wanted next backoff clock now
    obtain ⟨rfl, -⟩ := Prod.mk.inj (Option.some.inj (h.symm.trans hwork))
    rw [hmetrics] at hm
    split at hm
    · rcases (Metrics.hasMarket_record d.metrics).mp hm with hmarket | hm
      · exact .inr ⟨w, worker, by simp [running], Option.some.inj hmarket⟩
      · exact .inl hm
    · exact .inl hm
  | resumed => exact .inl hm
  | ended => exact .inl hm

theorem Routes.inCharge {e : Event} {outcome : RouteOutcome} (h : d.Routes e outcome d') :
    d'.inCharge = d.inCharge := by
  cases h <;> rfl

theorem Works.inCharge {act : WorkerAct} (h : d.Works i act d') : d'.inCharge = d.inCharge := by
  cases h <;> rfl

theorem quiet_route (d : Desk) (e : Event) (now : Instant) : d.Quiet (d.route e now).1 := by
  have h := Does.route (d := d) e now
  refine ⟨h.staffed, fun m => h.spares _ (h.slot? m) (by simp) ?_ fun hm => ?_⟩
  · rw [h.routes.inCharge]
  · refine (hasMarket_route hm).imp_right ?_
    rintro ⟨i, hs⟩
    rw [phase_of_slot hs]
    simp [Slot.phase]

theorem quiet_of_worked {act : WorkerAct} (h : d.Does (.worked i act) d')
    (tallied : ∀ m, d'.metrics.hasMarket m = true →
      d.metrics.hasMarket m = true ∨ d.phase m ≠ .unregistered) : d.Quiet d' := by
  refine ⟨h.staffed, fun m => h.spares [] ?_ (by simp) ?_ (tallied m)⟩
  · exact (h.slot? m).trans (Slot.map_setAside_nil _).symm
  · rw [h.works.inCharge]

/-- A worker does what it does next, with its market tracked. -/
theorem InOrder.quiet_work (h : d.InOrder op) {backoff clock : ℕ} {now : Instant} {act : WorkerAct}
    (hwork : d.work i backoff clock now = some (d', act)) : d.Quiet d' := by
  refine quiet_of_worked (.work hwork) fun m hm => ?_
  refine (hasMarket_work hwork hm).imp_right ?_
  rintro ⟨w, hw, going, rfl⟩
  exact h.tracked hw going

theorem quiet_workerQuits (h : d.workerQuits i = some d') : d.Quiet d' := by
  refine quiet_of_worked (.quit h) fun m hm => .inl ?_
  have hworks := works_workerQuits h
  cases hworks
  exact hm

end Desk

end LiveBook
