import LiveBook.Proofs.Desk.Turns
import LiveBook.Proofs.Metrics.Accounts

/-!
# What is recorded at a desk

Every way of an event and every stale diff of a worker leaves its records, and nothing else does
(`LiveBook.DeskAct.recorded`). A diff that takes the place of another is recorded twice, once for
each of the two, and so is one that goes into a queue and turns out to be stale in the end.

* `LiveBook.Desk.Does.keeps` – whatever holds of metrics, and is kept by what is recorded of an act
  and when markets are forgotten, holds after the act;
* `LiveBook.Desk.Does.untallied` – a market that waits for its first book has no tally;
* `LiveBook.Desk.Does.recorded_diffs`, `LiveBook.Desk.Does.recorded_once` – how often an event is
  recorded.
-/

namespace LiveBook

/-! ### What an act is counted as -/

namespace DeskAct

/-- An event of this stream is brought. -/
def brings (s : EventStream) : DeskAct → Bool
  | .routed e _ => e.stream = s
  | _ => false

/-- A diff takes the place of another one that was set aside. -/
def evicts : DeskAct → Bool
  | .routed _ (.buffered (some _)) => true
  | _ => false

/-- A worker drops a stale diff. -/
def drops : DeskAct → Bool
  | .worked _ (.took (.diff _) .stale) => true
  | _ => false

end DeskAct

/-- A diff is brought for a market that is in one of these phases. -/
def Desk.finds (d : Desk) (ps : List Phase) : DeskAct → Bool
  | .routed (.diff e) _ => d.phase e.market ∈ ps
  | _ => false

/-! ### Records -/

/-- **What is recorded of an act**, in order. -/
def DeskAct.recorded : DeskAct → List (EventStream × Outcome)
  | .routed e .delivered => [(e.stream, .processed)]
  | .routed e (.buffered none) => [(e.stream, .queued)]
  | .routed e (.buffered (some _)) => [(e.stream, .rejected), (e.stream, .queued)]
  | .routed e .stale | .routed e .rejected => [(e.stream, .rejected)]
  | .routed e .unknown => [(e.stream, .unknown)]
  | .worked _ (.took _ .stale) => [(.diff, .rejected)]
  | _ => []

/-- **So much was recorded**: fair records of these kinds. -/
inductive Metrics.Logs (ms : Metrics) : List (EventStream × Outcome) → Metrics → Prop where
  | nil : Logs ms [] ms
  | snoc {ks : List (EventStream × Outcome)} {ms' : Metrics} (before : Logs ms ks ms')
      {r : MessageRecord} (fair : r.IsFair) : Logs ms (ks ++ [(r.stream, r.outcome)]) (ms'.record r)

namespace Metrics

variable {ms ms' : Metrics} {ks : List (EventStream × Outcome)}

theorem Logs.eq_of_nil (h : ms.Logs [] ms') : ms' = ms := by
  generalize hks : ([] : List (EventStream × Outcome)) = ks at h
  cases h with
  | nil => rfl
  | snoc => simp at hks

theorem Logs.balanced (h : ms.Logs ks ms') (hms : ms.Balanced) : ms'.Balanced := by
  induction h with
  | nil => exact hms
  | snoc _ fair ih => exact ih.record fair

theorem Logs.isWhole (h : ms.Logs ks ms') (hms : ms.IsWhole) : ms'.IsWhole := by
  induction h with
  | nil => exact hms
  | snoc _ fair ih => exact ih.record fair

theorem Logs.counts {all : List (EventStream × Outcome)} (h : ms.Logs ks ms')
    (hms : ms.totals.Counts all) : ms'.totals.Counts (all ++ ks) := by
  induction h with
  | nil => rwa [List.append_nil]
  | snoc _ fair ih =>
    rw [← List.append_assoc]
    exact ih.add _

end Metrics

namespace Desk

variable {d d' : Desk} {x : DeskAct} {m : MarketId} {i : ℕ} {w : Worker} {op : Operation}

/-- An event that is not processed is recorded without the time that it took. -/
theorem logs_other (d : Desk) {market? : Option MarketId} (stream : EventStream)
    {outcome : Outcome} (now : Instant) (other : outcome ≠ .processed) :
    d.metrics.Logs [(stream, outcome)] (d.record market? stream outcome none now).metrics :=
  .snoc .nil (r := ⟨market?, stream, outcome, none, now⟩)
    ⟨iff_of_false nofun other, fun h => absurd h other⟩

/-- An event that is processed is recorded with its market and the time that it took. -/
theorem logs_processed (d : Desk) (m : MarketId) (stream : EventStream) (latency : Float)
    (now : Instant) : d.metrics.Logs [(stream, .processed)]
      (d.record (some m) stream .processed (some latency) now).metrics :=
  .snoc .nil (r := ⟨some m, stream, .processed, some latency, now⟩)
    ⟨iff_of_true rfl rfl, fun _ => ⟨m, rfl⟩⟩

theorem logs_deliver (d : Desk) (i : ℕ) (w : Worker) (y : BookMessage) {e : Event}
    (now : Instant) : d.metrics.Logs
      (DeskAct.routed e (d.deliver i w y e.market e.stream now).2).recorded
      (d.deliver i w y e.market e.stream now).1.metrics := by
  unfold deliver
  split
  · exact d.logs_other _ now nofun
  · exact (d.setWorker i _).logs_processed _ _ _ now

theorem logs_routeDiff (d : Desk) (e : Diff) (now : Instant) : d.metrics.Logs
    (DeskAct.routed (.diff e) (d.routeDiff e now).2).recorded (d.routeDiff e now).1.metrics := by
  unfold routeDiff
  split
  · exact d.logs_other .diff now nofun
  · exact d.logs_other .diff now nofun
  next p _ =>
    rcases p.push e with ⟨p', _ | evicted⟩
    · exact (d.setPending e.market _).logs_other .diff now nofun
    · let d' := d.setPending e.market p'
      have first : d.metrics.Logs [(.diff, .rejected)]
          (d'.record none .diff .rejected none now).metrics :=
        d'.logs_other .diff now nofun
      exact .snoc first (r := ⟨none, .diff, .queued, none, now⟩) ⟨by simp, nofun⟩
  next i _ =>
    split
    · exact d.logs_other .diff now nofun
    next w _ =>
      split
      · exact d.logs_other .diff now nofun
      · exact d.logs_deliver i w (.diff e) now

theorem logs_routeSnapshot (d : Desk) (e : Snapshot) (now : Instant) : d.metrics.Logs
    (DeskAct.routed (.snapshot e) (d.routeSnapshot e now).2).recorded
    (d.routeSnapshot e now).1.metrics := by
  unfold routeSnapshot
  split
  next i _ =>
    split
    · exact d.logs_other .snapshot now nofun
    next w _ => exact d.logs_deliver i w (.snapshot e) now
  · exact d.logs_other .snapshot now nofun

theorem logs_routeTrade (d : Desk) (e : Trade) (now : Instant) : d.metrics.Logs
    (DeskAct.routed (.trade e) (d.routeTrade e now).2).recorded
    (d.routeTrade e now).1.metrics := by
  unfold routeTrade
  split
  next i _ =>
    split
    · exact d.logs_other .trade now nofun
    next w _ => exact (d.setWorker i _).logs_processed _ .trade _ now
  · exact d.logs_other .trade now nofun

/-- **What is recorded of an event.** -/
theorem logs_route (d : Desk) (e : Event) (now : Instant) :
    d.metrics.Logs (DeskAct.routed e (d.route e now).2).recorded (d.route e now).1.metrics := by
  cases e with
  | diff e => exact d.logs_routeDiff e now
  | snapshot e => exact d.logs_routeSnapshot e now
  | trade e => exact d.logs_routeTrade e now

/-- **What is recorded of a worker.** -/
theorem logs_work {backoff clock : ℕ} {now : Instant} {act : WorkerAct}
    (h : d.work i backoff clock now = some (d', act)) :
    d.metrics.Logs (DeskAct.worked i act).recorded d'.metrics := by
  have hworks := works_work h
  cases hworks with
  | @took w rest x ms stage worker running wanted next going =>
    obtain ⟨d'', w', hwork, -, -, -, hmetrics⟩ :=
      work_eq_took worker running wanted next backoff clock now
    obtain ⟨rfl, hact⟩ := Prod.mk.inj (Option.some.inj (h.symm.trans hwork))
    rw [hact, hmetrics]
    cases hv : (w.keeper.process d.policy x).2 with
    | stale =>
      rw [if_pos rfl]
      exact .snoc .nil (r := ⟨some w.market, .diff, .rejected, none, now⟩) ⟨by simp, nofun⟩
    | _ => exact .nil
  | resumed => exact .nil
  | ended => exact .nil

theorem metrics_cancel (d : Desk) (i : ℕ) : (d.cancel i).metrics = d.metrics := by
  unfold Desk.cancel
  split <;> rfl

/-- **What holds of metrics after an act**: it holds after what is recorded of the act, if it is
kept when markets are forgotten, and does not depend on when counting began. -/
theorem Does.keeps {P : Metrics → Prop} (h : d.Does x d')
    (logged : ∀ ms, d.metrics.Logs x.recorded ms → P ms)
    (restarted : ∀ now, P d.metrics → P (d.metrics.markStarted now))
    (discarded : ∀ m, x = .discarded m → P d.metrics → P (d.metrics.removeMarket m))
    (cleared : x = .cleared → ∀ ms m, P ms → P (ms.removeMarket m)) : P d'.metrics := by
  have unlogged (hx : x.recorded = []) : P d.metrics := logged _ (hx ▸ .nil)
  have emptied (ms : List MarketId) (hx : x = .cleared) {start : Metrics} (hstart : P start) :
      P (ms.foldl (fun ms m => ms.removeMarket m) start) := by
    induction ms generalizing start with
    | nil => exact hstart
    | cons m ms ih => exact ih (cleared hx start m hstart)
  cases h with
  | rest => exact unlogged rfl
  | cancel i => exact (d.metrics_cancel i).symm ▸ unlogged rfl
  | cancelRun r => exact unlogged rfl
  | dismiss i => exact (d.dismiss.1.metrics_cancel i).symm ▸ unlogged rfl
  | refresh asked prices now =>
    obtain ⟨staff, heq⟩ := d.refresh_eq asked prices now
    rw [heq]
    exact unlogged rfl
  | start ms c now =>
    obtain ⟨slots, heq⟩ := registerAll_eq { d with metrics := d.metrics.markStarted now } ms c
    rw [heq]
    exact restarted now (unlogged rfl)
  | register c new => exact unlogged rfl
  | activate h =>
    obtain ⟨b, p, -, -, -, rfl⟩ := activate_eq_ok h
    exact unlogged rfl
  | retire active => exact unlogged rfl
  | @retireFrom m j active i => exact ((d.retire m).1.metrics_cancel i).symm ▸ unlogged rfl
  | discard m => exact discarded m rfl (unlogged rfl)
  | clear => exact emptied d.slots.keys rfl (unlogged rfl)
  | disband => exact emptied d.slots.keys rfl (unlogged rfl)
  | route e now => exact logged _ (d.logs_route e now)
  | work h => exact logged _ (logs_work h)
  | quit h =>
    have hworks := works_workerQuits h
    cases hworks with
    | ended worker going why => exact unlogged rfl

theorem Does.balanced (h : d.Does x d') (hd : d.metrics.Balanced) : d'.metrics.Balanced :=
  h.keeps (fun _ hlogs => hlogs.balanced hd) (fun _ h => ⟨h.totals, h.tallies, h.shares⟩)
    (fun m _ h => h.removeMarket m) fun _ _ m h => h.removeMarket m

theorem Does.counts {all : List (EventStream × Outcome)} (h : d.Does x d')
    (hd : d.metrics.totals.Counts all) : d'.metrics.totals.Counts (all ++ x.recorded) :=
  h.keeps (P := fun ms => ms.totals.Counts (all ++ x.recorded)) (fun _ hlogs => hlogs.counts hd)
    (fun _ h => h) (fun _ _ h => h) fun _ _ _ h => h

/-- **Nothing gets lost** unless a market with a tally is forgotten. -/
theorem Does.isWhole (h : d.Does x d') (hd : d.metrics.IsWhole) (cleared : x ≠ .cleared)
    (untallied : ∀ m, x = .discarded m → d.metrics.hasMarket m = false) : d'.metrics.IsWhole :=
  h.keeps (fun _ hlogs => hlogs.isWhole hd) (fun _ h => h)
    (fun m hx h => h.removeMarket (untallied m hx)) fun hx => absurd hx cleared

/-! ### Markets without a tally -/

/-- A market that waits for its first book has no tally. -/
def Untallied (d : Desk) : Prop :=
  ∀ m, d.metrics.hasMarket m = true → d.phase m ≠ .initializing

/-- **Whoever has a tally after an act** had it before, or is active, or somebody works for it. -/
theorem Does.hasMarket (h : d.Does x d') (hm : d'.metrics.hasMarket m = true) :
    d.metrics.hasMarket m = true ∨ (∃ i, d.slot? m = some (.active i)) ∨
      ∃ i w, d.worker? i = some w ∧ w.stage ≠ .ended ∧ w.market = m := by
  cases x with
  | routed e outcome =>
    cases h with
    | route e now => exact (hasMarket_route hm).imp_right .inl
  | worked i act =>
    cases h with
    | work h => exact (hasMarket_work h hm).imp_right fun hw => .inr ⟨i, hw⟩
    | quit h =>
      have hworks := works_workerQuits h
      cases hworks with
      | ended => exact .inl hm
  | _ =>
    have before : ∀ (ms : Metrics) (m' : MarketId), (ms.hasMarket m = true →
        d.metrics.hasMarket m = true) → (ms.removeMarket m').hasMarket m = true →
        d.metrics.hasMarket m = true :=
      fun ms m' hms hm => hms ((Metrics.hasMarket_removeMarket ms).mp hm).2
    refine .inl (h.keeps (P := fun ms => ms.hasMarket m = true → d.metrics.hasMarket m = true)
      (fun ms hlogs => ?_) (fun _ h => h) (fun m' _ => before _ m') (fun _ => before) hm)
    obtain rfl := hlogs.eq_of_nil
    exact id

/-- **A market that waits for its first book has no tally**, if only new markets are registered. -/
theorem Does.untallied (h : d.Does x d') (order : d.InOrder op) (hd : d.Untallied)
    (new : ∀ m c, x.Registers m c → d.slot? m = none) : d'.Untallied := by
  intro m hm waits
  obtain ⟨p, hp⟩ := phase_eq_initializing.mp waits
  rw [h.slot? m] at hp
  have htally := h.hasMarket hm
  by_cases hx : ∃ c, x.Registers m c
  · obtain ⟨c, hc⟩ := hx
    have hphase : d.phase m = .unregistered := phase_of_none (new m c hc)
    rcases htally with htally | ⟨i, active⟩ | ⟨i, w, hw, going, rfl⟩
    · exact (order.market m).tallied htally hphase
    · exact absurd ((new m c hc).symm.trans active) (by simp)
    · exact order.tracked hw going hphase
  · obtain ⟨q, hq, -⟩ := DeskAct.slotAfter_eq_initializing (not_exists.mp hx) hp
    have hphase : d.phase m = .initializing := phase_of_slot hq
    rcases htally with htally | ⟨i, active⟩ | ⟨i, w, hw, going, hmarket⟩
    · exact hd m htally hphase
    · exact absurd (hq.symm.trans active) (by simp)
    · exact going (order.ended_of_waiting hphase hw hmarket)

/-! ### How often an event is recorded -/

theorem phase_of_lookup {e : Diff} {s : Slot} (h : d.slot? e.market = some s)
    (outcome : RouteOutcome) (ps : List Phase) :
    d.finds ps (.routed (.diff e) outcome) = decide (s.phase ∈ ps) := by
  rw [finds, phase_of_slot h]

/-- **A diff is recorded once when it is brought**, once more when another takes its place, and
once more when a worker drops it. It is recorded as set aside if its market waits, and as unknown
if its market is not tracked or is being removed. -/
theorem Does.recorded_diffs (h : d.Does x d') :
    (x.recorded.countP fun k => k.1 = .diff) =
        (x.brings .diff).toNat + x.evicts.toNat + x.drops.toNat ∧
      x.recorded.count (.diff, .queued) = (d.finds [.initializing] x).toNat ∧
      x.recorded.count (.diff, .unknown) = (d.finds [.unregistered, .removed] x).toNat := by
  cases x with
  | routed e outcome =>
    have hroutes := h.routes
    cases hroutes with
    | @unknown e ms slot =>
      have hphase : d.phase e.market = .unregistered ∨ d.phase e.market = .removed :=
        slot.imp phase_of_none phase_of_slot
      refine ⟨rfl, ?_, ?_⟩
      · rcases hphase with hphase | hphase <;> simp [finds, hphase, DeskAct.recorded]
      · rcases hphase with hphase | hphase <;> simp [finds, hphase, DeskAct.recorded, Event.stream]
    | @buffered e p ms slot =>
      rw [phase_of_lookup slot, phase_of_lookup slot]
      cases (p.push e).2 <;> exact ⟨rfl, rfl, rfl⟩
    | stale ms slot =>
      rw [phase_of_lookup slot, phase_of_lookup slot]
      exact ⟨rfl, rfl, rfl⟩
    | @rejected e ms ended active =>
      cases e with
      | diff e =>
        obtain ⟨i, slot⟩ := active e rfl
        rw [phase_of_lookup slot, phase_of_lookup slot]
        exact ⟨rfl, rfl, rfl⟩
      | _ => exact ⟨rfl, rfl, rfl⟩
    | @delivered e y i w ms message slot =>
      cases e with
      | diff e =>
        rw [phase_of_lookup slot, phase_of_lookup slot]
        exact ⟨rfl, rfl, rfl⟩
      | _ => exact ⟨rfl, rfl, rfl⟩
    | traded => exact ⟨rfl, rfl, rfl⟩
  | worked i act =>
    have hworks := h.works
    cases hworks with
    | @took w rest y ms stage =>
      cases y with
      | diff e => cases (rest.keeper.process d.policy (.diff e)).2 <;> exact ⟨rfl, rfl, rfl⟩
      | snapshot e =>
        rcases rest.keeper.processSnapshot_cases d.policy e with ⟨-, fault, hk⟩ | ⟨-, hk⟩
        · rw [hk]
          exact ⟨rfl, rfl, rfl⟩
        · rw [hk]
          exact ⟨rfl, rfl, rfl⟩
    | _ => exact ⟨rfl, rfl, rfl⟩
  | _ => exact ⟨rfl, rfl, rfl⟩

/-- **A snapshot and a trade are recorded once**, as processed or as rejected, and nothing else is
recorded as one. -/
theorem Does.recorded_once (h : d.Does x d') {s : EventStream} (hs : s ≠ .diff) :
    if x.brings s then x.recorded = [(s, .processed)] ∨ x.recorded = [(s, .rejected)]
    else ∀ k ∈ x.recorded, k.1 ≠ s := by
  cases x with
  | routed e outcome =>
    have hroutes := h.routes
    cases hroutes with
    | unknown => simp [DeskAct.brings, DeskAct.recorded, Event.stream, hs.symm]
    | @buffered e p =>
      have hne : (Event.diff e).stream ≠ s := hs.symm
      rw [DeskAct.brings, decide_eq_false hne, if_neg (by simp)]
      cases (p.push e).2 <;> simp [DeskAct.recorded, hne]
    | stale => simp [DeskAct.brings, DeskAct.recorded, Event.stream, hs.symm]
    | @rejected e =>
      by_cases hstream : e.stream = s
      · simp [DeskAct.brings, DeskAct.recorded, hstream]
      · simp [DeskAct.brings, DeskAct.recorded, hstream]
    | @delivered e =>
      by_cases hstream : e.stream = s
      · simp [DeskAct.brings, DeskAct.recorded, hstream]
      · simp [DeskAct.brings, DeskAct.recorded, hstream]
    | @traded e =>
      by_cases hstream : (Event.trade e).stream = s
      · simp [DeskAct.brings, DeskAct.recorded, hstream]
      · simp [DeskAct.brings, DeskAct.recorded, hstream]
  | worked i act =>
    -- a worker tells of diffs only
    cases act with
    | took y verdict => cases verdict <;> simp [DeskAct.brings, DeskAct.recorded, hs.symm]
    | _ => simp [DeskAct.brings, DeskAct.recorded]
  | _ => simp [DeskAct.brings, DeskAct.recorded]

end Desk

end LiveBook
