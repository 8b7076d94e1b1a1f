import LiveBook.Proofs.Desk.Order
import LiveBook.Proofs.Metrics.Counters

/-!
# What leaves a market untouched

All markets share the desk: one table of slots, one staff, one set of metrics. Still, whatever is
done for one market is done to its own slot, its own workers and its own counts, and any other
market is left exactly as it was (`LiveBook.Desk.Untouched`).

That a worker found in the slot of a market, or in charge of it, is one of this market is all that
is needed of the desk before: `LiveBook.Desk.Staffed`, and `LiveBook.Desk.Charged`, which every act
keeps.
-/

namespace LiveBook

/-! ### Counts -/

/-- The counter for a market of a stream with an outcome, if messages are counted for scraping. -/
def Metrics.counter? (ms : Metrics) (m : MarketId) (s : EventStream) (o : Outcome) : Option ℕ :=
  ms.exposition.map fun e => e.messageCount (some m) s o

/-- **The counts of a market are untouched**: its tally, and its counters unless it shares them with
records of no market. -/
structure Metrics.Untouched (n : MarketId) (ms ms' : Metrics) : Prop where
  tally : ms'.market? n = ms.market? n
  counter : n ≠ Exposition.namesake → ∀ s o, ms'.counter? n s o = ms.counter? n s o

namespace Metrics.Untouched

variable {n : MarketId} {ms ms' ms'' : Metrics}

theorem refl (n : MarketId) (ms : Metrics) : Untouched n ms ms := ⟨rfl, fun _ _ _ => rfl⟩

theorem trans (h : Untouched n ms ms') (h' : Untouched n ms' ms'') : Untouched n ms ms'' where
  tally := h'.tally.trans h.tally
  counter hn s o := (h'.counter hn s o).trans (h.counter hn s o)

/-- Counters that show the same. -/
theorem counter_eq {f : Exposition → Exposition} {s : EventStream} {o : LiveBook.Outcome}
    (exposition : ms'.exposition = ms.exposition.map f)
    (same : ∀ e, (f e).messageCount (some n) s o = e.messageCount (some n) s o) :
    ms'.counter? n s o = ms.counter? n s o := by
  rw [counter?, exposition, Option.map_map]
  exact congrArg (fun g => ms.exposition.map g) (funext same)

/-- What is recorded for another market, or for none. -/
theorem record (n : MarketId) (ms : Metrics) {r : MessageRecord} (hr : r.market ≠ some n) :
    Untouched n ms (ms.record r) where
  tally := by rw [market?_record, if_neg hr]
  counter hn s o := by
    refine counter_eq rfl fun e => ?_
    have hlabels : Exposition.labels r.market r.stream r.outcome ≠
        Exposition.labels (some n) s o := by
      intro heq
      have hlabel := congrArg CounterLabels.market heq
      exact hr ((Exposition.marketLabel_eq_iff_of_ne hn).mp hlabel)
    rw [Exposition.messageCount_expose, if_neg hlabels, Nat.add_zero]

/-- Another market is forgotten. -/
theorem removeMarket (ms : Metrics) {m : MarketId} (hm : m ≠ n) :
    Untouched n ms (ms.removeMarket m) where
  tally := by
    unfold Metrics.removeMarket market?
    dsimp only
    rw [Table.get?_erase, if_neg hm]
  counter _ s o := by
    refine counter_eq rfl fun e => ?_
    rw [Exposition.messageCount_removeMarket, if_neg]
    rw [Exposition.marketLabel_eq_iff]
    rintro (heq | ⟨heq, -⟩)
    · exact hm (Option.some.inj heq).symm
    · cases heq

end Metrics.Untouched

namespace Desk

variable {d d' d'' : Desk} {x : DeskAct} {m n : MarketId} {i j : ℕ} {v v' w : Worker}

/-! ### Untouched markets -/

/-- **A market is untouched**: its slot is what it was, and so are all its workers, who is in
charge of it, and its counts. -/
structure Untouched (n : MarketId) (d d' : Desk) : Prop where
  slot : d'.slot? n = d.slot? n
  worker : ∀ i w, w.market = n → (d'.worker? i = some w ↔ d.worker? i = some w)
  inCharge : d'.inCharge.get? n = d.inCharge.get? n
  metrics : Metrics.Untouched n d.metrics d'.metrics

namespace Untouched

theorem refl (n : MarketId) (d : Desk) : Untouched n d d :=
  ⟨rfl, fun _ _ _ => Iff.rfl, rfl, .refl n d.metrics⟩

theorem trans (h : Untouched n d d') (h' : Untouched n d' d'') : Untouched n d d'' where
  slot := h'.slot.trans h.slot
  worker i w hw := (h'.worker i w hw).trans (h.worker i w hw)
  inCharge := h'.inCharge.trans h.inCharge
  metrics := h.metrics.trans h'.metrics

/-- Something is recorded for another market, or for none. -/
theorem record (d : Desk) {market? : Option MarketId} (stream : EventStream) (outcome : Outcome)
    (latency : Option Float) (now : Instant) (hm : market? ≠ some n) :
    Untouched n d (d.record market? stream outcome latency now) :=
  ⟨rfl, fun _ _ _ => Iff.rfl, rfl, .record n d.metrics hm⟩

theorem recorded (h : Untouched n d d') {market? : Option MarketId} {stream : EventStream}
    {outcome : Outcome} {latency : Option Float} {now : Instant} (hm : market? ≠ some n) :
    Untouched n d (d'.record market? stream outcome latency now) :=
  h.trans (.record d' stream outcome latency now hm)

/-- Diffs of another market are set aside. -/
theorem setPending (d : Desk) (hm : m ≠ n) (p : PendingDiffs) :
    Untouched n d (d.setPending m p) where
  slot := slot?_adjust_ne rfl hm
  worker _ _ _ := Iff.rfl
  inCharge := rfl
  metrics := .refl n d.metrics

/-- The worker of another market changes. -/
theorem setWorker (hv : d.worker? i = some v) (hm : v.market ≠ n)
    (market : v'.market = v.market) : Untouched n d (d.setWorker i v') where
  slot := rfl
  worker j w hw := by
    by_cases hij : i = j
    · subst hij
      rw [worker?_setWorker_self hv, hv]
      refine iff_of_false ?_ ?_
      · rintro h
        obtain rfl := Option.some.inj h
        exact hm (market.symm.trans hw)
      · rintro h
        obtain rfl := Option.some.inj h
        exact hm hw
    · rw [worker?_setWorker_ne hij]
  inCharge := rfl
  metrics := .refl n d.metrics

end Untouched

/-! ### Events -/

section Events

variable (d)

theorem untouched_deliver (hv : d.worker? i = some v) (hm : v.market ≠ n) (y : BookMessage)
    (hm' : m ≠ n) (stream : EventStream) (now : Instant) :
    Untouched n d (d.deliver i v y m stream now).1 := by
  have hnamed : some m ≠ some n := fun heq => hm' (Option.some.inj heq)
  unfold deliver
  split
  · exact .record d _ _ _ _ hnamed
  · exact .recorded (.setWorker hv hm (by rfl)) hnamed

variable (staffed : d.Staffed)

include staffed

/-- The worker in the slot of another market is not one of this market. -/
theorem Staffed.market_ne (hs : d.slot? m = some (.active i)) (hm : m ≠ n)
    (hv : d.worker? i = some v) : v.market ≠ n := by
  obtain ⟨w, hw, hmarket⟩ := staffed m i hs
  obtain rfl := Option.some.inj (hv.symm.trans hw)
  exact hmarket ▸ hm

theorem untouched_routeDiff (e : Diff) (hm : e.market ≠ n) (now : Instant) :
    Untouched n d (d.routeDiff e now).1 := by
  have hnamed : some e.market ≠ some n := fun heq => hm (Option.some.inj heq)
  unfold routeDiff
  split
  · exact .record d _ _ _ _ nofun
  · exact .record d _ _ _ _ nofun
  next p _ =>
    have hset := Untouched.setPending d hm (p.push e).1
    dsimp only
    split
    · exact (hset.recorded (by simp)).recorded (by simp)
    · exact hset.recorded (by simp)
  next i hs =>
    split
    · exact .record d _ _ _ _ nofun
    next v hv =>
      split
      · exact .record d _ _ _ _ hnamed
      · exact d.untouched_deliver hv (staffed.market_ne d hs hm hv) _ hm _ _

theorem untouched_routeSnapshot (e : Snapshot) (hm : e.market ≠ n) (now : Instant) :
    Untouched n d (d.routeSnapshot e now).1 := by
  unfold routeSnapshot
  split
  next i hs =>
    split
    · exact .record d _ _ _ _ nofun
    next v hv => exact d.untouched_deliver hv (staffed.market_ne d hs hm hv) _ hm _ _
  · exact .record d _ _ _ _ nofun

theorem untouched_routeTrade (e : Trade) (hm : e.market ≠ n) (now : Instant) :
    Untouched n d (d.routeTrade e now).1 := by
  have hnamed : some e.market ≠ some n := fun heq => hm (Option.some.inj heq)
  unfold routeTrade
  split
  next i hs =>
    split
    · exact .record d _ _ _ _ nofun
    next v hv =>
      exact .recorded (.setWorker hv (staffed.market_ne d hs hm hv) (by rfl)) hnamed
  · exact .record d _ _ _ _ nofun

/-- **Events of other markets** leave a market untouched. -/
theorem untouched_route (e : Event) (hm : e.market ≠ n) (now : Instant) :
    Untouched n d (d.route e now).1 := by
  cases e with
  | diff e => exact d.untouched_routeDiff staffed e hm now
  | snapshot e => exact d.untouched_routeSnapshot staffed e hm now
  | trade e => exact d.untouched_routeTrade staffed e hm now

end Events

/-! ### Workers -/

theorem untouched_takeNext {backoff clock : ℕ} {now : Instant} {act : WorkerAct}
    (hv : d.worker? i = some v) (hm : v.market ≠ n)
    (h : d.takeNext i v backoff clock now = some (d', act)) : Untouched n d d' := by
  unfold takeNext at h
  split at h
  next x rest next =>
    obtain ⟨pending, queue, rfl⟩ := Worker.take?_eq next
    have hnamed : some v.market ≠ some n := fun heq => hm (Option.some.inj heq)
    dsimp only at h
    split at h
    · obtain ⟨rfl, -⟩ := Prod.mk.inj (Option.some.inj h)
      exact .recorded (.setWorker hv hm (by rfl)) hnamed
    · obtain ⟨rfl, -⟩ := Prod.mk.inj (Option.some.inj h)
      exact .setWorker hv hm rfl
    · obtain ⟨rfl, -⟩ := Prod.mk.inj (Option.some.inj h)
      exact .setWorker hv hm rfl
  next =>
    split at h
    · cases h
    · obtain ⟨rfl, -⟩ := Prod.mk.inj (Option.some.inj h)
      exact .setWorker hv hm rfl

/-- **The workers of other markets** leave a market untouched. -/
theorem untouched_work {backoff clock : ℕ} {now : Instant} {act : WorkerAct}
    (hv : d.worker? i = some v) (hm : v.market ≠ n)
    (h : d.work i backoff clock now = some (d', act)) : Untouched n d d' := by
  unfold work at h
  rw [hv] at h
  dsimp only at h
  split at h
  · cases h
  · split at h
    · obtain ⟨rfl, -⟩ := Prod.mk.inj (Option.some.inj h)
      exact .setWorker hv hm rfl
    · cases h
  · split at h
    · obtain ⟨rfl, -⟩ := Prod.mk.inj (Option.some.inj h)
      exact .setWorker hv hm rfl
    · exact untouched_takeNext hv hm h

theorem untouched_workerQuits (hv : d.worker? i = some v) (hm : v.market ≠ n)
    (h : d.workerQuits i = some d') : Untouched n d d' := by
  have hworks := works_workerQuits h
  cases hworks with
  | ended worker =>
    obtain rfl := Option.some.inj (hv.symm.trans worker)
    exact .setWorker hv hm rfl

theorem untouched_cancel (d : Desk) (hm : ∀ v, d.worker? i = some v → v.market ≠ n) :
    Untouched n d (d.cancel i) := by
  unfold cancel
  split
  next v hv => exact .setWorker hv (hm v hv) rfl
  next => exact .refl n d

/-! ### Markets that come and go -/

theorem untouched_register (d : Desk) (hm : m ≠ n) (c : ℕ) : Untouched n d (d.register m c) where
  slot := (d.slot?_register m n c).trans (if_neg hm)
  worker _ _ _ := Iff.rfl
  inCharge := rfl
  metrics := .refl n d.metrics

theorem untouched_activate {s : Snapshot} {run : ℕ} {isCancelled : Bool} {window : ℕ}
    (h : d.activate m s run isCancelled window = .ok d') (hm : m ≠ n) : Untouched n d d' := by
  obtain ⟨b, p, -, -, -, rfl⟩ := activate_eq_ok h
  refine ⟨?_, fun j w hw => ?_, ?_, .refl n d.metrics⟩
  · exact slot?_adjust_ne rfl hm
  · rw [worker?, worker?, List.getElem?_append]
    split
    next => rfl
    next hj =>
      refine iff_of_false (fun hnew => ?_) fun h => hj (lt_length h)
      -- the new worker is one of the other market
      obtain rfl := List.mem_singleton.mp (List.mem_of_getElem? hnew)
      exact hm hw
  · exact (Table.get?_set _ _ _ _).trans (if_neg hm)

theorem untouched_discard (d : Desk) (hm : m ≠ n) : Untouched n d (d.discard m) where
  slot := (d.slot?_discard m n).trans (if_neg hm)
  worker _ _ _ := Iff.rfl
  inCharge := rfl
  metrics := .removeMarket d.metrics hm

theorem untouched_retire (d : Desk) (hm : m ≠ n) : Untouched n d (d.retire m).1 where
  slot := slot?_adjust_ne rfl hm
  worker _ _ _ := Iff.rfl
  inCharge := (Table.get?_erase _ _ _).trans (if_neg hm)
  metrics := .refl n d.metrics

/-! ### Who is in charge -/

/-- Whoever is in charge of a market is a worker of this market. -/
def Charged (d : Desk) : Prop :=
  ∀ m i, d.inCharge.get? m = some i → ∃ w, d.worker? i = some w ∧ w.market = m

/-- Nobody new is in charge. -/
theorem Charged.of_inCharge (hd : d.Charged) (h : d.Does x d')
    (inCharge : ∀ m i, d'.inCharge.get? m = some i → d.inCharge.get? m = some i) : d'.Charged := by
  intro m i hi
  obtain ⟨w, hw, hm⟩ := hd m i (inCharge m i hi)
  obtain ⟨w', hw', hcontinues⟩ := h.worker? hw
  exact ⟨w', hw', hcontinues.market.trans hm⟩

theorem Charged.alike (hd : d.Charged) (h : d.Does x d') (inCharge : d'.inCharge = d.inCharge) :
    d'.Charged :=
  hd.of_inCharge h fun _ _ hi => inCharge ▸ hi

theorem inCharge_cancel (d : Desk) (i : ℕ) : (d.cancel i).inCharge = d.inCharge := by
  unfold cancel
  split <;> rfl

/-- Who is in charge after a market was taken away from its worker, or after all were dismissed. -/
theorem inCharge_of_erase {t : Table MarketId ℕ} {m m' : MarketId}
    (h : (t.erase m).get? m' = some i) : t.get? m' = some i := by
  rw [Table.get?_erase] at h
  split at h
  · cases h
  · exact h

/-- **Every act keeps it so.** -/
theorem Does.charged (h : d.Does x d') (hd : d.Charged) : d'.Charged := by
  cases h with
  | rest => exact hd
  | cancel i => exact hd.alike (.cancel i) (d.inCharge_cancel i)
  | cancelRun r => exact hd.alike (.cancelRun r) rfl
  | dismiss i =>
    refine hd.of_inCharge (.dismiss i) fun m j hj => ?_
    rw [inCharge_cancel] at hj
    cases hj
  | refresh asked prices now =>
    obtain ⟨staff, heq⟩ := d.refresh_eq asked prices now
    exact hd.alike (.refresh asked prices now) (by rw [heq])
  | start ms c now =>
    obtain ⟨slots, heq⟩ := registerAll_eq { d with metrics := d.metrics.markStarted now } ms c
    rw [heq]
    exact hd
  | register c new => exact hd
  | @activate m s run isCancelled window d' h =>
    intro m' i hi
    obtain ⟨-, w, -, hw, hm, -⟩ := (Does.activate h).activated
    rw [inCharge_activate h] at hi
    split at hi
    next heq =>
      obtain rfl := Option.some.inj hi
      exact ⟨w, hw, hm.trans heq⟩
    next =>
      obtain ⟨w', hw', hm'⟩ := hd m' i hi
      obtain ⟨w'', hw'', hcontinues⟩ := (Does.activate h).worker? hw'
      exact ⟨w'', hw'', hcontinues.market.trans hm'⟩
  | retire active => exact hd.of_inCharge (.retire active) fun _ _ => inCharge_of_erase
  | retireFrom active i =>
    refine hd.of_inCharge (.retireFrom active i) fun m j hj => ?_
    rw [inCharge_cancel] at hj
    exact inCharge_of_erase hj
  | discard m => exact hd
  | clear => exact hd
  | disband =>
    intro m i hi
    cases hi
  | route e now => exact hd.alike (.route e now) (routes_route e now).inCharge
  | work h => exact hd.alike (.work h) (works_work h).inCharge
  | quit h => exact hd.alike (.quit h) (works_workerQuits h).inCharge

end Desk

end LiveBook
