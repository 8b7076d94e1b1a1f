import LiveBook.Proofs.Metrics.Accounts
import LiveBook.Proofs.Metrics.Counters
import LiveBook.Proofs.Metrics.Latency

/-!
# The store of the metrics and the records it was given

The metrics are a function of the calls so far. The totals are those of all records, and it does
not matter which market a record names or which markets were removed. The tally of a market is
the one that its records make since the market was last removed, and there is none if there are
no such records.

* `LiveBook.MetricsCall.records`, `LiveBook.MetricsCall.recordsOf` – the records among some
  calls, and those of a market;
* `LiveBook.Totals.latency_ofRecords` – the latencies in the totals are those of the records, stream
  by stream;
* `LiveBook.MarketTally.Reflects` – what the tally of some records shows;
* `LiveBook.Metrics.Stores` – what the metrics show after some calls.
-/

namespace LiveBook

/-! ### The records among some calls -/

namespace MetricsCall

/-- The record that a call makes, if any. -/
def record? : MetricsCall → Option MessageRecord
  | record r => some r
  | remove _ => none

/-- The records among some calls. -/
def records (calls : List MetricsCall) : List MessageRecord := calls.filterMap record?

/-- The records of a market among some calls. -/
def recordsOf (m : MarketId) (calls : List MetricsCall) : List MessageRecord :=
  (records calls).filter fun r => r.market = some m

theorem records_append (calls calls' : List MetricsCall) :
    records (calls ++ calls') = records calls ++ records calls' :=
  List.filterMap_append

theorem recordsOf_append (m : MarketId) (calls calls' : List MetricsCall) :
    recordsOf m (calls ++ calls') = recordsOf m calls ++ recordsOf m calls' := by
  rw [recordsOf, records_append, List.filter_append]
  rfl

theorem mem_recordsOf {m : MarketId} {calls : List MetricsCall} {r : MessageRecord} :
    r ∈ recordsOf m calls ↔ record r ∈ calls ∧ r.market = some m := by
  simp only [recordsOf, records, List.mem_filter, List.mem_filterMap, decide_eq_true_eq]
  refine and_congr_left fun _ => ⟨?_, fun h => ⟨_, h, rfl⟩⟩
  rintro ⟨c | m', hc, heq⟩
  · rwa [← Option.some.inj heq]
  · cases heq

end MetricsCall

open MetricsCall

theorem recordsOf_singleton (m : MarketId) (c : MetricsCall) :
    recordsOf m [c] =
      match c with
      | .record r => if r.market = some m then [r] else []
      | .remove _ => [] := by
  cases c with
  | record r => exact List.filter_singleton.trans (by simp)
  | remove m' => rfl

/-! ### What a record measures -/

namespace MessageRecord

/-- The stream of a record and its outcome. -/
def kind (r : MessageRecord) : EventStream × Outcome := (r.stream, r.outcome)

/-- What a record says apart from the market that it names and the time. -/
def reading (r : MessageRecord) : (EventStream × Outcome) × Option Float := (r.kind, r.latency)

/-- The latency that a record measures in a stream. -/
def latencyIn (s : EventStream) (r : MessageRecord) : Option Float :=
  if r.stream = s then r.latency else none

theorem get_measure (r : MessageRecord) (p : PerStream LatencyStats) (s : EventStream) :
    (r.measure p).get s = (p.get s).recordAll (r.latencyIn s).toList := by
  unfold measure latencyIn
  cases r.latency with
  | none => simp
  | some x =>
    dsimp only
    rw [PerStream.get_update]
    split
    next => rfl
    next => rfl

end MessageRecord

/-- The latencies of a stream among some records. -/
def latencies (s : EventStream) (rs : List MessageRecord) : List Float :=
  rs.flatMap fun r => (r.latencyIn s).toList

theorem latencies_concat (s : EventStream) (rs : List MessageRecord) (r : MessageRecord) :
    latencies s (rs ++ [r]) = latencies s rs ++ (r.latencyIn s).toList := by
  rw [latencies, List.flatMap_append, List.flatMap_singleton]
  rfl

theorem LatencyStats.recordAll_append (s : LatencyStats) (xs ys : List Float) :
    s.recordAll (xs ++ ys) = (s.recordAll xs).recordAll ys :=
  List.foldl_append

/-! ### The totals of some records -/

namespace Totals

/-- The totals of some records. -/
def ofRecords (config : MetricsConfig) (rs : List MessageRecord) : Totals :=
  rs.foldl add (.zero config.freshStats)

theorem ofRecords_concat (config : MetricsConfig) (rs : List MessageRecord) (r : MessageRecord) :
    ofRecords config (rs ++ [r]) = (ofRecords config rs).add r :=
  List.foldl_concat ..

theorem counts_ofRecords (config : MetricsConfig) (rs : List MessageRecord) :
    (ofRecords config rs).Counts (rs.map MessageRecord.kind) := by
  induction rs using List.reverseRecOn with
  | nil => constructor <;> rfl
  | append_singleton rs r ih =>
    rw [ofRecords_concat, List.map_append]
    exact ih.add r

/-- **The latencies in the totals** are those of the records, stream by stream. -/
theorem latency_ofRecords (config : MetricsConfig) (rs : List MessageRecord) (s : EventStream) :
    (ofRecords config rs).latency.get s = config.freshStats.recordAll (latencies s rs) := by
  induction rs using List.reverseRecOn with
  | nil => exact PerStream.get_const ..
  | append_singleton rs r ih =>
    rw [ofRecords_concat, latency_add, MessageRecord.get_measure, ih, latencies_concat,
      LatencyStats.recordAll_append]

/-- The totals do not depend on the market of a record, nor on the time. -/
theorem add_congr (t : Totals) {r r' : MessageRecord} (h : r.reading = r'.reading) :
    t.add r = t.add r' := by
  obtain ⟨m, s, o, latency, time⟩ := r
  obtain ⟨m', s', o', latency', time'⟩ := r'
  simp only [MessageRecord.reading, MessageRecord.kind, Prod.mk.injEq] at h
  obtain ⟨⟨rfl, rfl⟩, rfl⟩ := h
  rfl

theorem ofRecords_congr (config : MetricsConfig) {rs rs' : List MessageRecord}
    (h : rs.map MessageRecord.reading = rs'.map MessageRecord.reading) :
    ofRecords config rs = ofRecords config rs' := by
  unfold ofRecords
  generalize zero config.freshStats = t
  induction rs generalizing rs' t with
  | nil =>
    obtain rfl := List.map_eq_nil_iff.mp h.symm
    rfl
  | cons r rs ih =>
    obtain ⟨r', rs', rfl, hr, hrs⟩ := List.map_eq_cons_iff.mp h.symm
    rw [List.foldl_cons, List.foldl_cons, add_congr t hr.symm, ih hrs.symm]

/-- **No total is less** than it was. -/
structure Grows (t t' : Totals) : Prop where
  diffsProcessed : t.diffsProcessed ≤ t'.diffsProcessed
  diffsRejected : t.diffsRejected ≤ t'.diffsRejected
  diffsQueued : t.diffsQueued ≤ t'.diffsQueued
  diffsUnknown : t.diffsUnknown ≤ t'.diffsUnknown
  snapshotsProcessed : t.snapshotsProcessed ≤ t'.snapshotsProcessed
  snapshotsRejected : t.snapshotsRejected ≤ t'.snapshotsRejected
  tradesProcessed : t.tradesProcessed ≤ t'.tradesProcessed
  tradesRejected : t.tradesRejected ≤ t'.tradesRejected
  latency : ∀ s, (t.latency.get s).count ≤ (t'.latency.get s).count

theorem Grows.refl (t : Totals) : t.Grows t := by
  constructor <;> intros <;> exact le_rfl

theorem Grows.trans {t t' t'' : Totals} (h : t.Grows t') (h' : t'.Grows t'') : t.Grows t'' where
  diffsProcessed := h.diffsProcessed.trans h'.diffsProcessed
  diffsRejected := h.diffsRejected.trans h'.diffsRejected
  diffsQueued := h.diffsQueued.trans h'.diffsQueued
  diffsUnknown := h.diffsUnknown.trans h'.diffsUnknown
  snapshotsProcessed := h.snapshotsProcessed.trans h'.snapshotsProcessed
  snapshotsRejected := h.snapshotsRejected.trans h'.snapshotsRejected
  tradesProcessed := h.tradesProcessed.trans h'.tradesProcessed
  tradesRejected := h.tradesRejected.trans h'.tradesRejected
  latency s := (h.latency s).trans (h'.latency s)

theorem grows_add (t : Totals) (r : MessageRecord) : t.Grows (t.add r) := by
  have hlatency (s : EventStream) : (t.latency.get s).count ≤ ((t.add r).latency.get s).count := by
    rw [latency_add, MessageRecord.get_measure]
    cases r.latencyIn s with
    | none => exact le_rfl
    | some x => exact (Nat.le_succ _).trans (LatencyStats.count_record ..).ge
  obtain ⟨m, s, o, latency, time⟩ := r
  cases s <;> cases o <;> constructor <;> first | exact hlatency | simp [add, count]

/-- **Records only add to the totals.** -/
theorem grows_foldl (t : Totals) (rs : List MessageRecord) : t.Grows (rs.foldl add t) := by
  induction rs generalizing t with
  | nil => exact Grows.refl t
  | cons r rs ih => exact (grows_add t r).trans (ih (t.add r))

end Totals

/-! ### The tally of some records -/

namespace MarketTally

/-- The tally of the records of a market: it begins with the first of them, and there is none
without any. -/
def ofRecords (config : MetricsConfig) (rs : List MessageRecord) : Option MarketTally :=
  rs.head?.map fun r => rs.foldl add (.zero config.freshStats r.time)

theorem isSome_ofRecords (config : MetricsConfig) (rs : List MessageRecord) :
    (ofRecords config rs).isSome = true ↔ rs ≠ [] := by
  rw [ofRecords, Option.isSome_map, List.isSome_head?]

theorem ofRecords_concat (config : MetricsConfig) (rs : List MessageRecord) (r : MessageRecord) :
    ofRecords config (rs ++ [r]) =
      some (((ofRecords config rs).getD (.zero config.freshStats r.time)).add r) := by
  cases rs with
  | nil => rfl
  | cons r' rs =>
    simp only [ofRecords, List.cons_append, List.head?_cons, Option.map_some, Option.getD_some,
      List.foldl_cons, List.foldl_append, List.foldl_nil]

/-- **What the tally of some records shows**: how many there are of the kinds that are counted,
when a message of each stream was last processed, and the latencies. -/
structure Reflects (config : MetricsConfig) (rs : List MessageRecord) (t : MarketTally) :
    Prop where
  diffsProcessed : t.diffsProcessed = (rs.map MessageRecord.kind).count (.diff, .processed)
  diffsRejected : t.diffsRejected = (rs.map MessageRecord.kind).count (.diff, .rejected)
  snapshotsProcessed :
    t.snapshotsProcessed = (rs.map MessageRecord.kind).count (.snapshot, .processed)
  tradesProcessed : t.tradesProcessed = (rs.map MessageRecord.kind).count (.trade, .processed)
  tradesRejected : t.tradesRejected = (rs.map MessageRecord.kind).count (.trade, .rejected)
  lastSeen : ∀ s, t.lastSeen.get s =
    ((rs.filter fun r => r.kind = (s, .processed)).getLast?).map MessageRecord.time
  latency : ∀ s, t.latency.get s = config.freshStats.recordAll (latencies s rs)

theorem lastSeen_add (t : MarketTally) (r : MessageRecord) (s : EventStream) :
    (t.add r).lastSeen.get s =
      if r.kind = (s, .processed) then some r.time else t.lastSeen.get s := by
  obtain ⟨m, s', o, latency, time⟩ := r
  cases s' <;> cases o <;> cases s <;> rfl

theorem reflects_zero (config : MetricsConfig) (since : Instant) :
    Reflects config [] (.zero config.freshStats since) := by
  constructor
  case lastSeen | latency => exact fun s => PerStream.get_const ..
  all_goals rfl

/-- **One more record** shows in the tally. -/
theorem Reflects.add {config : MetricsConfig} {rs : List MessageRecord} {t : MarketTally}
    (h : Reflects config rs t) (r : MessageRecord) : Reflects config (rs ++ [r]) (t.add r) := by
  have hseen (s : EventStream) : (t.add r).lastSeen.get s =
      (((rs ++ [r]).filter fun r => r.kind = (s, .processed)).getLast?).map
        MessageRecord.time := by
    rw [lastSeen_add, List.filter_append, h.lastSeen]
    by_cases hr : r.kind = (s, .processed)
    · simp [hr]
    · simp [hr]
  have hlatency (s : EventStream) : (t.add r).latency.get s =
      config.freshStats.recordAll (latencies s (rs ++ [r])) := by
    rw [latency_add, MessageRecord.get_measure, h.latency, latencies_concat,
      LatencyStats.recordAll_append]
  obtain ⟨h₁, h₂, h₃, h₄, h₅, -, -⟩ := h
  obtain ⟨m, s, o, latency, time⟩ := r
  cases s <;> cases o <;> constructor <;>
    first
    | exact hseen
    | exact hlatency
    | simp [MarketTally.add, count, MessageRecord.kind, List.count_append, *]

theorem reflects_ofRecords {config : MetricsConfig} {rs : List MessageRecord} {t : MarketTally}
    (h : ofRecords config rs = some t) : Reflects config rs t := by
  obtain ⟨r, -, rfl⟩ := Option.map_eq_some_iff.mp h
  clear h
  induction rs using List.reverseRecOn with
  | nil => exact reflects_zero config r.time
  | append_singleton rs r' ih =>
    rw [List.foldl_concat]
    exact ih.add r'

end MarketTally

/-! ### The store -/

namespace Metrics

theorem market?_removeMarket (ms : Metrics) (m m' : MarketId) :
    (ms.removeMarket m').market? m = if m' = m then none else ms.market? m :=
  Table.get?_erase ..

theorem applyAll_concat (ms : Metrics) (calls : List MetricsCall) (c : MetricsCall) :
    ms.applyAll (calls ++ [c]) = (ms.applyAll calls).apply c :=
  List.foldl_concat ..

theorem applyAll_append (ms : Metrics) (calls calls' : List MetricsCall) :
    ms.applyAll (calls ++ calls') = (ms.applyAll calls).applyAll calls' :=
  List.foldl_append

theorem config_applyAll (ms : Metrics) (calls : List MetricsCall) :
    (ms.applyAll calls).config = ms.config := by
  induction calls using List.reverseRecOn with
  | nil => rfl
  | append_singleton calls c ih =>
    rw [applyAll_concat, ← ih]
    cases c <;> rfl

/-- **The totals take every record,** and nothing else. -/
theorem totals_applyAll (ms : Metrics) (calls : List MetricsCall) :
    (ms.applyAll calls).totals = (records calls).foldl Totals.add ms.totals := by
  induction calls using List.reverseRecOn with
  | nil => rfl
  | append_singleton calls c ih =>
    rw [applyAll_concat, records_append, List.foldl_append, ← ih]
    cases c <;> rfl

variable (config : MetricsConfig) (now : Instant) (calls : List MetricsCall)

/-- **The tally of a market** is that of its records since it was last removed. -/
theorem market?_applyAll (m : MarketId) :
    ((ofConfig config now).applyAll calls).market? m =
      MarketTally.ofRecords config (recordsOf m (since m calls)) := by
  induction calls using List.reverseRecOn with
  | nil => rfl
  | append_singleton calls c ih =>
    rw [applyAll_concat, since_concat]
    cases c with
    | record r =>
      have hconfig : ((ofConfig config now).applyAll calls).config = config := config_applyAll ..
      rw [if_neg not_removes_record, recordsOf_append, recordsOf_singleton]
      refine (market?_record _ r m).trans ?_
      rw [ih, hconfig]
      dsimp only
      split
      next => rw [MarketTally.ofRecords_concat]
      next => rw [List.append_nil]
    | remove m' =>
      refine (market?_removeMarket _ m m').trans ?_
      rw [ih]
      by_cases h : m' = m
      · rw [if_pos h, if_pos (removes_remove.mpr h)]
        rfl
      · rw [if_neg h, if_neg (fun hr => h (removes_remove.mp hr)), recordsOf_append,
          recordsOf_singleton, List.append_nil]

/-- **What the metrics show after some calls.** -/
structure Stores (config : MetricsConfig) (calls : List MetricsCall) (ms : Metrics) : Prop where
  /-- The totals count every record by its kind. -/
  counts : ms.totals.Counts ((records calls).map MessageRecord.kind)
  /-- The totals measure the latencies of every record. -/
  latency : ∀ s, ms.totals.latency.get s =
    config.freshStats.recordAll (latencies s (records calls))
  /-- A market has a tally if it has records since it was last removed. -/
  known : ∀ m, ms.hasMarket m = true ↔ ∃ r, .record r ∈ since m calls ∧ r.market = some m
  /-- The tally is that of these records alone. -/
  tally : ∀ m, ms.market? m = MarketTally.ofRecords config (recordsOf m (since m calls))
  /-- It counts them, with the times and the latencies. -/
  reflects : ∀ m t, ms.market? m = some t →
    MarketTally.Reflects config (recordsOf m (since m calls)) t
  /-- The removal of a market tells whether it had a tally. -/
  removed : ∀ m, (ms.remove m).2 = true ↔ ∃ t, ms.market? m = some t
  /-- It leaves that market without, and everything else as it is. -/
  gone : ∀ m m', (ms.remove m).1.market? m' = if m = m' then none else ms.market? m'
  kept : ∀ m, (ms.remove m).1.totals = ms.totals

theorem stores_applyAll : Stores config calls ((ofConfig config now).applyAll calls) where
  counts := by
    rw [totals_applyAll]
    exact Totals.counts_ofRecords config (records calls)
  latency s := by
    rw [totals_applyAll]
    exact Totals.latency_ofRecords config (records calls) s
  known m := by
    rw [hasMarket_eq_isSome, market?_applyAll, MarketTally.isSome_ofRecords]
    constructor
    · intro h
      obtain ⟨r, hr⟩ := List.exists_mem_of_ne_nil _ h
      exact ⟨r, mem_recordsOf.mp hr⟩
    · rintro ⟨r, hr⟩
      exact List.ne_nil_of_mem (mem_recordsOf.mpr hr)
  tally := market?_applyAll config now calls
  reflects m t h := by
    rw [market?_applyAll] at h
    exact MarketTally.reflects_ofRecords h
  removed _ := Option.isSome_iff_exists
  gone m m' := market?_removeMarket _ m' m
  kept _ := rfl

/-- **The metrics are those of the records.** The totals depend on what the records say, in their
order, not on the markets that they name, nor on removals or on the time, and they never become
less. -/
theorem applyAll_ofConfig :
    Stores config calls ((ofConfig config now).applyAll calls) ∧
      (∀ now' calls', (records calls').map MessageRecord.reading =
          (records calls).map MessageRecord.reading →
        ((ofConfig config now').applyAll calls').totals =
          ((ofConfig config now).applyAll calls).totals) ∧
      ∀ calls', ((ofConfig config now).applyAll calls).totals.Grows
        ((ofConfig config now).applyAll (calls ++ calls')).totals := by
  refine ⟨stores_applyAll config now calls, fun now' calls' h => ?_, fun calls' => ?_⟩
  · rw [totals_applyAll, totals_applyAll]
    exact Totals.ofRecords_congr config h
  · rw [applyAll_append, totals_applyAll _ calls']
    exact Totals.grows_foldl _ (records calls')

end Metrics

end LiveBook
