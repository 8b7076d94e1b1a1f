import Mathlib.Algebra.GroupWithZero.Nat
import Mathlib.Algebra.Order.BigOperators.Group.List
import Mathlib.Algebra.Order.Group.Nat
import LiveBook.Proofs.Metrics.Records

/-!
# The books of the metrics

What the metrics count is determined by the records, and the counts agree with each other: the
latency of a message is measured exactly if it was processed, and whatever is counted as processed
for a market is counted in the totals as well.

* `LiveBook.Totals.Counts` – the totals are the numbers of records of each kind;
* `LiveBook.Metrics.Balanced` – the counts of latencies are those of processed messages, in the
  totals and in every tally, and all tallies together never have more than the totals;
* `LiveBook.Metrics.IsWhole` – they have as many, which is so until a tally is forgotten.
-/

namespace LiveBook

/-! ### Processed and rejected messages of a stream -/

/-- How many messages of a stream were processed. -/
def Totals.processed (t : Totals) : EventStream → ℕ
  | .diff => t.diffsProcessed
  | .snapshot => t.snapshotsProcessed
  | .trade => t.tradesProcessed

/-- How many messages of a stream were rejected. -/
def Totals.rejected (t : Totals) : EventStream → ℕ
  | .diff => t.diffsRejected
  | .snapshot => t.snapshotsRejected
  | .trade => t.tradesRejected

/-- How many messages of a stream were processed for a market. -/
def MarketTally.processed (t : MarketTally) : EventStream → ℕ
  | .diff => t.diffsProcessed
  | .snapshot => t.snapshotsProcessed
  | .trade => t.tradesProcessed

/-- Whether a record says that a message of this stream was processed, as a number. -/
def MessageRecord.share (r : MessageRecord) (s : EventStream) : ℕ :=
  if r.stream = s ∧ r.outcome = .processed then 1 else 0

/-- **A record as it is made**: a latency stands in it exactly if the message was processed, and
then for a market. -/
structure MessageRecord.IsFair (r : MessageRecord) : Prop where
  measured : r.latency.isSome ↔ r.outcome = .processed
  named : r.outcome = .processed → ∃ m, r.market = some m

variable {r : MessageRecord} {s : EventStream}

theorem Totals.processed_add (t : Totals) (r : MessageRecord) (s : EventStream) :
    (t.add r).processed s = t.processed s + r.share s := by
  obtain ⟨m, s', o, latency, time⟩ := r
  cases s' <;> cases o <;> cases s <;> rfl

theorem MarketTally.processed_add (t : MarketTally) (r : MessageRecord) (s : EventStream) :
    (t.add r).processed s = t.processed s + r.share s := by
  obtain ⟨m, s', o, latency, time⟩ := r
  cases s' <;> cases o <;> cases s <;> rfl

theorem MessageRecord.IsFair.count_measure (h : r.IsFair) (p : PerStream LatencyStats)
    (s : EventStream) : ((r.measure p).get s).count = (p.get s).count + r.share s := by
  unfold MessageRecord.measure MessageRecord.share
  split
  next x hx =>
    have hprocessed : r.outcome = .processed := h.measured.mp (by simp [hx])
    rw [PerStream.get_update]
    by_cases hs : r.stream = s
    · simp [hs, hprocessed]
    · simp [hs]
  next hx =>
    have hnot : r.outcome ≠ .processed := fun ho => by simpa [hx] using h.measured.mpr ho
    simp [hnot]

/-- In the totals, as many latencies as processed messages are counted. -/
def Totals.IsMeasured (t : Totals) : Prop := ∀ s, (t.latency.get s).count = t.processed s

/-- In a tally, as many latencies as processed messages are counted. -/
def MarketTally.IsMeasured (t : MarketTally) : Prop := ∀ s, (t.latency.get s).count = t.processed s

theorem Totals.latency_add (t : Totals) (r : MessageRecord) :
    (t.add r).latency = r.measure t.latency := by
  have hlatency : (t.count r.stream r.outcome).latency = t.latency := by
    unfold Totals.count
    split <;> rfl
  exact congrArg r.measure hlatency

theorem MarketTally.latency_add (t : MarketTally) (r : MessageRecord) :
    (t.add r).latency = r.measure t.latency := by
  have hlatency : (t.count r.stream r.outcome).latency = t.latency := by
    unfold MarketTally.count
    split <;> rfl
  exact congrArg r.measure hlatency

theorem Totals.IsMeasured.add {t : Totals} (h : t.IsMeasured) (hr : r.IsFair) :
    (t.add r).IsMeasured := by
  intro s
  rw [latency_add, hr.count_measure, h s, processed_add]

theorem MarketTally.IsMeasured.add {t : MarketTally} (h : t.IsMeasured) (hr : r.IsFair) :
    (t.add r).IsMeasured := by
  intro s
  rw [latency_add, hr.count_measure, h s, processed_add]

theorem MarketTally.isMeasured_zero (config : MetricsConfig) (now : Instant) :
    (MarketTally.zero config.freshStats now).IsMeasured := by
  intro s
  cases s <;> rfl

/-! ### The totals -/

/-- **The totals are the numbers of records of each kind.** -/
structure Totals.Counts (t : Totals) (ks : List (EventStream × Outcome)) : Prop where
  diffsProcessed : t.diffsProcessed = ks.count (.diff, .processed)
  diffsRejected : t.diffsRejected = ks.count (.diff, .rejected)
  diffsQueued : t.diffsQueued = ks.count (.diff, .queued)
  diffsUnknown : t.diffsUnknown = ks.count (.diff, .unknown)
  snapshotsProcessed : t.snapshotsProcessed = ks.count (.snapshot, .processed)
  snapshotsRejected : t.snapshotsRejected + ks.count (.snapshot, .processed) =
    ks.countP fun k => k.1 = .snapshot
  tradesProcessed : t.tradesProcessed = ks.count (.trade, .processed)
  tradesRejected : t.tradesRejected + ks.count (.trade, .processed) =
    ks.countP fun k => k.1 = .trade

theorem Totals.Counts.add {t : Totals} {ks : List (EventStream × Outcome)} (h : t.Counts ks)
    (r : MessageRecord) : (t.add r).Counts (ks ++ [(r.stream, r.outcome)]) := by
  obtain ⟨h₁, h₂, h₃, h₄, h₅, h₆, h₇, h₈⟩ := h
  obtain ⟨m, s, o, latency, time⟩ := r
  cases s <;> cases o <;> constructor <;>
    simp [Totals.add, Totals.count, List.count_append, List.countP_append] <;>
    omega

namespace Totals.Counts

variable {t t' : Totals} {ks : List (EventStream × Outcome)}

theorem processed (h : t.Counts ks) (s : EventStream) :
    t.processed s = ks.count (s, .processed) := by
  cases s with
  | diff => exact h.diffsProcessed
  | snapshot => exact h.snapshotsProcessed
  | trade => exact h.tradesProcessed

/-- Every record of a diff is in one of four totals. -/
theorem diffs (h : t.Counts ks) :
    t.diffsProcessed + t.diffsQueued + t.diffsUnknown + t.diffsRejected =
      ks.countP fun k => k.1 = .diff := by
  rw [h.diffsProcessed, h.diffsQueued, h.diffsUnknown, h.diffsRejected]
  clear h
  induction ks with
  | nil => rfl
  | cons k ks ih =>
    obtain ⟨s, o⟩ := k
    cases s <;> cases o <;> simp <;> omega

/-- Every record of a snapshot or a trade is in one of two totals. -/
theorem others (h : t.Counts ks) (hs : s ≠ .diff) :
    t.processed s + t.rejected s = ks.countP fun k => k.1 = s := by
  rw [h.processed]
  cases s with
  | diff => exact absurd rfl hs
  | snapshot => exact (Nat.add_comm _ _).trans h.snapshotsRejected
  | trade => exact (Nat.add_comm _ _).trans h.tradesRejected

/-- One more record of a snapshot or a trade is in one more of two totals. -/
theorem next {o : Outcome} (h : t.Counts ks) (h' : t'.Counts (ks ++ [(s, o)])) (hs : s ≠ .diff) :
    if o = .processed then t'.processed s = t.processed s + 1 ∧ t'.rejected s = t.rejected s
    else t'.processed s = t.processed s ∧ t'.rejected s = t.rejected s + 1 := by
  have hp := h.processed s
  have hp' := h'.processed s
  have ho := h.others hs
  have ho' := h'.others hs
  simp only [List.count_append, List.countP_append, List.countP_singleton, decide_true,
    if_true] at hp' ho'
  split
  next hprocessed =>
    rw [hprocessed, List.count_singleton_self] at hp'
    omega
  next hnot =>
    rw [List.count_singleton, if_neg (by simpa using hnot)] at hp'
    omega

end Totals.Counts

/-! ### Sums over the tallies -/

/-- How many messages of a stream were processed for the markets with a tally. -/
def Metrics.shares (ms : Metrics) (s : EventStream) : ℕ :=
  (ms.markets.entries.map fun e => e.2.processed s).sum

/-- **Setting a value** changes a sum over the entries by the new value less the old one. -/
theorem Table.sum_put {κ α : Type} [DecidableEq κ] (f : α → ℕ) (k : κ) (a : α)
    (es : List (κ × α)) :
    ((put k a es).map fun e => f e.2).sum + ((find k es).map f).getD 0 =
      (es.map fun e => f e.2).sum + f a := by
  induction es with
  | nil => simp [put, find]
  | cons e es ih =>
    obtain ⟨x, b⟩ := e
    by_cases hx : x = k
    · simp only [put, find, hx, if_true, List.map_cons, List.sum_cons, Option.map_some,
        Option.getD_some]
      omega
    · simp only [put, find, hx, if_false, List.map_cons, List.sum_cons]
      omega

/-- A key without a value is not among the entries. -/
theorem Table.ne_of_get?_eq_none {κ α : Type} [DecidableEq κ] {t : Table κ α} {k : κ}
    (h : t.get? k = none) : ∀ e ∈ t.entries, e.1 ≠ k := by
  obtain ⟨es⟩ := t
  change find k es = none at h
  induction es with
  | nil => simp
  | cons e es ih =>
    obtain ⟨x, b⟩ := e
    unfold find at h
    split at h
    next => cases h
    next hx =>
      intro e he
      rcases List.mem_cons.mp he with rfl | he
      · exact hx
      · exact ih h e he

namespace Metrics

variable {ms : Metrics} {m : MarketId}

theorem processed_zero (stats : LatencyStats) (now : Instant) (s : EventStream) :
    (MarketTally.zero stats now).processed s = 0 := by
  cases s <;> rfl

/-- A record for a market adds to the sums over the tallies what it adds to the totals. -/
theorem shares_record (hm : r.market = some m) (s : EventStream) :
    (ms.record r).shares s = ms.shares s + r.share s := by
  have hput := Table.sum_put (fun t : MarketTally => t.processed s) m
    (((ms.markets.get? m).getD (.zero ms.config.freshStats r.time)).add r) ms.markets.entries
  have hentries : (ms.record r).markets.entries = Table.put m
      (((ms.markets.get? m).getD (.zero ms.config.freshStats r.time)).add r)
      ms.markets.entries := by
    simp only [record, addToMarket, hm]
    rfl
  rw [MarketTally.processed_add] at hput
  unfold shares
  rw [hentries]
  change _ + ((ms.markets.get? m).map fun t => t.processed s).getD 0 = _ at hput
  cases htally : ms.markets.get? m with
  | none =>
    simp only [htally, Option.map_none, Option.getD_none, processed_zero] at hput ⊢
    omega
  | some t =>
    simp only [htally, Option.map_some, Option.getD_some] at hput ⊢
    omega

theorem shares_record_unnamed (hm : r.market = none) (s : EventStream) :
    (ms.record r).shares s = ms.shares s := by
  simp [shares, record, addToMarket, hm]

theorem shares_removeMarket_le (ms : Metrics) (m : MarketId) (s : EventStream) :
    (ms.removeMarket m).shares s ≤ ms.shares s :=
  List.Sublist.sum_le_sum (List.filter_sublist.map _) fun _ _ => Nat.zero_le _

/-- A market without a tally leaves nothing behind. -/
theorem shares_removeMarket (h : ms.hasMarket m = false) (s : EventStream) :
    (ms.removeMarket m).shares s = ms.shares s := by
  have hnone : ms.markets.get? m = none := by
    simpa [hasMarket, Table.contains] using h
  have hall : ms.markets.entries.filter (fun e => e.1 ≠ m) = ms.markets.entries := by
    rw [List.filter_eq_self]
    intro e he
    simpa using Table.ne_of_get?_eq_none hnone e he
  unfold shares removeMarket Table.erase
  rw [hall]

/-! ### Books that balance -/

/-- **The counts agree with each other**: as many latencies as processed messages are counted, in
the totals and for every market, and the markets together have no more of them than the totals. -/
structure Balanced (ms : Metrics) : Prop where
  totals : ms.totals.IsMeasured
  tallies : ∀ e ∈ ms.markets.entries, e.2.IsMeasured
  shares : ∀ s, ms.shares s ≤ ms.totals.processed s

/-- **Nothing that was processed is missing** in the tallies. -/
def IsWhole (ms : Metrics) : Prop := ∀ s, ms.shares s = ms.totals.processed s

theorem balanced_ofConfig (config : MetricsConfig) (now : Instant) :
    (ofConfig config now).Balanced where
  totals s := by cases s <;> rfl
  tallies e he := by simp [ofConfig, Table.empty] at he
  shares s := by simp [Metrics.shares, ofConfig, Table.empty]

theorem isWhole_ofConfig (config : MetricsConfig) (now : Instant) :
    (ofConfig config now).IsWhole := by
  intro s
  cases s <;> rfl

theorem counts_ofConfig (config : MetricsConfig) (now : Instant) :
    (ofConfig config now).totals.Counts [] := by
  constructor <;> rfl

theorem Balanced.record (h : ms.Balanced) (hr : r.IsFair) : (ms.record r).Balanced where
  totals := h.totals.add hr
  tallies e he := by
    cases hm : r.market with
    | none => exact h.tallies e (by simpa [Metrics.record, addToMarket, hm] using he)
    | some m =>
      simp only [Metrics.record, addToMarket, hm, Table.update, Table.set] at he
      rcases Table.mem_put he with rfl | he
      · refine MarketTally.IsMeasured.add ?_ hr
        cases htally : ms.markets.get? m with
        | none => exact MarketTally.isMeasured_zero ms.config r.time
        | some t => exact h.tallies _ (Table.mem_entries_of_get? htally)
      · exact h.tallies e he
  shares s := by
    change _ ≤ (ms.totals.add r).processed s
    rw [Totals.processed_add]
    cases hm : r.market with
    | none =>
      rw [shares_record_unnamed hm]
      exact Nat.le_add_right_of_le (h.shares s)
    | some m =>
      rw [shares_record hm]
      exact Nat.add_le_add_right (h.shares s) _

theorem Balanced.removeMarket (h : ms.Balanced) (m : MarketId) : (ms.removeMarket m).Balanced where
  totals := h.totals
  tallies e he := h.tallies e (List.mem_of_mem_filter he)
  shares s := (shares_removeMarket_le ms m s).trans (h.shares s)

theorem IsWhole.record (h : ms.IsWhole) (hr : r.IsFair) : (ms.record r).IsWhole := by
  intro s
  change _ = (ms.totals.add r).processed s
  rw [Totals.processed_add, ← h s]
  cases hm : r.market with
  | none =>
    have hnot : r.outcome ≠ .processed := fun ho => by
      obtain ⟨m, hm'⟩ := hr.named ho
      rw [hm] at hm'
      cases hm'
    rw [shares_record_unnamed hm]
    simp [MessageRecord.share, hnot]
  | some m => exact shares_record hm s

theorem IsWhole.removeMarket (h : ms.IsWhole) (hm : ms.hasMarket m = false) :
    (ms.removeMarket m).IsWhole := fun s => (shares_removeMarket hm s).trans (h s)

end Metrics

end LiveBook
