import Mathlib.Data.List.DropRight
import LiveBook.Proofs.Metrics.Records
import LiveBook.Tracker.Config

/-!
# The counters and the records that they count

The counters for scraping stand beside the tallies of the markets, under labels, and the removal of
a market deletes those with its label. What a counter shows after any calls is therefore read off
the calls that came after the last removal of a market with its label
(`LiveBook.Exposition.messageCount_applyAll`).

For a market with a label of its own this is the number of its records since it was removed. The
label of records that belong to no market is `LiveBook.Exposition.unattributed`, and nothing keeps
a market from having that very name: such a market shares its counters with those records, and its
removal deletes them.

* `LiveBook.MetricsCall` – the calls that change the metrics;
* `LiveBook.Exposition.Mirrors` – what the counters show after some calls.
-/

namespace LiveBook

/-- **A call that changes the metrics.** -/
inductive MetricsCall where
  | record (r : MessageRecord)
  | remove (m : MarketId)

namespace MetricsCall

/-- The market that a call names, if any. -/
def market : MetricsCall → Option MarketId
  | record r => r.market
  | remove m => some m

/-- Whether a call records a message of a stream with an outcome for a market, or for none. -/
def Counts (market : Option MarketId) (s : EventStream) (o : Outcome) : MetricsCall → Prop
  | record r => r.market = market ∧ r.stream = s ∧ r.outcome = o
  | remove _ => False

/-- Whether a call removes a market. -/
def Removes (m : MarketId) : MetricsCall → Prop
  | record _ => False
  | remove m' => m' = m

instance (market : Option MarketId) (s : EventStream) (o : Outcome) :
    DecidablePred (Counts market s o)
  | record r => inferInstanceAs (Decidable (r.market = market ∧ r.stream = s ∧ r.outcome = o))
  | remove _ => inferInstanceAs (Decidable False)

instance (m : MarketId) : DecidablePred (Removes m)
  | record _ => inferInstanceAs (Decidable False)
  | remove m' => inferInstanceAs (Decidable (m' = m))

theorem counts_record {market : Option MarketId} {s : EventStream} {o : Outcome}
    {r : MessageRecord} :
    (record r).Counts market s o ↔ r.market = market ∧ r.stream = s ∧ r.outcome = o := Iff.rfl

theorem not_counts_remove {market : Option MarketId} {s : EventStream} {o : Outcome}
    {m : MarketId} : ¬ (remove m).Counts market s o := id

theorem not_removes_record {m : MarketId} {r : MessageRecord} : ¬ (record r).Removes m := id

theorem removes_remove {m m' : MarketId} : (remove m').Removes m ↔ m' = m := Iff.rfl

/-- The calls since a market was last removed; all of them if it never was. -/
def since (m : MarketId) (calls : List MetricsCall) : List MetricsCall :=
  calls.rtakeWhile fun c => ¬ c.Removes m

/-- The number of records for a market, or for none, of a stream with an outcome. -/
def tally (market : Option MarketId) (s : EventStream) (o : Outcome) (calls : List MetricsCall) :
    ℕ :=
  calls.countP fun c => c.Counts market s o

theorem since_concat (m : MarketId) (calls : List MetricsCall) (c : MetricsCall) :
    since m (calls ++ [c]) = if c.Removes m then [] else since m calls ++ [c] := by
  rw [since, List.rtakeWhile_concat]
  by_cases h : c.Removes m
  · simp [h]
  · simp [h, since]

theorem since_of_forall_not {m : MarketId} {calls : List MetricsCall}
    (h : ∀ c ∈ calls, ¬ c.Removes m) : since m calls = calls := by
  rw [since, List.rtakeWhile_eq_self_iff]
  intro c hc
  exact decide_eq_true (h c hc)

theorem tally_append (market : Option MarketId) (s : EventStream) (o : Outcome)
    (calls calls' : List MetricsCall) :
    tally market s o (calls ++ calls') = tally market s o calls + tally market s o calls' :=
  List.countP_append

theorem tally_record (market : Option MarketId) (s : EventStream) (o : Outcome)
    (r : MessageRecord) :
    tally market s o [record r] =
      if r.market = market ∧ r.stream = s ∧ r.outcome = o then 1 else 0 := by
  simp [tally, counts_record]

theorem tally_remove (market : Option MarketId) (s : EventStream) (o : Outcome) (m : MarketId) :
    tally market s o [remove m] = 0 := by
  simp [tally, not_counts_remove]

end MetricsCall

open MetricsCall

/-- Makes a call. -/
def Metrics.apply (ms : Metrics) : MetricsCall → Metrics
  | .record r => ms.record r
  | .remove m => ms.removeMarket m

/-- Makes some calls, one after the other. -/
def Metrics.applyAll (ms : Metrics) (calls : List MetricsCall) : Metrics := calls.foldl apply ms

/-- A key is looked up in vain once it was among those taken out. -/
theorem Table.get?_eraseAll {κ α : Type} [DecidableEq κ] (t : Table κ α) (ks : List κ) (k : κ) :
    (ks.foldl Table.erase t).get? k = if k ∈ ks then none else t.get? k := by
  induction ks generalizing t with
  | nil => simp
  | cons k' ks ih =>
    rw [List.foldl_cons, ih, Table.get?_erase]
    by_cases hmem : k ∈ ks
    · simp [hmem]
    · by_cases heq : k' = k
      · simp [heq]
      · simp [hmem, heq, Ne.symm heq]

namespace Exposition

/-- What a call does to the counters. -/
def apply (e : Exposition) : MetricsCall → Exposition
  | .record r => Metrics.expose e r
  | .remove m => e.removeMarket m

/-- What some calls do to the counters. -/
def applyAll (e : Exposition) (calls : List MetricsCall) : Exposition := calls.foldl apply e

theorem applyAll_concat (e : Exposition) (calls : List MetricsCall) (c : MetricsCall) :
    e.applyAll (calls ++ [c]) = (e.applyAll calls).apply c := by
  rw [applyAll, List.foldl_concat]
  rfl

end Exposition

/-- The metrics pass every call on to the counters, if there are any. -/
theorem Metrics.exposition_applyAll (ms : Metrics) (calls : List MetricsCall) :
    (ms.applyAll calls).exposition = ms.exposition.map fun e => e.applyAll calls := by
  induction calls using List.reverseRecOn with
  | nil => simp [applyAll, Exposition.applyAll]
  | append_singleton calls c ih =>
    have hstep : (ms.applyAll (calls ++ [c])).exposition =
        (ms.applyAll calls).exposition.map fun e => e.apply c := by
      rw [applyAll, List.foldl_concat]
      cases c <;> rfl
    rw [hstep, ih, Option.map_map]
    congr 1
    funext e
    exact (e.applyAll_concat calls c).symm

namespace Exposition

variable (e : Exposition)

/-! ### One call -/

theorem messageCount_expose (r : MessageRecord) (market : Option MarketId) (s : EventStream)
    (o : Outcome) :
    (Metrics.expose e r).messageCount market s o =
      e.messageCount market s o +
        if labels r.market r.stream r.outcome = labels market s o then 1 else 0 := by
  rw [← messageCount_record]
  unfold Metrics.expose
  split <;> rfl

theorem mem_allLabels {name : String} {l : CounterLabels} :
    l ∈ allLabels name ↔ l.market = name := by
  obtain ⟨market, s, o⟩ := l
  constructor
  · intro h
    simp only [allLabels, List.mem_flatMap, List.mem_map] at h
    obtain ⟨s', -, o', -, heq⟩ := h
    exact (congrArg CounterLabels.market heq).symm
  · rintro rfl
    simp only [allLabels, List.mem_flatMap, List.mem_map]
    exact ⟨s, by cases s <;> decide, o, by cases o <;> decide, rfl⟩

/-- **The removal of a market** deletes the counters with its label, and no other. -/
theorem messageCount_removeMarket (m : MarketId) (market : Option MarketId) (s : EventStream)
    (o : Outcome) :
    (e.removeMarket m).messageCount market s o =
      if marketLabel market = m.name then 0 else e.messageCount market s o := by
  unfold messageCount removeMarket
  dsimp only
  rw [Table.get?_eraseAll]
  by_cases h : marketLabel market = m.name
  · rw [if_pos (mem_allLabels.mpr h), if_pos h]
    rfl
  · rw [if_neg fun hmem => h (mem_allLabels.mp hmem), if_neg h]

/-! ### Labels -/

/-- The market whose name is the label of records that belong to none. -/
def namesake : MarketId := ⟨unattributed⟩

/-- Under one label stand the records of one market, together with those of no market if it is the
namesake. -/
theorem marketLabel_eq_iff {market : Option MarketId} {m : MarketId} :
    marketLabel market = m.name ↔ market = some m ∨ market = none ∧ m = namesake := by
  obtain ⟨name⟩ := m
  cases market with
  | none => simp [marketLabel, namesake, eq_comm]
  | some m' =>
    obtain ⟨name'⟩ := m'
    simp [marketLabel]

/-- A market with a label of its own. -/
theorem marketLabel_eq_iff_of_ne {market : Option MarketId} {m : MarketId} (h : m ≠ namesake) :
    marketLabel market = m.name ↔ market = some m := by
  rw [marketLabel_eq_iff]
  simp [h]

/-- How many records were counted under the label of a market, of a stream with an outcome. -/
def under (m : MarketId) (s : EventStream) (o : Outcome) (calls : List MetricsCall) : ℕ :=
  tally (some m) s o calls + if m = namesake then tally none s o calls else 0

theorem under_append (m : MarketId) (s : EventStream) (o : Outcome)
    (calls calls' : List MetricsCall) :
    under m s o (calls ++ calls') = under m s o calls + under m s o calls' := by
  unfold under
  rw [tally_append, tally_append]
  split <;> omega

theorem under_record (m : MarketId) (s : EventStream) (o : Outcome) (r : MessageRecord) :
    under m s o [.record r] =
      if labels r.market r.stream r.outcome = labels (some m) s o then 1 else 0 := by
  have hlabels : labels r.market r.stream r.outcome = labels (some m) s o ↔
      (r.market = some m ∨ r.market = none ∧ m = namesake) ∧ r.stream = s ∧ r.outcome = o := by
    rw [← marketLabel_eq_iff]
    simp [labels, marketLabel]
  simp only [under, tally_record, hlabels]
  by_cases hm : m = namesake
  · subst hm
    by_cases hsome : r.market = some namesake
    · simp [hsome]
    · simp [hsome]
  · simp [hm]

theorem under_of_ne {m : MarketId} (h : m ≠ namesake) (s : EventStream) (o : Outcome)
    (calls : List MetricsCall) : under m s o calls = tally (some m) s o calls := by
  simp [under, h]

/-! ### Any calls -/

/-- **What a call does to a counter**: the removal of its market deletes it, and anything else adds
to it what it records under its label. -/
theorem messageCount_apply (c : MetricsCall) (m : MarketId) (s : EventStream) (o : Outcome) :
    (e.apply c).messageCount (some m) s o =
      if c.Removes m then 0 else e.messageCount (some m) s o + under m s o [c] := by
  cases c with
  | record r =>
    rw [if_neg not_removes_record, under_record]
    exact e.messageCount_expose r (some m) s o
  | remove m' =>
    have hcount := e.messageCount_removeMarket m' (some m) s o
    have hlabel : marketLabel (some m) = m'.name ↔ (MetricsCall.remove m').Removes m := by
      rw [marketLabel_eq_iff, removes_remove]
      simp [eq_comm]
    have hnone : under m s o [MetricsCall.remove m'] = 0 := by
      simp [under, tally_remove]
    rw [hnone, Nat.add_zero, ← if_congr hlabel rfl rfl]
    exact hcount

/-- **What a counter shows after any calls**: the records under its label since the market with
this label was last removed. -/
theorem messageCount_applyAll (calls : List MetricsCall) (m : MarketId) (s : EventStream)
    (o : Outcome) :
    (empty.applyAll calls).messageCount (some m) s o = under m s o (since m calls) := by
  induction calls using List.reverseRecOn with
  | nil => simp [applyAll, since, under, tally, empty, messageCount]
  | append_singleton calls c ih =>
    rw [applyAll_concat, messageCount_apply, since_concat, ih]
    by_cases h : c.Removes m
    · simp [h, under, tally]
    · simp [h, under_append]

/-- Records of no market are counted as if they were the namesake's. -/
theorem messageCount_none (s : EventStream) (o : Outcome) :
    e.messageCount none s o = e.messageCount (some namesake) s o := rfl

/-- **What the counters show after some calls.** -/
structure Mirrors (e : Exposition) (calls : List MetricsCall) : Prop where
  /-- A market that is not the namesake is counted since it was last removed. -/
  attributed : ∀ m s o, m ≠ namesake →
    e.messageCount (some m) s o = tally (some m) s o (since m calls)
  /-- The records of no market are counted together with those of the namesake, and since that was
  last removed. -/
  unattributed : ∀ s o, e.messageCount none s o =
    tally none s o (since namesake calls) + tally (some namesake) s o (since namesake calls)
  /-- The namesake is counted under the same label. -/
  shared : ∀ s o, e.messageCount (some namesake) s o = e.messageCount none s o

theorem mirrors_applyAll (calls : List MetricsCall) : (empty.applyAll calls).Mirrors calls where
  attributed m s o hm := by rw [messageCount_applyAll, under_of_ne hm]
  unattributed s o := by
    rw [messageCount_none, messageCount_applyAll, under, if_pos rfl, Nat.add_comm]
  shared _ _ := rfl

/-- As long as nothing names the namesake, the records of no market are counted alone. -/
theorem Mirrors.alone {e : Exposition} {calls : List MetricsCall} (h : e.Mirrors calls)
    (hnone : ∀ c ∈ calls, c.market ≠ some namesake) (s : EventStream) (o : Outcome) :
    e.messageCount none s o = tally none s o calls := by
  have hsince : since namesake calls = calls := by
    apply since_of_forall_not
    rintro (r | m) hc hremoves
    · exact hremoves
    · exact hnone _ hc (congrArg some hremoves)
  have hzero : tally (some namesake) s o calls = 0 := by
    apply List.countP_eq_zero.mpr
    rintro (r | m) hc hcounts
    · exact hnone _ hc (of_decide_eq_true hcounts).1
    · exact of_decide_eq_true hcounts
  rw [h.unattributed, hsince, hzero, Nat.add_zero]

/-- **The counters mirror the records** of every market but the namesake, and those of no market as
long as nothing names the namesake. The removal of a market changes no counter but its own, which
are those of no market as well if it is the namesake. -/
theorem exposed_mirrors {config : MetricsConfig} (hexposed : config.exposed = true) (now : Instant)
    (calls : List MetricsCall) :
    ∃ e, ((Metrics.ofConfig config now).applyAll calls).exposition = some e ∧ e.Mirrors calls ∧
      ((∀ c ∈ calls, c.market ≠ some namesake) →
        ∀ s o, e.messageCount none s o = tally none s o calls) ∧
      ∀ m, ∃ e', (((Metrics.ofConfig config now).applyAll calls).removeMarket m).exposition = some e'
        ∧ ∀ market, market ≠ some m → (market = none → m ≠ namesake) → ∀ s o,
          e'.messageCount market s o = e.messageCount market s o := by
  have hexposition : ((Metrics.ofConfig config now).applyAll calls).exposition =
      some (empty.applyAll calls) := by
    rw [Metrics.exposition_applyAll]
    simp [Metrics.ofConfig, hexposed]
  have hmirrors := mirrors_applyAll calls
  refine ⟨_, hexposition, hmirrors, fun hnone s o => hmirrors.alone hnone s o, fun m => ?_⟩
  refine ⟨(empty.applyAll calls).removeMarket m, ?_, ?_⟩
  · simp [Metrics.removeMarket, hexposition]
  · intro market hother hnone s o
    have hlabel : marketLabel market ≠ m.name := by
      rw [Ne, marketLabel_eq_iff]
      rintro (rfl | ⟨rfl, rfl⟩)
      · exact hother rfl
      · exact hnone rfl rfl
    rw [messageCount_removeMarket, if_neg hlabel]

/-- Two markets and records of no market: one of the markets is removed and comes back. -/
def sampleCalls : List MetricsCall :=
  [.record ⟨some ⟨"A"⟩, .diff, .processed, none, 0⟩,
    .record ⟨some ⟨"B"⟩, .diff, .processed, none, 1⟩,
    .record ⟨none, .diff, .unknown, none, 2⟩,
    .remove ⟨"A"⟩,
    .record ⟨some ⟨"A"⟩, .diff, .processed, none, 3⟩]

theorem exposed_mirrors_sampleCalls :
    ({} : MetricsConfig).exposed = true ∧ (∀ c ∈ sampleCalls, c.market ≠ some namesake) ∧
      ∃ e, ((Metrics.ofConfig {} 0).applyAll sampleCalls).exposition = some e ∧
        e.messageCount (some ⟨"A"⟩) .diff .processed = 1 ∧
        e.messageCount (some ⟨"B"⟩) .diff .processed = 1 ∧
        e.messageCount none .diff .unknown = 1 := by
  have hnone : ∀ c ∈ sampleCalls, c.market ≠ some namesake := by decide
  obtain ⟨e, he, hmirrors, halone, -⟩ :=
    exposed_mirrors (show ({} : MetricsConfig).exposed = true from rfl) 0 sampleCalls
  refine ⟨rfl, hnone, e, he, ?_, ?_, ?_⟩
  · exact (hmirrors.attributed ⟨"A"⟩ .diff .processed (by decide)).trans (by decide)
  · exact (hmirrors.attributed ⟨"B"⟩ .diff .processed (by decide)).trans (by decide)
  · exact (halone hnone .diff .unknown).trans (by decide)

/-- A record of the namesake, and one of no market. -/
def namesakeCalls : List MetricsCall :=
  [.record ⟨some namesake, .diff, .processed, none, 0⟩,
    .record ⟨none, .diff, .unknown, none, 1⟩]

/-- A market with the name under which records of no market are counted is admitted. What is
recorded for it is counted for no market as well, and its removal deletes what was recorded for no
market. -/
theorem namesake_not_mirrored :
    (TrackerConfig.ofMarkets [namesake]).validate = .ok () ∧
      ∃ e e', ((Metrics.ofConfig {} 0).applyAll namesakeCalls).exposition = some e ∧
        (((Metrics.ofConfig {} 0).applyAll namesakeCalls).removeMarket namesake).exposition =
          some e' ∧
        e.messageCount none .diff .processed = 1 ∧
        tally none .diff .processed namesakeCalls = 0 ∧
        e.messageCount none .diff .unknown = 1 ∧
        e'.messageCount none .diff .unknown = 0 :=
  ⟨rfl, _, _, rfl, rfl, by decide, by decide, by decide, by decide⟩

end Exposition

end LiveBook
