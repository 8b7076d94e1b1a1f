import Mathlib.Data.Nat.Basic
import LiveBook.Metrics.Latency
import LiveBook.Proofs.Book.Sequences
import LiveBook.Proofs.Number.Order

/-!
# What the statistics of latencies say

Statistics that were begun without any record and then took some records are those of the
list of these records (`LiveBook.LatencyStats.Describes`): the number, the least and the
greatest are those of the whole list, the total is the one of its samples, and what is
remembered is the end of the samples.

* `LiveBook.LatencyStats.samples` – the records whose number is a multiple of the rate;
  a record that comes on top is one of them or leaves them as they are
  (`LiveBook.LatencyStats.samples_concat`);
* `LiveBook.LatencyStats.sinceSample_recordAll` – how far the statistics have counted towards the
  next sample, so that the record which completes the count is one
  (`LiveBook.LatencyStats.le_sinceSample_iff`);
* `LiveBook.LatencyStats.recent_recordAll`, `LiveBook.LatencyStats.total_recordAll` – what
  depends on the samples alone;
* `LiveBook.LatencyStats.isGreatest_recordAll`, `LiveBook.LatencyStats.isLeast_recordAll` –
  what depends on every record.
-/

namespace LiveBook.LatencyStats

open Number (IsGreatest IsLeast)

/-- Adds records one after the other. -/
def recordAll (s : LatencyStats) (xs : List Float) : LatencyStats := xs.foldl record s

@[simp] theorem recordAll_nil (s : LatencyStats) : s.recordAll [] = s := rfl

theorem recordAll_concat (s : LatencyStats) (xs : List Float) (x : Float) :
    s.recordAll (xs ++ [x]) = (s.recordAll xs).record x :=
  List.foldl_concat ..

/-! ### The samples of some records -/

/-- The records at the positions `rate`, `2 * rate`, `3 * rate`, …, counted from one. -/
def samples (rate : ℕ) (xs : List Float) : List Float :=
  (List.range (xs.length / rate)).filterMap fun k => xs[(k + 1) * rate - 1]?

variable {rate : ℕ}

@[simp] theorem samples_nil : samples rate [] = [] := by simp [samples]

/-- A record on top is a sample if the rate divides its position. -/
theorem samples_concat (hr : 0 < rate) (xs : List Float) (x : Float) :
    samples rate (xs ++ [x]) =
      if rate ∣ xs.length + 1 then samples rate xs ++ [x] else samples rate xs := by
  -- the positions of the earlier samples are those of earlier records
  have hold : ∀ k ∈ List.range (xs.length / rate),
      (xs ++ [x])[(k + 1) * rate - 1]? = xs[(k + 1) * rate - 1]? := fun k hk => by
    have hle : (k + 1) * rate ≤ xs.length :=
      (Nat.le_div_iff_mul_le hr).mp (List.mem_range.mp hk)
    have hpos : 0 < (k + 1) * rate := Nat.mul_pos k.succ_pos hr
    exact List.getElem?_append_left (by omega)
  unfold samples
  rw [List.length_append, List.length_singleton]
  by_cases hdvd : rate ∣ xs.length + 1
  · have hdiv : (xs.length + 1) / rate = xs.length / rate + 1 := by
      rw [Nat.succ_div, if_pos hdvd]
    have hlast : (xs.length / rate + 1) * rate - 1 = xs.length := by
      rw [← hdiv, Nat.div_mul_cancel hdvd, Nat.add_sub_cancel]
    rw [if_pos hdvd, hdiv, List.range_succ, List.filterMap_append, List.filterMap_congr hold,
      List.filterMap_cons, hlast, List.getElem?_concat_length]
    rfl
  · have hdiv : (xs.length + 1) / rate = xs.length / rate := by
      rw [Nat.succ_div, if_neg hdvd, Nat.add_zero]
    rw [if_neg hdvd, hdiv, List.filterMap_congr hold]

theorem length_samples (hr : 0 < rate) (xs : List Float) :
    (samples rate xs).length = xs.length / rate := by
  induction xs using List.reverseRecOn with
  | nil => simp
  | append_singleton xs x ih =>
    rw [samples_concat hr, List.length_append, List.length_singleton, Nat.succ_div]
    split
    next => rw [List.length_append, ih, List.length_singleton]
    next => rw [ih, Nat.add_zero]

/-- The remainder of a number comes up to the divisor exactly where that divides the next one. -/
theorem le_mod_add_one_iff (hr : 0 < rate) (n : ℕ) : rate ≤ n % rate + 1 ↔ rate ∣ n + 1 := by
  have hn : n + 1 = rate * (n / rate) + (n % rate + 1) := by
    rw [← Nat.add_assoc, Nat.div_add_mod]
  have hle : n % rate + 1 ≤ rate := Nat.mod_lt n hr
  rw [hn, Nat.dvd_add_right (Nat.dvd_mul_right _ _)]
  refine ⟨fun h => ⟨1, ?_⟩, Nat.le_of_dvd (Nat.succ_pos _)⟩
  rw [Nat.mul_one]
  exact Nat.le_antisymm hle h

/-! ### One record -/

variable (s : LatencyStats) (x : Float)

theorem record_eq :
    s.record x = if s.rate ≤ s.sinceSample + 1 then (s.note x).sample x else s.note x := rfl

theorem sinceSample_record : (s.record x).sinceSample =
    if s.rate ≤ s.sinceSample + 1 then 0 else s.sinceSample + 1 := by
  rw [record_eq]
  split <;> rfl

theorem recent_record :
    (s.record x).recent = if s.rate ≤ s.sinceSample + 1 then s.recent.push x else s.recent := by
  rw [record_eq]
  split <;> rfl

theorem total_record :
    (s.record x).total =
      if s.rate ≤ s.sinceSample + 1 then s.total + x * Float.ofNat s.rate else s.total := by
  rw [record_eq]
  split <;> rfl

theorem greatest_record :
    (s.record x).greatest = if s.greatest < x then x else s.greatest := by
  simp only [record]
  split <;> rfl

theorem least_record : (s.record x).least = if x < s.least then x else s.least := by
  simp only [record]
  split <;> rfl

/-! ### All records -/

variable (rate window : ℕ) (xs : List Float)

theorem rate_recordAll : ((ofConfig rate window).recordAll xs).rate = max rate 1 := by
  induction xs using List.reverseRecOn with
  | nil => rfl
  | append_singleton xs x ih => rw [recordAll_concat, rate_record, ih]

theorem count_recordAll : ((ofConfig rate window).recordAll xs).count = xs.length := by
  induction xs using List.reverseRecOn with
  | nil => rfl
  | append_singleton xs x ih =>
    rw [recordAll_concat, count_record, ih, List.length_append, List.length_singleton]

/-- **The records since the last sample** are what is left over when all are counted off by the
rate. -/
theorem sinceSample_recordAll :
    ((ofConfig rate window).recordAll xs).sinceSample = xs.length % max rate 1 := by
  have hr : 0 < max rate 1 := Nat.lt_of_lt_of_le Nat.one_pos (Nat.le_max_right rate 1)
  induction xs using List.reverseRecOn with
  | nil => exact (Nat.zero_mod _).symm
  | append_singleton xs x ih =>
    rw [recordAll_concat, sinceSample_record, rate_recordAll, ih, List.length_append,
      List.length_singleton]
    by_cases hdvd : max rate 1 ∣ xs.length + 1
    · rw [if_pos ((le_mod_add_one_iff hr _).mpr hdvd), Nat.mod_eq_zero_of_dvd hdvd]
    · have hlt : xs.length % max rate 1 + 1 < max rate 1 :=
        Nat.lt_of_not_le (mt (le_mod_add_one_iff hr _).mp hdvd)
      rw [if_neg (Nat.not_le_of_lt hlt), Nat.add_mod, Nat.mod_eq_of_lt (a := 1) (by omega),
        Nat.mod_eq_of_lt hlt]

/-- **A record is a sample** exactly if the rate divides its position. -/
theorem le_sinceSample_iff :
    max rate 1 ≤ ((ofConfig rate window).recordAll xs).sinceSample + 1 ↔
      max rate 1 ∣ xs.length + 1 := by
  rw [sinceSample_recordAll]
  exact le_mod_add_one_iff (Nat.lt_of_lt_of_le Nat.one_pos (Nat.le_max_right rate 1)) _

/-- **Remembered are the samples,** each in its turn. -/
theorem recent_recordAll :
    ((ofConfig rate window).recordAll xs).recent =
      (Recent.ofCapacity window).pushAll (samples (max rate 1) xs) := by
  induction xs using List.reverseRecOn with
  | nil => rw [samples_nil]; rfl
  | append_singleton xs x ih =>
    rw [recordAll_concat, recent_record,
      samples_concat (Nat.lt_of_lt_of_le Nat.one_pos (Nat.le_max_right rate 1))]
    simp only [rate_recordAll, le_sinceSample_iff, ih]
    split
    next => exact (List.foldl_concat ..).symm
    next => rfl

/-- **The total adds up the samples,** each times the rate. -/
theorem total_recordAll :
    ((ofConfig rate window).recordAll xs).total =
      (samples (max rate 1) xs).foldl (fun t x => t + x * Float.ofNat (max rate 1)) 0.0 := by
  induction xs using List.reverseRecOn with
  | nil => rw [samples_nil]; rfl
  | append_singleton xs x ih =>
    rw [recordAll_concat, total_record,
      samples_concat (Nat.lt_of_lt_of_le Nat.one_pos (Nat.le_max_right rate 1))]
    simp only [rate_recordAll, le_sinceSample_iff, ih]
    split
    next => rw [List.foldl_concat]
    next => rfl

theorem isGreatest_recordAll :
    IsGreatest (0.0 :: xs) ((ofConfig rate window).recordAll xs).greatest := by
  induction xs using List.reverseRecOn with
  | nil => exact IsGreatest.singleton (by decide +kernel)
  | append_singleton xs x ih =>
    rw [recordAll_concat, greatest_record]
    exact ih.concat x

theorem isLeast_recordAll :
    IsLeast (infinite :: xs) ((ofConfig rate window).recordAll xs).least := by
  induction xs using List.reverseRecOn with
  | nil => exact IsLeast.singleton (by decide +kernel)
  | append_singleton xs x ih =>
    rw [recordAll_concat, least_record]
    exact ih.concat x

/-! ### Records that are no numbers -/

theorem greatest_record_of_isNaN (s : LatencyStats) {x : Float} (hx : x.isNaN = true) :
    (s.record x).greatest = s.greatest := by
  rw [greatest_record, if_neg fun h => ?_]
  have hnum : x.isNaN = false := (Number.lt_iff.mp h).1.2
  exact absurd (hx.symm.trans hnum) (by decide)

theorem least_record_of_isNaN (s : LatencyStats) {x : Float} (hx : x.isNaN = true) :
    (s.record x).least = s.least := by
  rw [least_record, if_neg fun h => ?_]
  have hnum : x.isNaN = false := (Number.lt_iff.mp h).1.1
  exact absurd (hx.symm.trans hnum) (by decide)

/-- **The numbers among the records decide** about the greatest and the least. -/
theorem extremes_filter :
    ((ofConfig rate window).recordAll (xs.filter fun x => !x.isNaN)).greatest =
        ((ofConfig rate window).recordAll xs).greatest ∧
      ((ofConfig rate window).recordAll (xs.filter fun x => !x.isNaN)).least =
        ((ofConfig rate window).recordAll xs).least := by
  induction xs using List.reverseRecOn with
  | nil => exact ⟨rfl, rfl⟩
  | append_singleton xs x ih =>
    rw [List.filter_append, recordAll_concat]
    cases hx : x.isNaN with
    | true =>
      rw [List.filter_singleton, hx, greatest_record_of_isNaN _ hx, least_record_of_isNaN _ hx]
      simpa using ih
    | false =>
      rw [List.filter_singleton, hx, greatest_record, least_record, ← ih.1, ← ih.2]
      simp [recordAll_concat, greatest_record, least_record]

/-! ### The figures -/

variable {s : LatencyStats} {xs : List Float}

theorem isFinite_infinite : infinite.isFinite = false := by decide +kernel

/-- **The least record is reported where it is finite,** and zero where it is not or where
there is none. -/
theorem isLeast_summary (h : IsLeast (infinite :: xs) s.least) :
    (IsLeast xs s.summary.least ∧ s.summary.least.isFinite = true) ∨
      (s.summary.least = 0.0 ∧ ∀ z, IsLeast xs z → z.isFinite = false) := by
  cases hfinite : s.least.isFinite with
  | true =>
    have hmem : s.least ∈ xs := (List.mem_cons.mp h.mem).resolve_left fun heq => by
      rw [heq, isFinite_infinite] at hfinite
      exact absurd hfinite (by decide)
    have hsame : s.summary.least = s.least := if_pos hfinite
    rw [hsame]
    exact Or.inl ⟨h.of_cons hmem, hfinite⟩
  | false =>
    refine Or.inr ⟨if_neg (by rw [hfinite]; decide), fun z hz => ?_⟩
    rcases List.mem_cons.mp h.mem with heq | hmem
    · -- no record is below the infinity
      have hle := h.le z (List.mem_cons_of_mem _ hz.mem) hz.isNumber
      rw [heq, Number.le_iff] at hle
      exact Bool.eq_false_iff.mpr fun hz' =>
        absurd ((Number.isFinite_iff hz.isNumber).mp hz').2 (not_lt.mpr hle.2)
    · exact (hz.isFinite_eq (h.of_cons hmem)).trans hfinite

/-- **What the statistics of some records say,** with the rate and the number of samples to
remember. -/
structure Describes (rate window : ℕ) (xs : List Float) (s : LatencyStats) : Prop where
  count : s.summary.count = xs.length
  /-- Counting towards the next sample starts anew with each. -/
  sinceSample : s.sinceSample = xs.length % rate
  recent : s.recent.toList = (samples rate xs).rtake window
  recentCount : s.summary.recentCount = min (xs.length / rate) window
  total : s.summary.total = (samples rate xs).foldl (fun t x => t + x * Float.ofNat rate) 0.0
  greatest : IsGreatest (0.0 :: xs) s.summary.greatest
  least : (IsLeast xs s.summary.least ∧ s.summary.least.isFinite = true) ∨
    (s.summary.least = 0.0 ∧ ∀ z, IsLeast xs z → z.isFinite = false)

/-- **Statistics are those of the records,** of all of them or of the samples, and what is
no number changes neither the greatest nor the least. -/
theorem describes_recordAll (rate window : ℕ) (xs : List Float) :
    Describes (max rate 1) (max window 1) xs ((ofConfig rate window).recordAll xs) ∧
      ∀ ys, (ys.filter fun x => !x.isNaN) = xs.filter (fun x => !x.isNaN) →
        ((ofConfig rate window).recordAll ys).summary.greatest =
            ((ofConfig rate window).recordAll xs).summary.greatest ∧
          ((ofConfig rate window).recordAll ys).summary.least =
            ((ofConfig rate window).recordAll xs).summary.least := by
  have hrate : 0 < max rate 1 := Nat.lt_of_lt_of_le Nat.one_pos (Nat.le_max_right rate 1)
  have hrecent : ((ofConfig rate window).recordAll xs).recent.toList =
      (samples (max rate 1) xs).rtake (max window 1) := by
    rw [recent_recordAll, Recent.toList_pushAll (Recent.bounded_ofCapacity window)]
    rfl
  constructor
  · exact {
      count := count_recordAll rate window xs
      sinceSample := sinceSample_recordAll rate window xs
      recent := hrecent
      recentCount := by
        refine (congrArg List.length hrecent).trans ?_
        rw [List.rtake, List.length_drop, length_samples hrate, Nat.sub_sub_eq_min]
      total := total_recordAll rate window xs
      greatest := isGreatest_recordAll rate window xs
      least := isLeast_summary (isLeast_recordAll rate window xs) }
  · intro ys hys
    obtain ⟨hgreatest, hleast⟩ := extremes_filter rate window ys
    rw [hys, (extremes_filter rate window xs).1] at hgreatest
    rw [hys, (extremes_filter rate window xs).2] at hleast
    exact ⟨hgreatest.symm, by simp only [summary, hleast]⟩

end LiveBook.LatencyStats
