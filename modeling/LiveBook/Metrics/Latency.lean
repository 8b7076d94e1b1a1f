import LiveBook.Recent

/-!
# Latency statistics

How long messages took, in milliseconds. Every record counts towards the number, the
least and the greatest; only every `rate`-th is a *sample*, which stands for `rate`
records in the total and is remembered among the recent ones.

* `LiveBook.LatencyStats`, `LiveBook.LatencyStats.record` – the statistics and what a
  record does to them;
* `LiveBook.LatencySummary` – the figures that follow from them.

A record that is not a number is neither less nor greater than any other.
-/

namespace LiveBook

/-- Statistics of the records so far. -/
structure LatencyStats where
  /-- One record in so many is a sample. -/
  rate : Nat
  /-- The number of records. -/
  count : Nat
  /-- The number of records since the last sample. -/
  sinceSample : Nat
  /-- The sum of the samples, each times the rate. -/
  total : Float
  /-- The least record; infinite at first. -/
  least : Float
  /-- The greatest of zero and the records. -/
  greatest : Float
  /-- The last samples. -/
  recent : Recent Float

/-- The figures of latency statistics. -/
structure LatencySummary where
  count : Nat
  total : Float
  least : Float
  greatest : Float
  average : Float
  recentAverage : Float
  recentCount : Nat

namespace LatencyStats

/-- The rate where none is given. -/
def defaultRate : Nat := 10

/-- The number of samples to remember where none is given. -/
def defaultWindow : Nat := 100

/-- An infinite latency. -/
def infinite : Float := 1.0 / 0.0

/-- Statistics without any record. A rate or window of zero counts as one. -/
def ofConfig (rate window : Nat) : LatencyStats where
  rate := max rate 1
  count := 0
  sinceSample := 0
  total := 0.0
  least := infinite
  greatest := 0.0
  recent := Recent.ofCapacity window

/-- Counts a record and keeps the least and the greatest. -/
def note (s : LatencyStats) (x : Float) : LatencyStats :=
  { s with
    count := s.count + 1
    sinceSample := s.sinceSample + 1
    least := if x < s.least then x else s.least
    greatest := if s.greatest < x then x else s.greatest }

/-- Takes a record as a sample. -/
def sample (s : LatencyStats) (x : Float) : LatencyStats :=
  { s with
    sinceSample := 0
    total := s.total + x * Float.ofNat s.rate
    recent := s.recent.push x }

/-- Adds a record, which is a sample if as many as the rate says were counted since the last
one. -/
def record (s : LatencyStats) (x : Float) : LatencyStats :=
  if s.rate ≤ (s.note x).sinceSample then (s.note x).sample x else s.note x

/-- The sum of some numbers, from the left. -/
def sum (xs : List Float) : Float := xs.foldl (· + ·) (-0.0)

/-- The figures: averages are zero where there is nothing to average, and the least is
zero where it is not finite. -/
def summary (s : LatencyStats) : LatencySummary where
  count := s.count
  total := s.total
  least := if s.least.isFinite then s.least else 0.0
  greatest := s.greatest
  average := if s.count = 0 then 0.0 else s.total / Float.ofNat s.count
  recentAverage :=
    if s.recent.isEmpty then 0.0 else sum s.recent.toList / Float.ofNat s.recent.size
  recentCount := s.recent.size

@[simp]
theorem rate_record (s : LatencyStats) (x : Float) : (s.record x).rate = s.rate := by
  unfold record
  split <;> rfl

@[simp]
theorem count_record (s : LatencyStats) (x : Float) : (s.record x).count = s.count + 1 := by
  unfold record
  split <;> rfl

end LatencyStats

end LiveBook
