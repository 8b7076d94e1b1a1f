import LiveBook.Metrics.Basic
import LiveBook.Tracker.Error

/-!
# The configuration of a tracker

Which markets are tracked from the start, how patiently, and how much is remembered.
Every setting has a default. Times are in milliseconds.

* `LiveBook.TrackerConfig`, `LiveBook.TradeRefreshConfig` – the settings;
* `LiveBook.TrackerConfig.validate` – the first reason, if any, why they do not hold
  together.
-/

namespace LiveBook

open Json (Decode Document Mode Record Value)

/-- When the prices of last trades are asked for. -/
structure TradeRefreshConfig where
  enabled : Bool := true
  /-- A market is due when no trade came for longer than this. -/
  staleAfter : Nat := 180000
  /-- The time that passes at least between two requests for one market. -/
  minInterval : Nat := 5000
  /-- How long to wait before looking again whether a market is due. -/
  pollInterval : Nat := 1000
  /-- How long to wait after a request has failed. -/
  errorBackoff : Nat := 30000
deriving DecidableEq, Repr, Inhabited

namespace TradeRefreshConfig

/-- How the settings of the trade refresh are read. -/
def fields : Record TradeRefreshConfig where
  name := "TradeRefreshConfig"
  fields := [
    ⟨"enabled", false, fun d s => return { s with enabled := ← Json.boolean d }⟩,
    ⟨"stale_after_ms", false, fun d s => return { s with staleAfter := ← Json.u64 d }⟩,
    ⟨"min_interval_ms", false, fun d s => return { s with minInterval := ← Json.u64 d }⟩,
    ⟨"poll_interval_ms", false, fun d s => return { s with pollInterval := ← Json.u64 d }⟩,
    ⟨"error_backoff_ms", false, fun d s => return { s with errorBackoff := ← Json.u64 d }⟩]

/-- The settings of the trade refresh in a document. -/
def decode (mode : Mode) (d : Document) : Decode TradeRefreshConfig :=
  fields.decode mode {} pure d

/-- The settings of the trade refresh as a JSON value. -/
def toJson (c : TradeRefreshConfig) : Value :=
  .object [("enabled", .bool c.enabled), ("stale_after_ms", .nat c.staleAfter),
    ("min_interval_ms", .nat c.minInterval), ("poll_interval_ms", .nat c.pollInterval),
    ("error_backoff_ms", .nat c.errorBackoff)]

end TradeRefreshConfig

/-- **The settings of a tracker.** -/
structure TrackerConfig where
  /-- The markets that are tracked from the start. -/
  markets : List MarketId := []
  /-- The pause between the requests for first books. -/
  initDelay : Nat := 1000
  /-- The number of diffs that are set aside for a market without a book. -/
  pendingCapacity : Nat := 1000
  /-- The number of diffs that are remembered to be applied on top of a late snapshot. -/
  recentDiffs : Nat := 32
  /-- How long a worker waits after an update was refused. -/
  workerBackoff : Nat := 5000
  /-- How long to wait before a stream that has ended is listened to again. -/
  listenerBackoff : Nat := 5000
  /-- Whether diffs that are not newer than the last one count as stale. -/
  enforceMonotonic : Bool := false
  tradeRefresh : TradeRefreshConfig := {}
  metrics : MetricsConfig := {}
deriving DecidableEq, Repr, Inhabited

namespace TrackerConfig

/-- How the settings of a tracker are read. -/
def fields (mode : Mode) : Record TrackerConfig where
  name := "TrackerConfig"
  fields := [
    ⟨"markets", false, fun d s => return { s with markets := ← Json.list MarketId.decode d }⟩,
    ⟨"init_delay_ms", false, fun d s => return { s with initDelay := ← Json.u64 d }⟩,
    ⟨"pending_buffer_capacity", false,
      fun d s => return { s with pendingCapacity := ← Json.usize d }⟩,
    ⟨"recent_diff_window", false, fun d s => return { s with recentDiffs := ← Json.usize d }⟩,
    ⟨"worker_error_backoff_ms", false,
      fun d s => return { s with workerBackoff := ← Json.u64 d }⟩,
    ⟨"listener_backoff_ms", false,
      fun d s => return { s with listenerBackoff := ← Json.u64 d }⟩,
    ⟨"enforce_monotonic_diffs", false,
      fun d s => return { s with enforceMonotonic := ← Json.boolean d }⟩,
    ⟨"trade_refresh", false,
      fun d s => return { s with tradeRefresh := ← TradeRefreshConfig.decode mode d }⟩,
    ⟨"metrics", false, fun d s => return { s with metrics := ← MetricsConfig.decode mode d }⟩]

/-- The settings of a tracker in a document. -/
def decode (mode : Mode) (d : Document) : Decode TrackerConfig :=
  (fields mode).decode mode {} pure d

/-- The settings of a tracker as a JSON value. -/
def toJson (c : TrackerConfig) : Value :=
  .object [("markets", .list MarketId.toJson c.markets), ("init_delay_ms", .nat c.initDelay),
    ("pending_buffer_capacity", .nat c.pendingCapacity),
    ("recent_diff_window", .nat c.recentDiffs),
    ("worker_error_backoff_ms", .nat c.workerBackoff),
    ("listener_backoff_ms", .nat c.listenerBackoff),
    ("enforce_monotonic_diffs", .bool c.enforceMonotonic),
    ("trade_refresh", c.tradeRefresh.toJson), ("metrics", c.metrics.toJson)]

/-- The default settings for some markets. -/
def ofMarkets (markets : List MarketId) : TrackerConfig := { markets := markets }

/-- Why settings do not hold together. -/
inductive Fault where
  | noPendingCapacity
  | noRecentDiffs
  | noSamples
  | noPollInterval
  | noMinInterval
  | blankMarket
  | duplicateMarket (market : MarketId)
deriving DecidableEq, Repr

/-- The wording of a fault. -/
def Fault.message : Fault → String
  | .noPendingCapacity => "pending_buffer_capacity must be > 0"
  | .noRecentDiffs => "recent_diff_window must be > 0"
  | .noSamples => "metrics sample rate and window must be > 0"
  | .noPollInterval => "trade_refresh.poll_interval_ms must be > 0"
  | .noMinInterval => "trade_refresh.min_interval_ms must be > 0"
  | .blankMarket => "blank market id"
  | .duplicateMarket m => "duplicate market " ++ m.name

/-- The first market that is blank or was seen before. -/
def marketFault? (seen : List MarketId) : List MarketId → Option Fault
  | [] => none
  | m :: rest =>
    if m.isBlank then some .blankMarket
    else if seen.contains m then some (.duplicateMarket m)
    else marketFault? (m :: seen) rest

/-- The first fault of the settings. -/
def fault? (c : TrackerConfig) : Option Fault :=
  if c.pendingCapacity = 0 then some .noPendingCapacity
  else if c.recentDiffs = 0 then some .noRecentDiffs
  else if c.metrics.sampleRate = 0 ∨ c.metrics.window = 0 then some .noSamples
  else if c.tradeRefresh.enabled ∧ c.tradeRefresh.pollInterval = 0 then some .noPollInterval
  else if c.tradeRefresh.enabled ∧ c.tradeRefresh.minInterval = 0 then some .noMinInterval
  else marketFault? [] c.markets

/-- Refuses settings with a fault. -/
def validate (c : TrackerConfig) : Except TrackerError Unit :=
  match c.fault? with
  | some f => .error (.invalidConfig f.message)
  | none => .ok ()

/-- Which diffs count as stale. -/
def policy (c : TrackerConfig) : StalenessPolicy :=
  if c.enforceMonotonic then .strictlyIncreasing else .snapshotOnly

theorem marketFault?_eq_none {seen ms : List MarketId} :
    marketFault? seen ms = none ↔
      (∀ m ∈ ms, m.isBlank = false) ∧ (∀ m ∈ ms, m ∉ seen) ∧ ms.Nodup := by
  induction ms generalizing seen with
  | nil => simp [marketFault?]
  | cons m rest ih =>
    unfold marketFault?
    split
    next h => simp [h]
    next h =>
      split
      next hs =>
        have hm : m ∈ seen := by simpa using hs
        simp [hm]
      next hs =>
        have hm : m ∉ seen := by simpa using hs
        rw [ih]
        simp only [List.mem_cons, forall_eq_or_imp, List.nodup_cons, not_or]
        constructor
        · rintro ⟨hb, hn, hd⟩
          exact ⟨⟨by simpa using h, hb⟩, ⟨hm, fun x hx => (hn x hx).2⟩,
            fun hx => (hn m hx).1 rfl, hd⟩
        · rintro ⟨⟨_, hb⟩, ⟨_, hn⟩, hx, hd⟩
          exact ⟨hb, fun x hx' => ⟨fun e => hx (e ▸ hx'), hn x hx'⟩, hd⟩

end TrackerConfig

end LiveBook
