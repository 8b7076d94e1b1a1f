import LiveBook.Event.Codec
import LiveBook.Metrics.Basic

/-!
# Metrics as JSON

All the metrics of a tracker in one document: the totals, the rates since the start, the
figures of the latencies, and the same for each market.
-/

namespace LiveBook

open Json (Value)

/-- The text of an instant. -/
def Instant.text (i : Instant) : String :=
  let nanos : Int := MessageRates.nanosPerSecond
  Time.Timestamp.text ⟨i / nanos, (i % nanos).toNat⟩

/-- An instant as a JSON value. -/
def Instant.toJson (i : Instant) : Value := .string (Instant.text i)

/-- The figures of latencies as a JSON value. -/
def LatencySummary.toJson (s : LatencySummary) : Value :=
  .object [("count", .nat s.count), ("total_ms", .float s.total), ("min_ms", .float s.least),
    ("max_ms", .float s.greatest), ("avg_ms", .float s.average),
    ("recent_avg_ms", .float s.recentAverage), ("recent_samples_count", .nat s.recentCount)]

/-- Rates as a JSON value. -/
def MessageRates.toJson (r : MessageRates) : Value :=
  .object [("diffs", .float r.diffs), ("snapshots", .float r.snapshots),
    ("trades", .float r.trades), ("total", .float r.total)]

/-- The members for the latencies of the three streams. -/
def latencyMembers (p : PerStream LatencyStats) : List (String × Value) :=
  [("diff_latency", p.diff.summary.toJson), ("snapshot_latency", p.snapshot.summary.toJson),
    ("trade_latency", p.trade.summary.toJson)]

/-- The tally of a market as a JSON value. -/
def MarketTally.toJson (now : Instant) (market : MarketId) (t : MarketTally) : Value :=
  let rates := MessageRates.ofCounts t.diffsProcessed t.snapshotsProcessed t.tradesProcessed
    (Instant.since now t.since)
  .object ([("market", market.toJson),
    ("diffs_processed", .nat t.diffsProcessed), ("diffs_rejected", .nat t.diffsRejected),
    ("snapshots_processed", .nat t.snapshotsProcessed),
    ("trades_processed", .nat t.tradesProcessed), ("trades_rejected", .nat t.tradesRejected),
    ("last_diff_at", .ofOption Instant.toJson t.lastSeen.diff),
    ("last_snapshot_at", .ofOption Instant.toJson t.lastSeen.snapshot),
    ("last_trade_at", .ofOption Instant.toJson t.lastSeen.trade),
    ("tracking_started_at", Instant.toJson t.since),
    ("messages_per_minute", rates.toJson)] ++ latencyMembers t.latency)

/-- **All metrics as a JSON value.** -/
def Metrics.toJson (m : Metrics) (now : Instant) : Value :=
  let t := m.totals
  let elapsed := Instant.since now m.started
  let rates := MessageRates.ofCounts t.diffsProcessed t.snapshotsProcessed t.tradesProcessed elapsed
  .object ([("total_diffs_processed", .nat t.diffsProcessed),
    ("total_diffs_rejected", .nat t.diffsRejected),
    ("total_diffs_queued", .nat t.diffsQueued),
    ("total_diffs_unknown", .nat t.diffsUnknown),
    ("total_snapshots_processed", .nat t.snapshotsProcessed),
    ("total_snapshots_rejected", .nat t.snapshotsRejected),
    ("total_trades_processed", .nat t.tradesProcessed),
    ("total_trades_rejected", .nat t.tradesRejected),
    ("started_at", Instant.toJson m.started),
    ("uptime_seconds", .float (MessageRates.seconds elapsed)),
    ("messages_per_minute", rates.toJson)] ++ latencyMembers t.latency ++
    [("markets", .object (m.sortedMarkets.map fun (k, v) => (k.name, v.toJson now k)))])

end LiveBook
