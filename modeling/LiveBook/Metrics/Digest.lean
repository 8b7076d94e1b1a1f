import LiveBook.Metrics.Basic

/-!
# Metrics in short

The counts of a tracker and of its markets as short JSON lists. How the statistics of
latencies are shown is left open.
-/

namespace LiveBook

open Json (Value)

/-- The numbers of latencies and of samples. -/
def LatencyStats.countsJson (p : PerStream LatencyStats) : Value :=
  .list (fun s : LatencyStats => .list Value.nat [s.summary.count, s.summary.recentCount]) p.toList

/-- The tally of a market in short. -/
def MarketTally.digest (latency : PerStream LatencyStats → Value) (t : MarketTally) : Value :=
  .object [("diffs", .list Value.nat [t.diffsProcessed, t.diffsRejected]),
    ("snapshots", .list Value.nat [t.snapshotsProcessed]),
    ("trades", .list Value.nat [t.tradesProcessed, t.tradesRejected]),
    ("seen", .list (fun i : Option Instant => .bool i.isSome) t.lastSeen.toList),
    ("latency", latency t.latency)]

/-- The metrics in short. -/
def Metrics.digest (latency : PerStream LatencyStats → Value) (m : Metrics) : Value :=
  let t := m.totals
  .object [
    ("diffs", .list Value.nat [t.diffsProcessed, t.diffsRejected, t.diffsQueued, t.diffsUnknown]),
    ("snapshots", .list Value.nat [t.snapshotsProcessed, t.snapshotsRejected]),
    ("trades", .list Value.nat [t.tradesProcessed, t.tradesRejected]),
    ("latency", latency t.latency),
    ("markets", .object (m.markets.entries.map fun (k, v) => (k.name, v.digest latency)))]

end LiveBook
