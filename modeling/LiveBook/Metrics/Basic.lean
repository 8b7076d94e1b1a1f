import LiveBook.Json.Decode
import LiveBook.Metrics.Exposition
import LiveBook.Metrics.Rates

/-!
# The metrics of a tracker

One set of totals, and a tally for each market that a record named. A tally is begun by
the first record that names its market and is gone when the market is removed, so that
markets that come and go leave nothing behind. The totals forget nothing. Where the
configuration asks for it, every record is counted a third time for scraping.

* `LiveBook.MetricsConfig` – how much is remembered;
* `LiveBook.Metrics`, `LiveBook.Metrics.record`, `LiveBook.Metrics.remove` – the store and its
  two operations.
-/

namespace LiveBook

/-- What is measured. -/
structure MetricsConfig where
  /-- One latency in so many is a sample. -/
  sampleRate : Nat := LatencyStats.defaultRate
  /-- The number of samples to remember. -/
  window : Nat := LatencyStats.defaultWindow
  /-- Whether records are counted for scraping. -/
  exposed : Bool := true
deriving DecidableEq, Repr, Inhabited

namespace MetricsConfig

open Json (Decode Document Mode Record Value)

/-- How a configuration of the metrics is read. -/
def fields : Record MetricsConfig where
  name := "MetricsConfig"
  fields := [
    ⟨"latency_sample_rate", false, fun d s => return { s with sampleRate := ← Json.u32 d }⟩,
    ⟨"latency_window", false, fun d s => return { s with window := ← Json.usize d }⟩,
    ⟨"prometheus", false, fun d s => return { s with exposed := ← Json.boolean d }⟩]

/-- A configuration of the metrics in a document. -/
def decode (mode : Mode) (d : Document) : Decode MetricsConfig :=
  fields.decode mode {} pure d

/-- A configuration of the metrics as a JSON value. -/
def toJson (c : MetricsConfig) : Value :=
  .object [("latency_sample_rate", .nat c.sampleRate), ("latency_window", .nat c.window),
    ("prometheus", .bool c.exposed)]

/-- Statistics without any record. -/
def freshStats (c : MetricsConfig) : LatencyStats := .ofConfig c.sampleRate c.window

end MetricsConfig

/-- **The metrics of a tracker.** -/
structure Metrics where
  config : MetricsConfig
  /-- Since when rates are reckoned. -/
  started : Instant
  totals : Totals
  markets : Table MarketId MarketTally
  /-- The counters for scraping, if there are any. -/
  exposition : Option Exposition

namespace Metrics

/-- Metrics without any record. -/
def ofConfig (config : MetricsConfig) (now : Instant) : Metrics where
  config := config
  started := now
  totals := .zero config.freshStats
  markets := .empty
  exposition := if config.exposed then some .empty else none

/-- Reckons rates from now on; the counts stay. -/
def markStarted (m : Metrics) (now : Instant) : Metrics := { m with started := now }

/-- The tallies with a record added to the one that it names. -/
def addToMarket (config : MetricsConfig) (markets : Table MarketId MarketTally)
    (r : MessageRecord) : Table MarketId MarketTally :=
  match r.market with
  | some market =>
    markets.update market (.zero config.freshStats r.time) fun t => t.add r
  | none => markets

/-- The counters with a record added. -/
def expose (e : Exposition) (r : MessageRecord) : Exposition :=
  let e := e.record r.market r.stream r.outcome
  match r.latency with
  | some x => e.observe r.stream x
  | none => e

/-- Adds a record. -/
def record (m : Metrics) (r : MessageRecord) : Metrics :=
  { m with
    totals := m.totals.add r
    markets := addToMarket m.config m.markets r
    exposition := m.exposition.map fun e => expose e r }

/-- Whether a market has a tally. -/
def hasMarket (m : Metrics) (market : MarketId) : Bool := m.markets.contains market

/-- Forgets a market. -/
def removeMarket (m : Metrics) (market : MarketId) : Metrics :=
  { m with
    markets := m.markets.erase market
    exposition := m.exposition.map fun e => e.removeMarket market }

/-- Forgets a market, and tells whether it had a tally. -/
def remove (m : Metrics) (market : MarketId) : Metrics × Bool :=
  (m.removeMarket market, m.hasMarket market)

/-- The number of markets with a tally. -/
def marketCount (m : Metrics) : Nat := m.markets.size

/-- The tally of a market. -/
def market? (m : Metrics) (market : MarketId) : Option MarketTally := m.markets.get? market

/-- The markets with a tally, in their order. -/
def sortedMarkets (m : Metrics) : List (MarketId × MarketTally) :=
  m.markets.entries.mergeSort fun a b => (compare a.1 b.1).isLE

/-- The text for scraping. -/
def exposedText (m : Metrics) : Option String := m.exposition.map Exposition.render

end Metrics

end LiveBook
