import LiveBook.Metrics.Tally
import LiveBook.Number.Notation
import LiveBook.Table

/-!
# Counters for scraping

The records once more, as counters and histograms under labels, in the text format in
which monitoring systems read them. A counter has three labels: the market, the stream
and the outcome. Records that belong to no market are counted under a market label of
their own, `LiveBook.Exposition.unattributed`.

* `LiveBook.Exposition` – the counters and histograms;
* `LiveBook.Exposition.messageCount` – the value of a counter;
* `LiveBook.Exposition.render` – the text, one family after the other, the rows of a
  family ordered by the values of their labels.
-/

namespace LiveBook

/-- The labels of a counter. -/
structure CounterLabels where
  market : String
  stream : EventStream
  outcome : Outcome
deriving DecidableEq, Repr

/-- How often observations were at most so large, and their sum. -/
structure Histogram where
  /-- For each bound the number of observations that do not exceed it. -/
  atMost : List Nat
  sum : Float
  count : Nat

namespace Histogram

/-- The bounds, in milliseconds. -/
def bounds : List Float := [0.01, 0.05, 0.1, 0.5, 1.0, 5.0, 10.0, 50.0, 100.0]

/-- No observation yet. -/
def empty : Histogram := ⟨bounds.map fun _ => 0, 0.0, 0⟩

/-- Adds an observation. -/
def observe (h : Histogram) (x : Float) : Histogram where
  atMost := List.zipWith (fun bound n => if x ≤ bound then n + 1 else n) bounds h.atMost
  sum := h.sum + x
  count := h.count + 1

end Histogram

/-- **Counters and histograms under labels.** -/
structure Exposition where
  messages : Table CounterLabels Nat
  latency : Table EventStream Histogram

namespace Exposition

/-- The market label of records that belong to no market. -/
def unattributed : String := "-"

/-- The market label for a market. -/
def marketLabel : Option MarketId → String
  | some m => m.name
  | none => unattributed

/-- Nothing recorded yet. -/
def empty : Exposition := ⟨.empty, .empty⟩

/-- The labels of the counter for a market, a stream and an outcome. -/
def labels (market : Option MarketId) (s : EventStream) (o : Outcome) : CounterLabels :=
  ⟨marketLabel market, s, o⟩

/-- Counts a message. -/
def record (e : Exposition) (market : Option MarketId) (s : EventStream) (o : Outcome) :
    Exposition :=
  { e with messages := e.messages.update (labels market s o) 0 (· + 1) }

/-- Adds a latency to the histogram of a stream. -/
def observe (e : Exposition) (s : EventStream) (x : Float) : Exposition :=
  { e with latency := e.latency.update s .empty fun h => h.observe x }

/-- All labels with a given market label. -/
def allLabels (market : String) : List CounterLabels :=
  EventStream.all.flatMap fun s => Outcome.all.map fun o => ⟨market, s, o⟩

/-- Takes away every counter under the label of a market. -/
def removeMarket (e : Exposition) (m : MarketId) : Exposition :=
  { e with messages := (allLabels m.name).foldl Table.erase e.messages }

/-- The value of a counter; zero if nothing was counted. -/
def messageCount (e : Exposition) (market : Option MarketId) (s : EventStream) (o : Outcome) :
    Nat :=
  (e.messages.get? (labels market s o)).getD 0

/-! ### The text -/

/-- A label value with its quotes, backslashes and line breaks escaped. -/
def escapeLabel (s : String) : String :=
  String.ofList (s.toList.flatMap fun c =>
    match c with
    | '\\' => ['\\', '\\']
    | '"' => ['\\', '"']
    | '\n' => ['\\', 'n']
    | c => [c])

/-- A row: the name of the series, its labels and its value. -/
def row (name : String) (labels : List (String × String)) (value : String) : String :=
  let shown := labels.map fun l => l.1 ++ "=\"" ++ escapeLabel l.2 ++ "\""
  name ++ "\x7b" ++ ",".intercalate shown ++ "\x7d " ++ value ++ "\n"

/-- The lines in front of the rows of a family. -/
def header (name help type : String) : String :=
  "# HELP " ++ name ++ " " ++ help ++ "\n# TYPE " ++ name ++ " " ++ type ++ "\n"

/-- The name of the counters of messages. -/
def messagesName : String := "obsync_messages_total"

/-- The name of the histograms of latencies. -/
def latencyName : String := "obsync_processing_latency_ms"

/-- The order of counters: by stream, market and outcome. -/
def CounterLabels.before (a b : CounterLabels) : Bool :=
  ((compare a.stream.name b.stream.name).then
    ((compare a.market b.market).then (compare a.outcome.name b.outcome.name))).isLE

/-- The row of a counter. -/
def counterRow (l : CounterLabels) (n : Nat) : String :=
  row messagesName
    [("kind", l.stream.name), ("market", l.market), ("outcome", l.outcome.name)]
    (Digits.natText n)

/-- The rows of the counters. -/
def counterRows (e : Exposition) : List String :=
  (e.messages.entries.mergeSort fun a b => CounterLabels.before a.1 b.1).map
    fun (l, n) => counterRow l n

/-- The rows of a histogram. -/
def histogramRows (s : EventStream) (h : Histogram) : List String :=
  let kind := ("kind", s.name)
  let bucket (bound : String) (n : Nat) :=
    row (latencyName ++ "_bucket") [kind, ("le", bound)] (Digits.natText n)
  List.zipWith (fun b n => bucket (Number.plain b) n) Histogram.bounds h.atMost ++
    [bucket "+Inf" h.count,
      row (latencyName ++ "_sum") [kind] (Number.plain h.sum),
      row (latencyName ++ "_count") [kind] (Digits.natText h.count)]

/-- The rows of the histograms, ordered by stream. -/
def latencyRows (e : Exposition) : List String :=
  (e.latency.entries.mergeSort fun a b => (compare a.1.name b.1.name).isLE).flatMap
    fun (s, h) => histogramRows s h

/-- A family; it is left out if it has no row. -/
def family (header : String) (rows : List String) : String :=
  if rows.isEmpty then "" else header ++ String.join rows

/-- **The text of all counters and histograms.** -/
def render (e : Exposition) : String :=
  family
      (header messagesName "Order book messages routed, by market, kind and outcome" "counter")
      e.counterRows ++
    family (header latencyName "Message processing latency in milliseconds" "histogram")
      e.latencyRows

/-- Counting a message adds one to its counter and to no other. -/
theorem messageCount_record (e : Exposition) (m m' : Option MarketId) (s s' : EventStream)
    (o o' : Outcome) :
    (e.record m s o).messageCount m' s' o' =
      e.messageCount m' s' o' + if labels m s o = labels m' s' o' then 1 else 0 := by
  unfold messageCount record
  rw [Table.get?_update]
  split <;> simp

end Exposition

end LiveBook
