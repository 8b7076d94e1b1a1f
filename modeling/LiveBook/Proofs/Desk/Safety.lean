import LiveBook.Proofs.Book.Safety
import LiveBook.Proofs.Desk.Operations
import LiveBook.Proofs.Metrics.Records

/-!
# What is safe about a worker

A worker begins with the book of a snapshot and takes messages, whatever they are
(`LiveBook.Worker.HasTaken`). The main statement, `LiveBook.Desk.work_safe`, is about every
state that it comes to so, and about the next message that it takes.

* The last diff is newer than the snapshot, and the window holds valid diffs only.
* A stale diff leaves book and window alone and is counted as rejected, once.
* A snapshot of the market is refused only for its own levels.
* A message that is refused leaves book and window alone.
-/

namespace LiveBook

/-- **What a worker has taken** since it began with the book of a snapshot, which is one of its
market. Trades may have gone to the book in between. -/
structure Worker.HasTaken (w : Worker) (policy : StalenessPolicy) (first : Snapshot) (window : ℕ)
    (ms : List BookMessage) : Prop where
  market : w.market = first.market
  keeper : ∃ b, Book.ofSnapshot first = .ok b ∧
    w.keeper.untraded = ((BookKeeper.ofBook b window).processAll policy ms).untraded

/-- The book of a snapshot is one of the snapshot's market. -/
theorem Book.market_ofSnapshot {s : Snapshot} {b : Book} (h : ofSnapshot s = .ok b) :
    b.market = s.market :=
  eq_of_ofSnapshot h ▸ rfl

namespace Worker.HasTaken

variable {w : Worker} {policy : StalenessPolicy} {first : Snapshot} {window : ℕ}
  {ms : List BookMessage}

theorem safe (h : w.HasTaken policy first window ms) : w.keeper.Safe := by
  obtain ⟨b, hb, hk⟩ := h.keeper
  have hfirst := BookKeeper.safe_ofBook (Book.lastDiff_ofSnapshot hb) window
  exact (hfirst.processAll policy ms).of_untraded hk

theorem market_book (h : w.HasTaken policy first window ms) : w.keeper.book.market = w.market := by
  obtain ⟨b, hb, hk⟩ := h.keeper
  have hmarket : w.keeper.book.market =
      ((BookKeeper.ofBook b window).processAll policy ms).book.market :=
    (Book.mk.inj (BookKeeper.mk.inj hk).1).1
  rw [hmarket, BookKeeper.market_processAll, h.market]
  exact Book.market_ofSnapshot hb

/-- Some messages more. -/
theorem append (h : w.HasTaken policy first window ms) {w' : Worker} {ms' : List BookMessage}
    (market : w'.market = w.market)
    (keeper : w'.keeper.untraded = (w.keeper.processAll policy ms').untraded) :
    w'.HasTaken policy first window (ms ++ ms') := by
  obtain ⟨b, hb, hk⟩ := h.keeper
  refine ⟨market.trans h.market, b, hb, ?_⟩
  rw [keeper, BookKeeper.processAll_append, ← BookKeeper.processAll_untraded, hk,
    BookKeeper.processAll_untraded]

end Worker.HasTaken

namespace Desk

variable {d : Desk} {i : ℕ} {w : Worker}

/-- **A worker that runs takes its next message**: its keeper does with it what keepers do, and
the only thing that is recorded is a stale diff. -/
theorem work_eq_took {x : BookMessage} {rest : Worker} (worker : d.worker? i = some w)
    (running : w.stage = .running) (wanted : w.isCancelled = false)
    (next : w.take? = some (x, rest)) (backoff clock : ℕ) (now : Instant) :
    ∃ d' w', d.work i backoff clock now = some (d', .took x (w.keeper.process d.policy x).2) ∧
      d'.worker? i = some w' ∧ w'.market = w.market ∧
      w'.keeper = (w.keeper.process d.policy x).1 ∧
      d'.metrics = if (w.keeper.process d.policy x).2 = .stale then
        d.metrics.record ⟨some w.market, .diff, .rejected, none, now⟩ else d.metrics := by
  obtain ⟨pending, queue, rfl⟩ := Worker.take?_eq next
  unfold work takeNext
  rw [worker]
  dsimp only
  rw [running]
  dsimp only
  rw [wanted, next]
  dsimp only
  cases hv : (w.keeper.process d.policy x).2 with
  | applied => exact ⟨_, _, rfl, worker?_setWorker_self worker, rfl, rfl, rfl⟩
  | stale => exact ⟨_, _, rfl, worker?_setWorker_self worker, rfl, rfl, rfl⟩
  | restored n => exact ⟨_, _, rfl, worker?_setWorker_self worker, rfl, rfl, rfl⟩
  | refused e => exact ⟨_, _, rfl, worker?_setWorker_self worker, rfl, rfl, rfl⟩

/-- A diff that is stale when its turn comes changes nothing in the keeper. -/
theorem process_of_isStale {k : BookKeeper} {policy : StalenessPolicy} {e : Diff}
    (h : k.book.isStale policy e.sequence = true) : k.process policy (.diff e) = (k, .stale) := by
  rcases k.processDiff_cases policy e with ⟨-, hp⟩ | ⟨hno, -⟩ | ⟨hno, -⟩
  · exact hp
  · exact absurd (h.symm.trans hno) (by simp)
  · exact absurd (h.symm.trans hno) (by simp)

/-- **A worker is safe, whatever it has taken.** The last diff of its book is newer than the
snapshot, and the diffs in its window have no negative price or size. And if it runs, it takes
its next message: a diff that is stale for the book then leaves book and window as they were
and is counted as rejected, once; a snapshot of the market is refused exactly if it has a
negative price or size itself; and whatever is refused leaves book and window as they were.
What it has come to is such a state again. -/
theorem work_safe {first : Snapshot} {window : ℕ} {ms : List BookMessage}
    (worker : d.worker? i = some w) (taken : w.HasTaken d.policy first window ms) :
    (∀ n, w.keeper.book.lastDiff = some n → w.keeper.book.snapshotSequence < n) ∧
    (∀ e ∈ w.keeper.recent.toList, ∀ l ∈ e.bids ++ e.asks,
      l.price.isNegative = false ∧ l.size.isNegative = false) ∧
    ∀ x rest backoff clock now, w.stage = .running → w.isCancelled = false →
      w.take? = some (x, rest) →
      ∃ d' w' v, d.work i backoff clock now = some (d', .took x v) ∧ d'.worker? i = some w' ∧
        w'.HasTaken d.policy first window (ms ++ [x]) ∧
        (∀ e, x = .diff e → w.keeper.book.isStale d.policy e.sequence = true →
          w'.keeper = w.keeper ∧ d.metrics.Rejects w.market now d'.metrics) ∧
        (∀ s, x = .snapshot s → s.market = w.market →
          ((∃ c, v = .refused c) ↔
            ∃ l ∈ s.bids ++ s.asks, l.price.isNegative = true ∨ l.size.isNegative = true)) ∧
        ∀ c, v = .refused c → w'.keeper = w.keeper := by
  refine ⟨taken.safe.ahead, taken.safe.valid, ?_⟩
  intro x rest backoff clock now running wanted next
  obtain ⟨d', w', hwork, hw', hmarket, hkeeper, hmetrics⟩ :=
    work_eq_took worker running wanted next backoff clock now
  refine ⟨d', w', _, hwork, hw', taken.append hmarket (congrArg _ hkeeper), ?_, ?_, ?_⟩
  · rintro e rfl hstale
    rw [process_of_isStale hstale] at hkeeper hmetrics
    refine ⟨hkeeper, ?_⟩
    rw [hmetrics]
    exact d.metrics.rejects_record w.market now
  · rintro s rfl hs
    rw [taken.safe.refuses_iff d.policy (hs.trans taken.market_book.symm)]
    unfold Snapshot.IsValid Level.IsValid
    simp only [not_forall, not_and_or, Bool.not_eq_false, exists_prop]
  · intro c hc
    rw [hkeeper]
    exact BookKeeper.process_refused (Prod.ext rfl hc)

/-! ### A diff that comes again

A worker that has taken the diff at 12 finds it a second time, before a snapshot with a
negative size. -/

/-- A snapshot of one market, with bids. -/
def snapshotAt (n : ℕ) (bids : List Level) : Snapshot := ⟨⟨"BTC-USD"⟩, n, default, bids, []⟩

/-- A diff of that market, without any level. -/
def diffAt (n : ℕ) : Diff := ⟨⟨"BTC-USD"⟩, n, default, [], []⟩

/-- A worker that has begun at 10 and taken the diff at 12. -/
def sampleWorker : Worker where
  market := ⟨"BTC-USD"⟩
  run := 0
  keeper := (BookKeeper.ofBook { Book.empty ⟨"BTC-USD"⟩ with snapshotSequence := 10 } 2).processAll
    .strictlyIncreasing [.diff (diffAt 12)]
  pending := [diffAt 12]
  queue := [.snapshot (snapshotAt 11 [⟨.zero, (Decimal.ofParts? true 1 0).getD .zero⟩])]
  isCancelled := false
  stage := .running

/-- A desk with that worker. -/
def sampleDesk : Desk :=
  { Desk.empty .strictlyIncreasing (.ofConfig {} 0) with staff := [sampleWorker] }

/-- The diff is not applied again, but counted. -/
theorem work_safe_sample : sampleDesk.worker? 0 = some sampleWorker ∧
    sampleWorker.HasTaken .strictlyIncreasing (snapshotAt 10 []) 2 [.diff (diffAt 12)] ∧
    sampleWorker.keeper.book.isStale .strictlyIncreasing 12 = true ∧
    ∃ d' w' v, sampleDesk.work 0 5000 0 0 = some (d', .took (.diff (diffAt 12)) v) ∧
      d'.worker? 0 = some w' ∧ w'.keeper = sampleWorker.keeper ∧
      d'.metrics.totals.diffsRejected = 1 := by
  have taken : sampleWorker.HasTaken sampleDesk.policy (snapshotAt 10 []) 2 [.diff (diffAt 12)] :=
    ⟨rfl, _, rfl, rfl⟩
  obtain ⟨-, -, h⟩ := work_safe (i := 0) (d := sampleDesk) rfl taken
  obtain ⟨d', w', v, hwork, hw', -, hstale, -⟩ := h _ _ 5000 0 0 rfl rfl rfl
  obtain ⟨hkeeper, hrejects⟩ := hstale _ rfl (by decide)
  exact ⟨rfl, taken, by decide, d', w', v, hwork, hw', hkeeper, by rw [hrejects.totals]; rfl⟩

end Desk

end LiveBook
