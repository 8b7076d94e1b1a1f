import LiveBook.Proofs.Book.Keeper
import LiveBook.Proofs.Book.Values
import LiveBook.Tracker.Desk

/-!
# A book follows the history of its market

A market has a true history (`LiveBook.History`): a book, and diffs in ascending order that
changed it since. A worker sees that history through messages. The diffs come once and in
order, but snapshots may come before, among or after the diffs that they cover, and any
number of times. The main statement, `LiveBook.History.same_bookAt_watermark`, is that the
worker's book is nevertheless after every single message the book of the history at the
watermark, and that the watermark is the newest sequence number seen so far.

The only thing that is asked of the window is that it is large enough for the snapshots
that come late: `LiveBook.History.Feeds.retained`.

## How the proof goes

The invariant (`LiveBook.History.InStep`) follows the diffs that were *accepted*. A
stale diff is one that a snapshot has covered, and every later snapshot covers it, too;
so above the sequence number of the last snapshot no diff was left out. A late snapshot is
above that number, and what has to be applied again on top of it is therefore among the
accepted diffs, at their end, where the window is.
-/

namespace LiveBook

/-- **The true history of a market**: a book, and the valid diffs that followed it. -/
structure History where
  base : Book
  diffs : List Diff
  ascending : diffs.Pairwise (·.sequence < ·.sequence)
  valid : ∀ d ∈ diffs, d.IsValid

namespace History

variable (H : History)

/-- The book of the market at a sequence number. -/
def bookAt (n : ℕ) : Book := H.base.mergeAll (H.diffs.filter (·.sequence ≤ n))

/-- The diffs after one sequence number and up to another. -/
def between (a c : ℕ) : List Diff := H.diffs.filter fun d => a < d.sequence ∧ d.sequence ≤ c

/-- A snapshot that carries the market's book at its sequence number. -/
structure Carries (s : Snapshot) : Prop where
  market : s.market = H.base.market
  valid : s.IsValid
  bids : (Side.ofLevels s.bids).Same (H.bookAt s.sequence).bids
  asks : (Side.ofLevels s.asks).Same (H.bookAt s.sequence).asks

/-- **A history reaches a book through messages.** The book is that of the history at its
watermark. The diffs that its snapshot does not cover anyway are those of the history
which are newer than the book, from the first on, each once and in order. The snapshots
carry the history's books, do not go back and are not older than the book. No more than
`window` diffs that are newer than a snapshot come before it. -/
structure Feeds (b : Book) (window : ℕ) (ms : List BookMessage) : Prop where
  market : b.market = H.base.market
  initial : b.Same (H.bookAt b.watermark)
  gapless : (diffsOf ms).filter (b.snapshotSequence < ·.sequence) <+:
    H.diffs.filter (b.watermark < ·.sequence)
  carried : ∀ s ∈ snapshotsOf ms, H.Carries s
  ascending : (snapshotsOf ms).Pairwise (·.sequence ≤ ·.sequence)
  notOlder : ∀ s ∈ snapshotsOf ms, b.watermark ≤ s.sequence
  retained : ∀ done s rest, ms = done ++ .snapshot s :: rest →
    ((diffsOf done).filter (s.sequence < ·.sequence)).length ≤ window

/-! ### The books of a history -/

/-- A later book is an earlier one with the diffs between them. -/
theorem bookAt_eq_mergeAll {a c : ℕ} (h : a ≤ c) :
    H.bookAt c = (H.bookAt a).mergeAll (H.between a c) := by
  rw [bookAt, bookAt, between, ← Book.mergeAll_append, filter_le_eq_append H.ascending h]

theorem between_self (a : ℕ) : H.between a a = [] :=
  List.filter_eq_nil_iff.mpr fun d _ => by
    simp only [decide_eq_true_eq]
    omega

variable {H}

/-- The diffs between two sequence numbers, read off a list of diffs that goes just up to
the second one. -/
theorem between_eq_filter {n a c : ℕ} {ds rest : List Diff}
    (hsplit : H.diffs.filter (n < ·.sequence) = ds ++ rest) (ha : n ≤ a)
    (hds : ∀ d ∈ ds, d.sequence ≤ c) (hrest : ∀ d ∈ rest, c < d.sequence) :
    H.between a c = ds.filter (a < ·.sequence) := by
  have hcut : H.between a c =
      (H.diffs.filter (n < ·.sequence)).filter fun d => a < d.sequence ∧ d.sequence ≤ c := by
    rw [between, List.filter_filter]
    refine List.filter_congr fun d _ => ?_
    simp only [Bool.decide_and]
    by_cases had : a < d.sequence
    · simp [had, ha.trans_lt had]
    · simp [had]
  have hnone : (rest.filter fun d => a < d.sequence ∧ d.sequence ≤ c) = [] :=
    List.filter_eq_nil_iff.mpr fun d hd => by
      have := hrest d hd
      simp only [decide_eq_true_eq]
      omega
  rw [hcut, hsplit, List.filter_append, hnone, List.append_nil]
  refine List.filter_congr fun d hd => ?_
  simp [hds d hd]

/-! ### The diffs of a stream -/

namespace Feeds

variable {b : Book} {window : ℕ} {ms done rest : List BookMessage} {d : Diff}

/-- The diffs of a part of the stream are the first ones of the history, too. -/
theorem gapless_done (feeds : H.Feeds b window ms) (h : ms = done ++ rest) :
    (diffsOf done).filter (b.snapshotSequence < ·.sequence) <+:
      H.diffs.filter (b.watermark < ·.sequence) := by
  refine (List.prefix_append _ ((diffsOf rest).filter (b.snapshotSequence < ·.sequence))).trans ?_
  rw [← List.filter_append, ← diffsOf_append, ← h]
  exact feeds.gapless

theorem pairwise_done (feeds : H.Feeds b window ms) (h : ms = done ++ rest) :
    ((diffsOf done).filter (b.snapshotSequence < ·.sequence)).Pairwise (·.sequence < ·.sequence) :=
  (H.ascending.sublist List.filter_sublist).sublist (feeds.gapless_done h).sublist

theorem mem_done (feeds : H.Feeds b window ms) (h : ms = done ++ rest) (hd : d ∈ diffsOf done)
    (hb : b.snapshotSequence < d.sequence) : d ∈ H.diffs ∧ b.watermark < d.sequence := by
  have hmem : d ∈ (diffsOf done).filter (b.snapshotSequence < ·.sequence) :=
    List.mem_filter.mpr ⟨hd, by simpa using hb⟩
  simpa using (feeds.gapless_done h).subset hmem

/-- **Up to the newest diff of a part of the stream the history has no diffs but those of
that part.** -/
theorem between_done {a : ℕ} (feeds : H.Feeds b window ms) (h : ms = done ++ rest)
    (ha : b.watermark ≤ a) (hd : d ∈ diffsOf done) (hb : b.snapshotSequence < d.sequence)
    (hmax : ∀ e ∈ diffsOf done, e.sequence ≤ d.sequence) :
    H.between a d.sequence = (diffsOf done).filter (a < ·.sequence) := by
  obtain ⟨later, hlater⟩ := feeds.gapless_done h
  have hsorted : (H.diffs.filter (b.watermark < ·.sequence)).Pairwise (·.sequence < ·.sequence) :=
    H.ascending.sublist List.filter_sublist
  rw [← hlater, List.pairwise_append] at hsorted
  have hlt : ∀ e ∈ later, d.sequence < e.sequence :=
    hsorted.2.2 d (List.mem_filter.mpr ⟨hd, by simpa using hb⟩)
  rw [between_eq_filter hlater.symm ha (fun e he => hmax e (List.mem_filter.mp he).1) hlt,
    List.filter_filter]
  refine List.filter_congr fun e _ => ?_
  by_cases hae : a < e.sequence
  · have := b.snapshotSequence_le_watermark
    simp [hae, (this.trans ha).trans_lt hae]
  · simp [hae]

/-- The snapshots seen so far are not newer than the next one. -/
theorem le_snapshot {s t : Snapshot} (feeds : H.Feeds b window ms)
    (h : ms = done ++ .snapshot s :: rest) (ht : .snapshot t ∈ done) : t.sequence ≤ s.sequence := by
  have hp := feeds.ascending
  rw [h, snapshotsOf_append, List.pairwise_append] at hp
  exact hp.2.2 t (mem_snapshotsOf.mpr ht) s (mem_snapshotsOf.mpr List.mem_cons_self)

theorem snapshot_mem {s : Snapshot} (h : ms = done ++ .snapshot s :: rest) :
    s ∈ snapshotsOf ms :=
  mem_snapshotsOf.mpr (h ▸ List.mem_append_right _ List.mem_cons_self)

/-- **What a late snapshot lacks**: the diffs seen so far that are newer than it are those
which the history has between it and the newest of them. -/
theorem between_newest {s : Snapshot} (feeds : H.Feeds b window ms)
    (h : ms = done ++ .snapshot s :: rest) :
    H.between s.sequence (newest s.sequence
      (((diffsOf done).filter (s.sequence < ·.sequence)).map Diff.sequence)) =
      (diffsOf done).filter (s.sequence < ·.sequence) := by
  have hb : b.watermark ≤ s.sequence := feeds.notOlder s (snapshot_mem h)
  generalize hmark : newest s.sequence
    (((diffsOf done).filter (s.sequence < ·.sequence)).map Diff.sequence) = mark
  have hle : ∀ e ∈ diffsOf done, s.sequence < e.sequence → e.sequence ≤ mark := fun e he hse =>
    hmark ▸ le_newest_of_mem (List.mem_map_of_mem (List.mem_filter.mpr ⟨he, by simpa using hse⟩))
  rcases newest_eq_or_mem s.sequence
    (((diffsOf done).filter (s.sequence < ·.sequence)).map Diff.sequence) with hs | hd
  · rw [← hmark, hs, H.between_self, eq_comm, List.filter_eq_nil_iff]
    intro e he hse
    have := hle e he (by simpa using hse)
    simp only [decide_eq_true_eq] at hse
    omega
  · obtain ⟨d, hd, hdmark⟩ := List.mem_map.mp hd
    obtain ⟨hd, hsd⟩ := List.mem_filter.mp hd
    have hsd : s.sequence < d.sequence := by simpa using hsd
    rw [← hmark, ← hdmark]
    refine feeds.between_done h hb hd
      (b.snapshotSequence_le_watermark.trans_lt (hb.trans_lt hsd)) fun e he => ?_
    by_cases hse : s.sequence < e.sequence
    · exact (hle e he hse).trans (hmark ▸ hdmark.ge)
    · exact (Nat.le_of_not_lt hse).trans hsd.le

end Feeds

/-! ### The invariant -/

/-- **What holds after some messages of a stream**: the book is that of the history at its
watermark, which is the newest sequence number so far, and above the last snapshot all
diffs so far were accepted. -/
structure InStep (H : History) (b : Book) (done : List BookMessage) (k : BookKeeper)
    (accepted : List Diff) : Prop where
  market : k.book.market = b.market
  snapshot : k.book.snapshotSequence =
    newest b.snapshotSequence ((snapshotsOf done).map Snapshot.sequence)
  watermark : k.book.watermark = newest b.watermark (done.map BookMessage.sequence)
  same : k.book.Same (H.bookAt k.book.watermark)
  order : accepted.Sublist ((diffsOf done).filter (b.snapshotSequence < ·.sequence))
  complete : ∀ n, k.book.snapshotSequence ≤ n →
    accepted.filter (n < ·.sequence) = (diffsOf done).filter (n < ·.sequence)

namespace InStep

variable {b : Book} {window : ℕ} {ms done rest : List BookMessage} {k : BookKeeper}
  {accepted : List Diff}

theorem init (feeds : H.Feeds b window ms) : H.InStep b [] (.ofBook b window) [] where
  market := rfl
  snapshot := rfl
  watermark := rfl
  same := feeds.initial
  order := List.nil_sublist _
  complete _ _ := rfl

theorem initial_le (inv : H.InStep b done k accepted) :
    b.snapshotSequence ≤ k.book.snapshotSequence :=
  inv.snapshot ▸ le_newest _ _

theorem snapshot_le {s : Snapshot} (inv : H.InStep b done k accepted) (hs : .snapshot s ∈ done) :
    s.sequence ≤ k.book.snapshotSequence :=
  inv.snapshot ▸ le_newest_of_mem (List.mem_map_of_mem (mem_snapshotsOf.mpr hs))

theorem diff_le {d : Diff} (inv : H.InStep b done k accepted) (hd : d ∈ diffsOf done) :
    d.sequence ≤ k.book.watermark :=
  inv.watermark ▸ le_newest_of_mem
    (List.mem_map_of_mem (f := BookMessage.sequence) (mem_diffsOf.mp hd))

/-- **A diff that the last snapshot does not cover is newer than all that was seen.** -/
theorem watermark_lt {d : Diff} (inv : H.InStep b done k accepted) (feeds : H.Feeds b window ms)
    (h : ms = done ++ .diff d :: rest) (hd : k.book.snapshotSequence < d.sequence) :
    k.book.watermark < d.sequence := by
  have hb : b.snapshotSequence < d.sequence := inv.initial_le.trans_lt hd
  have h' : ms = (done ++ [.diff d]) ++ rest := by simp [h]
  rw [inv.watermark, newest_lt_iff]
  refine ⟨(feeds.mem_done h' (by simp [diffsOf, BookMessage.diff?]) hb).2, ?_⟩
  rintro x hx
  obtain ⟨m, hm, rfl⟩ := List.mem_map.mp hx
  cases m with
  | snapshot s => exact (inv.snapshot_le hm).trans_lt hd
  | diff e =>
    by_cases he : b.snapshotSequence < e.sequence
    · have hp := feeds.pairwise_done h'
      rw [diffsOf_append, List.filter_append, List.pairwise_append] at hp
      exact hp.2.2 e (List.mem_filter.mpr ⟨mem_diffsOf.mpr hm, by simpa using he⟩) d
        (by simpa [diffsOf, BookMessage.diff?] using hb)
    · exact (Nat.le_of_not_lt he).trans_lt hb

/-- So the staleness policy makes no difference: a diff is stale just if the last snapshot
covers it. -/
theorem isStale_iff {d : Diff} (policy : StalenessPolicy) (inv : H.InStep b done k accepted)
    (feeds : H.Feeds b window ms) (h : ms = done ++ .diff d :: rest) :
    k.book.isStale policy d.sequence = true ↔ d.sequence ≤ k.book.snapshotSequence := by
  refine ⟨fun hstale => ?_, Book.isStale_of_le_snapshot policy⟩
  by_contra hlt
  have hwm := inv.watermark_lt feeds h (Nat.lt_of_not_le hlt)
  exact absurd (Book.le_watermark_of_isStale hstale) (Nat.not_le.mpr hwm)

/-- A diff that the last snapshot covers changes nothing. -/
theorem covered {d : Diff} (inv : H.InStep b done k accepted)
    (hd : d.sequence ≤ k.book.snapshotSequence) :
    H.InStep b (done ++ [.diff d]) k accepted where
  market := inv.market
  snapshot := by simpa using inv.snapshot
  watermark := by
    have hle : d.sequence ≤ k.book.watermark := hd.trans k.book.snapshotSequence_le_watermark
    rw [List.map_append, newest_append, ← inv.watermark, List.map_singleton, newest_cons,
      newest_nil, BookMessage.sequence, Nat.max_eq_left hle]
  same := inv.same
  order := by
    rw [diffsOf_append, List.filter_append]
    exact inv.order.trans (List.sublist_append_left _ _)
  complete n hn := by
    have hdn : ¬n < d.sequence := Nat.not_lt.mpr (hd.trans hn)
    simp [inv.complete n hn, hdn]

/-- **A new diff brings the book to the diff's sequence number**: between the watermark and
the diff the history has no other. -/
theorem advanced {d : Diff} (inv : H.InStep b done k accepted) (feeds : H.Feeds b window ms)
    (h : ms = done ++ .diff d :: rest) (hd : k.book.snapshotSequence < d.sequence) :
    H.InStep b (done ++ [.diff d])
      ⟨k.book.mergeDiff d.bids d.asks d.sequence, k.recent.push d⟩ (accepted ++ [d]) := by
  have hwm : k.book.watermark < d.sequence := inv.watermark_lt feeds h hd
  have hb : b.snapshotSequence < d.sequence := inv.initial_le.trans_lt hd
  have hmark : (k.book.mergeDiff d.bids d.asks d.sequence).watermark = d.sequence := by
    rw [Book.watermark_mergeDiff, Nat.max_eq_right hwm.le]
  refine ⟨inv.market, inv.snapshot.trans (by simp), ?_, ?_, ?_, fun n hn => ?_⟩
  · rw [List.map_append, newest_append, ← inv.watermark, Book.watermark_mergeDiff]
    rfl
  · have hseen : ∀ e ∈ diffsOf done, e.sequence ≤ k.book.watermark := fun e => inv.diff_le
    have h' : ms = (done ++ [.diff d]) ++ rest := by simp [h]
    -- what was seen is not above the watermark, so only `d` is left
    have hbetween : H.between k.book.watermark d.sequence = [d] := by
      have hnone : (diffsOf done).filter (k.book.watermark < ·.sequence) = [] :=
        List.filter_eq_nil_iff.mpr fun e he => by simpa using hseen e he
      rw [feeds.between_done h' (inv.watermark ▸ le_newest _ _) (by simp) hb ?_, diffsOf_append,
        List.filter_append, hnone, diffsOf_diff, List.filter_cons_of_pos (by simpa using hwm),
        List.filter_nil, List.nil_append]
      intro e he
      rcases List.mem_append.mp (diffsOf_append _ _ ▸ he) with he | he
      · exact (hseen e he).trans hwm.le
      · exact (List.mem_singleton.mp he) ▸ le_rfl
    rw [hmark, H.bookAt_eq_mergeAll hwm.le, hbetween]
    exact inv.same.mergeDiff d.bids d.asks d.sequence d.sequence
  · rw [diffsOf_append, List.filter_append, diffsOf_diff,
      List.filter_cons_of_pos (by simpa using hb), List.filter_nil]
    exact inv.order.append_right [d]
  · rw [List.filter_append, inv.complete n hn, diffsOf_append, List.filter_append, diffsOf_diff]

/-- The newest of a late snapshot and of what it lacks is the newest of all. -/
theorem newest_late {s : Snapshot} (inv : H.InStep b done k accepted) (feeds : H.Feeds b window ms)
    (h : ms = done ++ .snapshot s :: rest) :
    newest s.sequence (((diffsOf done).filter (s.sequence < ·.sequence)).map Diff.sequence) =
      max k.book.watermark s.sequence := by
  refine Nat.le_antisymm (newest_le_iff.mpr ⟨Nat.le_max_right _ _, ?_⟩)
    (Nat.max_le.mpr ⟨?_, le_newest _ _⟩)
  · intro n hn
    obtain ⟨d, hd, rfl⟩ := List.mem_map.mp hn
    exact (inv.diff_le (List.mem_filter.mp hd).1).trans (Nat.le_max_left _ _)
  · rw [inv.watermark, newest_le_iff]
    refine ⟨(feeds.notOlder s (Feeds.snapshot_mem h)).trans (le_newest _ _), fun n hn => ?_⟩
    obtain ⟨m, hm, rfl⟩ := List.mem_map.mp hn
    cases m with
    | snapshot t => exact (feeds.le_snapshot h hm).trans (le_newest _ _)
    | diff d =>
      by_cases hd : s.sequence < d.sequence
      · exact le_newest_of_mem (List.mem_map_of_mem (f := Diff.sequence)
          (List.mem_filter.mpr ⟨mem_diffsOf.mpr hm, by simpa using hd⟩))
      · exact (Nat.le_of_not_lt hd).trans (le_newest _ _)

theorem snapshot_le_next {s : Snapshot} (inv : H.InStep b done k accepted)
    (feeds : H.Feeds b window ms) (h : ms = done ++ .snapshot s :: rest) :
    k.book.snapshotSequence ≤ s.sequence := by
  rw [inv.snapshot, newest_le_iff]
  refine ⟨b.snapshotSequence_le_watermark.trans (feeds.notOlder s (Feeds.snapshot_mem h)), ?_⟩
  intro n hn
  obtain ⟨t, ht, rfl⟩ := List.mem_map.mp hn
  exact feeds.le_snapshot h (mem_snapshotsOf.mp ht)

/-- **A snapshot brings the book to where it was, or further**, if the window has all that
the snapshot lacks. -/
theorem restored {s : Snapshot} (inv : H.InStep b done k accepted) (feeds : H.Feeds b window ms)
    (h : ms = done ++ .snapshot s :: rest)
    (hnewer : k.newer s.sequence = (diffsOf done).filter (s.sequence < ·.sequence)) :
    H.InStep b (done ++ [.snapshot s]) ⟨k.book.restored s (k.newer s.sequence), k.recent⟩
      accepted := by
  have hk : k.book.snapshotSequence ≤ s.sequence := inv.snapshot_le_next feeds h
  have hsequence : (k.book.restored s (k.newer s.sequence)).snapshotSequence = s.sequence :=
    Book.snapshotSequence_mergeAll _ _
  have hmark : (k.book.restored s (k.newer s.sequence)).watermark =
      newest s.sequence (((diffsOf done).filter (s.sequence < ·.sequence)).map Diff.sequence) := by
    rw [Book.restored, Book.watermark_mergeAll, hnewer]
    simp [Book.watermark, Book.replaceLevels]
  refine ⟨(Book.market_mergeAll _ _).trans inv.market, ?_, ?_, ?_, by simpa using inv.order,
    fun n hn => ?_⟩
  · rw [hsequence, snapshotsOf_append, List.map_append, newest_append, ← inv.snapshot]
    exact (Nat.max_eq_right hk).symm
  · rw [hmark, inv.newest_late feeds h, List.map_append, newest_append, ← inv.watermark]
    rfl
  · have hcarried := feeds.carried s (Feeds.snapshot_mem h)
    have hreplaced : (k.book.replaceLevels s.bids s.asks s.sequence).Same (H.bookAt s.sequence) :=
      ⟨hcarried.bids, hcarried.asks⟩
    rw [hmark, H.bookAt_eq_mergeAll (le_newest _ _), feeds.between_newest h, Book.restored, hnewer]
    exact hreplaced.mergeAll _
  · rw [diffsOf_append, diffsOf_snapshot, List.append_nil]
    exact inv.complete n (hk.trans (hsequence ▸ hn))

/-- The window has all that a late snapshot lacks: it holds the end of the accepted diffs,
and above the snapshot these are all there are. -/
theorem newer_eq {s : Snapshot} (inv : H.InStep b done k accepted) (feeds : H.Feeds b window ms)
    (h : ms = done ++ .snapshot s :: rest) {c : ℕ} (hc : window ≤ c)
    (hrecent : k.recent.toList = accepted.rtake c) :
    k.newer s.sequence = (diffsOf done).filter (s.sequence < ·.sequence) := by
  have hcomplete := inv.complete s.sequence (inv.snapshot_le_next feeds h)
  have hsorted : accepted.Pairwise (·.sequence < ·.sequence) :=
    (feeds.pairwise_done h).sublist inv.order
  rw [BookKeeper.newer, hrecent, filter_rtake hsorted ?_, hcomplete]
  rw [hcomplete]
  exact (feeds.retained done s rest h).trans hc

/-- **One message keeps the invariant.** -/
theorem process (policy : StalenessPolicy) {m : BookMessage} (inv : H.InStep b done k accepted)
    (feeds : H.Feeds b window ms) (h : ms = done ++ m :: rest) {c : ℕ} (hc : window ≤ c)
    (hrecent : k.recent.toList = accepted.rtake c) :
    H.InStep b (done ++ [m]) (k.process policy m).1 (accepted ++ k.acceptedNow policy m) := by
  -- what is accepted is of the history, so nothing that is applied again can be refused
  have hvalid : ∀ d ∈ accepted, d.IsValid := fun d hd => by
    obtain ⟨hd, hb⟩ := List.mem_filter.mp (inv.order.subset hd)
    exact H.valid d (feeds.mem_done h hd (by simpa using hb)).1
  unfold BookKeeper.acceptedNow
  cases m with
  | diff d =>
    rcases k.processDiff_cases policy d with ⟨hstale, hp⟩ | ⟨hstale, hbad, e, hp⟩ | ⟨hstale, -, hp⟩
    · rw [hp, List.append_nil]
      exact inv.covered ((inv.isStale_iff policy feeds h).mp hstale)
    · have hd : k.book.snapshotSequence < d.sequence := by
        rw [← Nat.not_le, ← inv.isStale_iff policy feeds h, hstale]
        exact Bool.false_ne_true
      have h' : ms = (done ++ [.diff d]) ++ rest := by simp [h]
      have hmem : d ∈ diffsOf (done ++ [.diff d]) := by simp
      exact absurd (H.valid d (feeds.mem_done h' hmem (inv.initial_le.trans_lt hd)).1) hbad
    · rw [hp]
      refine inv.advanced feeds h ?_
      rw [← Nat.not_le, ← inv.isStale_iff policy feeds h, hstale]
      exact Bool.false_ne_true
  | snapshot s =>
    have hcarried := feeds.carried s (Feeds.snapshot_mem h)
    have hadmits : k.Admits s := by
      refine ⟨hcarried.market.trans (inv.market.trans feeds.market).symm, hcarried.valid, ?_⟩
      intro d hd _
      rw [hrecent] at hd
      exact hvalid d (List.mem_of_mem_drop hd)
    rcases k.processSnapshot_cases policy s with ⟨hno, -⟩ | ⟨-, hp⟩
    · exact absurd hadmits hno
    · rw [hp, List.append_nil]
      exact inv.restored feeds h (inv.newer_eq feeds h hc hrecent)

end InStep

/-- The invariant holds after any part of the stream. -/
theorem Feeds.inStep {b : Book} {window : ℕ} {ms : List BookMessage} (feeds : H.Feeds b window ms)
    (policy : StalenessPolicy) {done rest : List BookMessage} (h : ms = done ++ rest) :
    H.InStep b done ((BookKeeper.ofBook b window).processAll policy done)
      ((BookKeeper.ofBook b window).accepted policy done) := by
  -- from the end, so that the invariant meets the messages in their order
  induction done using List.reverseRecOn generalizing rest with
  | nil => exact .init feeds
  | append_singleton done m ih =>
    have h' : ms = done ++ m :: rest := by simpa using h
    have hstep := (ih h').process policy feeds h' (Nat.le_max_left window 1)
      (BookKeeper.toList_recent_ofBook policy b window done)
    rw [BookKeeper.processAll_append, BookKeeper.accepted_append]
    simpa [BookKeeper.accepted] using hstep

/-- **A worker's book follows the history of its market.** After every message the book is
the one which the history has at the watermark, and the watermark is the newest sequence
number of all messages so far. -/
theorem same_bookAt_watermark (policy : StalenessPolicy) {w : Worker} {b : Book} {window : ℕ}
    (hw : w.keeper = .ofBook b window) (feeds : H.Feeds b window w.backlog)
    {done rest : List BookMessage} (h : w.backlog = done ++ rest) :
    (w.keeper.processAll policy done).book.Same
      (H.bookAt (w.keeper.processAll policy done).book.watermark) ∧
    (w.keeper.processAll policy done).book.watermark =
      newest b.watermark (done.map BookMessage.sequence) := by
  have inv := feeds.inStep policy h
  rw [hw]
  exact ⟨inv.same, inv.watermark⟩

/-! ### A snapshot that comes late

Three diffs, the first of which the first book covers. A snapshot at the second of them
comes behind the third, and a window of one diff is enough for it. -/

/-- A bid at 100. -/
def sampleBid (size : ℕ) : Level where
  price := (Decimal.ofParts? false 100 0).getD .zero
  size := (Decimal.ofParts? false size 0).getD .zero

/-- A diff that sets the size of the bid at 100. -/
def sampleDiff (n size : ℕ) : Diff where
  market := ⟨"BTC-USD"⟩
  sequence := n
  timestamp := default
  bids := [sampleBid size]
  asks := []

/-- A history of three diffs. -/
def sample : History where
  base := { Book.empty ⟨"BTC-USD"⟩ with snapshotSequence := 10 }
  diffs := [sampleDiff 11 1, sampleDiff 12 2, sampleDiff 13 3]
  ascending := by decide
  valid := by decide

/-- The snapshot of that history behind its second diff. -/
def sampleSnapshot : Snapshot where
  market := ⟨"BTC-USD"⟩
  sequence := 12
  timestamp := default
  bids := [sampleBid 2]
  asks := []

/-- A worker that has begun behind the first diff, and gets the snapshot last. -/
def sampleWorker : Worker where
  market := ⟨"BTC-USD"⟩
  run := 0
  keeper := .ofBook { sample.bookAt 11 with snapshotSequence := 11, lastDiff := none } 1
  pending := [sampleDiff 11 1, sampleDiff 12 2]
  queue := [.diff (sampleDiff 13 3), .snapshot sampleSnapshot]
  isCancelled := false
  stage := .running

theorem feeds_sample : sample.Feeds sampleWorker.keeper.book 1 sampleWorker.backlog where
  market := rfl
  initial := .refl _
  gapless := by decide
  carried := by
    intro s hs
    have hs : s ∈ [sampleSnapshot] := hs
    obtain rfl := List.mem_singleton.mp hs
    exact ⟨rfl, by decide, .refl _, .refl _⟩
  ascending := by decide
  notOlder := by decide
  retained := by
    intro done s rest h
    -- the snapshot is the last of the four messages
    rcases done with _ | ⟨_, _ | ⟨_, _ | ⟨_, _ | ⟨_, done⟩⟩⟩⟩ <;>
      simp [Worker.backlog, sampleWorker] at h
    obtain ⟨rfl, rfl, rfl, rfl, rfl⟩ := h
    decide

/-- The late snapshot does not take the book back. -/
theorem same_bookAt_sample :
    sampleWorker.keeper = .ofBook sampleWorker.keeper.book 1 ∧
      sample.Feeds sampleWorker.keeper.book 1 sampleWorker.backlog ∧
      (sampleWorker.keeper.processAll .snapshotOnly sampleWorker.backlog).book.Same
        (sample.bookAt 13) :=
  ⟨rfl, feeds_sample,
    (same_bookAt_watermark .snapshotOnly rfl feeds_sample (List.append_nil _).symm).1⟩

end History

end LiveBook
