import LiveBook.Proofs.Book.Keeper

/-!
# When a book goes back

A keeper moves the watermark of its book up, with one exception. A snapshot replaces the
whole book, also one that is older than the book; what brings the book forward again are
the remembered diffs, and there are only so many of them. So a snapshot takes the book
back if it is older than the watermark and the diffs that made the watermark are forgotten.

* `LiveBook.BookKeeper.watermark_process_snapshot` – the watermark that a snapshot leads to;
* `LiveBook.BookKeeper.watermark_lt_iff` – in every run just such snapshots lower the
  watermark.

That there are such runs is `LiveBook.BookKeeper.not_watermark_le`: a snapshot that is
older than the first book, when no diff has come yet, is enough.
-/

namespace LiveBook

namespace BookKeeper

variable (policy : StalenessPolicy)

/-- What is not newer than a snapshot does not count for the newest. -/
theorem newest_filter (n : ℕ) (ds : List Diff) :
    newest n ((ds.filter (n < ·.sequence)).map Diff.sequence) =
      newest n (ds.map Diff.sequence) := by
  refine Nat.le_antisymm (newest_le_iff.mpr ⟨le_newest _ _, ?_⟩)
    (newest_le_iff.mpr ⟨le_newest _ _, ?_⟩)
  · intro x hx
    obtain ⟨d, hd, rfl⟩ := List.mem_map.mp hx
    exact le_newest_of_mem (List.mem_map_of_mem (List.mem_filter.mp hd).1)
  · intro x hx
    obtain ⟨d, hd, rfl⟩ := List.mem_map.mp hx
    by_cases hn : n < d.sequence
    · exact le_newest_of_mem (List.mem_map_of_mem (List.mem_filter.mpr ⟨hd, by simpa using hn⟩))
    · exact (Nat.le_of_not_lt hn).trans (le_newest _ _)

/-- A diff never lowers the watermark. -/
theorem watermark_le_process_diff (k : BookKeeper) (d : Diff) :
    k.book.watermark ≤ (k.process policy (.diff d)).1.book.watermark := by
  rcases k.processDiff_cases policy d with ⟨-, h⟩ | ⟨-, -, e, h⟩ | ⟨-, -, h⟩ <;> rw [h]
  exact (Nat.le_max_left _ _).trans (Book.watermark_mergeDiff _ _ _ _).ge

/-- **What a snapshot makes of the watermark**: it becomes the newest of the snapshot and the
remembered diffs, wherever it was before. -/
theorem watermark_process_snapshot {k : BookKeeper} {s : Snapshot} (h : k.Admits s) :
    (k.process policy (.snapshot s)).1.book.watermark =
      newest s.sequence (k.recent.toList.map Diff.sequence) := by
  rcases k.processSnapshot_cases policy s with ⟨hno, -⟩ | ⟨-, hp⟩
  · exact absurd h hno
  · have hreplaced : (k.book.replaceLevels s.bids s.asks s.sequence).watermark = s.sequence :=
      Nat.max_eq_left (Nat.zero_le _)
    rw [hp, Book.restored, Book.watermark_mergeAll, hreplaced, newer, newest_filter]

/-- **When one message takes a book back**: if it is a snapshot that the keeper takes, older
than the watermark, and all diffs that are still remembered are older, too. -/
theorem watermark_process_lt_iff (k : BookKeeper) (m : BookMessage) :
    (k.process policy m).1.book.watermark < k.book.watermark ↔
      ∃ s, m = .snapshot s ∧ k.Admits s ∧ s.sequence < k.book.watermark ∧
        ∀ d ∈ k.recent.toList, d.sequence < k.book.watermark := by
  cases m with
  | diff d =>
    refine iff_of_false (Nat.not_lt.mpr (k.watermark_le_process_diff policy d)) ?_
    rintro ⟨s, hs, -⟩
    exact absurd hs (by simp)
  | snapshot s =>
    by_cases h : k.Admits s
    · rw [watermark_process_snapshot policy h, newest_lt_iff, List.forall_mem_map]
      constructor
      · rintro ⟨hs, hd⟩
        exact ⟨s, rfl, h, hs, hd⟩
      · rintro ⟨t, ht, -, hs, hd⟩
        obtain rfl := BookMessage.snapshot.inj ht
        exact ⟨hs, hd⟩
    · rcases k.processSnapshot_cases policy s with ⟨-, e, hp⟩ | ⟨hyes, -⟩
      · -- a snapshot that is refused leaves the book alone
        rw [hp]
        refine iff_of_false (Nat.lt_irrefl _) ?_
        rintro ⟨t, ht, hadmits, -⟩
        obtain rfl := BookMessage.snapshot.inj ht
        exact h hadmits
      · exact absurd hyes h

/-- **When a book goes back.** Along every run the watermark falls at a message exactly if
that is a snapshot which the keeper takes, older than the watermark, at a time when none of
the last diffs that were accepted, as many as the window holds, is as new as the watermark.
A snapshot that is taken sets the watermark to the newest of itself and these diffs. -/
theorem watermark_lt_iff (b : Book) (window : ℕ) (done : List BookMessage) (m : BookMessage) :
    (((ofBook b window).processAll policy (done ++ [m])).book.watermark <
        ((ofBook b window).processAll policy done).book.watermark ↔
      ∃ s, m = .snapshot s ∧ ((ofBook b window).processAll policy done).Admits s ∧
        s.sequence < ((ofBook b window).processAll policy done).book.watermark ∧
        ∀ d ∈ ((ofBook b window).accepted policy done).rtake (max window 1),
          d.sequence < ((ofBook b window).processAll policy done).book.watermark) ∧
    ∀ s, m = .snapshot s → ((ofBook b window).processAll policy done).Admits s →
      ((ofBook b window).processAll policy (done ++ [m])).book.watermark =
        newest s.sequence
          ((((ofBook b window).accepted policy done).rtake (max window 1)).map Diff.sequence) := by
  rw [processAll_append, ← toList_recent_ofBook]
  refine ⟨watermark_process_lt_iff policy _ m, ?_⟩
  rintro s rfl hadmits
  exact watermark_process_snapshot policy hadmits

/-- A window of one diff is not enough where diffs come out of order: it holds diff 102, so
a snapshot at 101 takes the book back to that from 103. -/
theorem watermark_falls :
    ((ofBook (.empty ⟨"BTC-USD"⟩) 1).processAll .snapshotOnly
        [.diff ⟨⟨"BTC-USD"⟩, 103, default, [], []⟩, .diff ⟨⟨"BTC-USD"⟩, 102, default, [], []⟩,
          .snapshot ⟨⟨"BTC-USD"⟩, 101, default, [], []⟩]).book.watermark < 103 ∧
      ((ofBook (.empty ⟨"BTC-USD"⟩) 1).processAll .snapshotOnly
        [.diff ⟨⟨"BTC-USD"⟩, 103, default, [], []⟩, .diff ⟨⟨"BTC-USD"⟩, 102, default, [], []⟩,
          .snapshot ⟨⟨"BTC-USD"⟩, 101, default, [], []⟩]).book.watermark = 102 := by
  have h := watermark_lt_iff .snapshotOnly (.empty ⟨"BTC-USD"⟩) 1
    [.diff ⟨⟨"BTC-USD"⟩, 103, default, [], []⟩, .diff ⟨⟨"BTC-USD"⟩, 102, default, [], []⟩]
    (.snapshot ⟨⟨"BTC-USD"⟩, 101, default, [], []⟩)
  exact ⟨h.1.mpr ⟨_, rfl, by decide, by decide, by decide⟩, h.2 _ rfl (by decide)⟩

/-- **A late snapshot does return a book to an older state.** -/
theorem not_watermark_le :
    ¬∀ (policy : StalenessPolicy) (b : Book) (window : ℕ) (done : List BookMessage)
      (m : BookMessage), ((ofBook b window).processAll policy done).book.watermark ≤
        ((ofBook b window).processAll policy (done ++ [m])).book.watermark := by
  intro h
  have hle := h .snapshotOnly { Book.empty ⟨"BTC-USD"⟩ with snapshotSequence := 100 } 32 []
    (.snapshot ⟨⟨"BTC-USD"⟩, 50, default, [], []⟩)
  exact absurd hle (by decide)

end BookKeeper

end LiveBook
