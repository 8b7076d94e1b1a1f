import LiveBook.Proofs.Book.Watermark

/-!
# The order of the diffs under the strict policy

Under the strict policy a keeper accepts a diff only if it is newer than the watermark. That
alone does not keep the accepted diffs in order, since a snapshot may take the watermark
back: it may be as old as it likes, and it makes the book forget the last diff that was
applied. What helps is the window. A snapshot applies the remembered diffs again, and the
last diff that was accepted is always among them, even if there is room for one only. So
the watermark never falls below what was accepted.

* `LiveBook.BookKeeper.Reflects` – the watermark is not below any diff accepted so far;
* `LiveBook.BookKeeper.Ascending.process` – every message keeps that, and the order of the
  accepted diffs;
* `LiveBook.BookKeeper.accepted_in_order` – so in every run the accepted diffs, and those
  in the window at any time, are in strictly ascending order.
-/

namespace LiveBook

/-- The end of a list in ascending order has something as great as any of its items. -/
theorem exists_le_of_mem_rtake {α : Type} {f : α → ℕ} {c : ℕ} {xs : List α} (hc : 0 < c)
    (hs : xs.Pairwise (f · < f ·)) {x : α} (hx : x ∈ xs) : ∃ y ∈ xs.rtake c, f x ≤ f y := by
  have hsplit : xs.take (xs.length - c) ++ xs.rtake c = xs := List.take_append_drop _ _
  have hpos : 0 < (xs.rtake c).length := by
    have := List.length_pos_of_mem hx
    rw [List.rtake, List.length_drop]
    omega
  obtain ⟨y, hy⟩ := List.exists_mem_of_length_pos hpos
  rw [← hsplit] at hx hs
  rcases List.mem_append.mp hx with hx | hx
  · exact ⟨y, hy, ((List.pairwise_append.mp hs).2.2 x hx y hy).le⟩
  · exact ⟨x, hx, le_rfl⟩

namespace BookKeeper

variable {k : BookKeeper} {ds : List Diff}

/-- The watermark is not below any of the diffs that were accepted so far. -/
def Reflects (k : BookKeeper) (ds : List Diff) : Prop := ∀ d ∈ ds, d.sequence ≤ k.book.watermark

/-- **What holds of a keeper under the strict policy** when it has accepted some diffs: they are
in strictly ascending order, the book reflects them, and the window holds the last of
them. -/
structure Ascending (k : BookKeeper) (capacity : ℕ) (ds : List Diff) : Prop where
  order : ds.Pairwise (·.sequence < ·.sequence)
  reflects : k.Reflects ds
  window : k.recent.toList = ds.rtake capacity

/-- **A snapshot does not take the book behind what was accepted**: the newest of that is in the
window, and is applied again. -/
theorem Ascending.reflects_snapshot {capacity : ℕ} (h : k.Ascending capacity ds)
    (hc : 0 < capacity) (s : Snapshot) :
    (k.process .strictlyIncreasing (.snapshot s)).1.Reflects ds := by
  intro d hd
  by_cases hs : k.Admits s
  · obtain ⟨e, he, hle⟩ := exists_le_of_mem_rtake hc h.order hd
    rw [watermark_process_snapshot .strictlyIncreasing hs, h.window]
    exact hle.trans (le_newest_of_mem (List.mem_map_of_mem he))
  · rcases k.processSnapshot_cases .strictlyIncreasing s with ⟨-, e, hp⟩ | ⟨hyes, -⟩
    · rw [hp]
      exact h.reflects d hd
    · exact absurd hyes hs

/-- **One message keeps the order.** -/
theorem Ascending.process {capacity : ℕ} (h : k.Ascending capacity ds) (hc : 0 < capacity)
    (m : BookMessage) (hwindow : (k.process .strictlyIncreasing m).1.recent.toList =
      (ds ++ k.acceptedNow .strictlyIncreasing m).rtake capacity) :
    (k.process .strictlyIncreasing m).1.Ascending capacity
      (ds ++ k.acceptedNow .strictlyIncreasing m) := by
  refine ⟨?_, ?_, hwindow⟩ <;> unfold acceptedNow
  · cases m with
    | snapshot s => simpa using h.order
    | diff d =>
      rcases k.processDiff_cases .strictlyIncreasing d with ⟨-, hp⟩ | ⟨-, -, e, hp⟩ | ⟨hs, -, hp⟩
      · simpa [hp] using h.order
      · simpa [hp] using h.order
      · -- it is newer than the watermark, and so than all that was accepted
        have hlt : k.book.watermark < d.sequence := by
          rw [← Nat.not_le, ← Book.isStale_strictlyIncreasing, hs]
          exact Bool.false_ne_true
        rw [hp]
        refine List.pairwise_append.mpr ⟨h.order, List.pairwise_singleton _ _, ?_⟩
        intro e he d' hd'
        obtain rfl := List.mem_singleton.mp hd'
        exact (h.reflects e he).trans_lt hlt
  · cases m with
    | snapshot s => simpa using h.reflects_snapshot hc s
    | diff d =>
      have hup := k.watermark_le_process_diff .strictlyIncreasing d
      have hold : (k.process .strictlyIncreasing (.diff d)).1.Reflects ds :=
        fun e he => (h.reflects e he).trans hup
      rcases k.processDiff_cases .strictlyIncreasing d with ⟨-, hp⟩ | ⟨-, -, e, hp⟩ | ⟨-, -, hp⟩
      · simpa [hp] using hold
      · simpa [hp] using hold
      · rw [hp] at hold ⊢
        intro e he
        rcases List.mem_append.mp he with he | he
        · exact hold e he
        · obtain rfl := List.mem_singleton.mp he
          exact (Nat.le_max_right _ _).trans (Book.watermark_mergeDiff _ _ _ _).ge

/-- The order holds after any messages. -/
theorem ascending_processAll (b : Book) (window : ℕ) (ms : List BookMessage) :
    ((ofBook b window).processAll .strictlyIncreasing ms).Ascending (max window 1)
      ((ofBook b window).accepted .strictlyIncreasing ms) := by
  induction ms using List.reverseRecOn with
  | nil => exact ⟨.nil, fun d hd => absurd hd List.not_mem_nil, (List.rtake_nil _).symm⟩
  | append_singleton ms m ih =>
    have hwindow := toList_recent_ofBook .strictlyIncreasing b window (ms ++ [m])
    have haccepted : (ofBook b window).accepted .strictlyIncreasing (ms ++ [m]) =
        (ofBook b window).accepted .strictlyIncreasing ms ++
          ((ofBook b window).processAll .strictlyIncreasing ms).acceptedNow
            .strictlyIncreasing m := by
      rw [accepted_append, accepted, accepted, List.append_nil]
    rw [haccepted, processAll_append, processAll_cons, processAll_nil] at hwindow ⊢
    exact ih.process (Nat.lt_of_lt_of_le Nat.one_pos (Nat.le_max_right window 1)) m hwindow

/-- **Under the strict policy the order is never violated.** Whatever messages have come, from
whatever book and with whatever window: the diffs that were accepted are in strictly ascending
order, so that none was accepted twice; and those in the window are so, too, and not newer
than the watermark. -/
theorem accepted_in_order (b : Book) (window : ℕ) (ms : List BookMessage) :
    let k := (ofBook b window).processAll .strictlyIncreasing ms
    let accepted := (ofBook b window).accepted .strictlyIncreasing ms
    accepted.Pairwise (·.sequence < ·.sequence) ∧ accepted.Nodup ∧
      k.recent.toList.Pairwise (·.sequence < ·.sequence) ∧
      ∀ d ∈ k.recent.toList, d.sequence ≤ k.book.watermark := by
  intro k accepted
  have h : k.Ascending (max window 1) accepted := ascending_processAll b window ms
  have hsub : k.recent.toList.Sublist accepted := h.window ▸ List.drop_sublist _ _
  refine ⟨h.order, ?_, h.order.sublist hsub, fun d hd => h.reflects d (hsub.subset hd)⟩
  refine h.order.imp fun {d e} hlt heq => ?_
  rw [heq] at hlt
  exact Nat.lt_irrefl _ hlt

/-- A window of one diff, and a snapshot that is older than the first book: the diff at 12, which
comes again after it, is not accepted again, as the window has made the book reflect it. -/
theorem accepted_in_order_redelivered :
    let diff (n : ℕ) : BookMessage := .diff ⟨⟨"BTC-USD"⟩, n, default, [], []⟩
    let ms := [diff 11, diff 12, .snapshot ⟨⟨"BTC-USD"⟩, 5, default, [], []⟩, diff 12, diff 13]
    let first := ofBook { Book.empty ⟨"BTC-USD"⟩ with snapshotSequence := 10 } 1
    (first.accepted .strictlyIncreasing ms).map Diff.sequence = [11, 12, 13] ∧
      (first.accepted .strictlyIncreasing ms).Nodup ∧
      ⟨⟨"BTC-USD"⟩, 13, default, [], []⟩ ∈
        (first.processAll .strictlyIncreasing ms).recent.toList ∧
      13 ≤ (first.processAll .strictlyIncreasing ms).book.watermark := by
  intro diff ms first
  have h := accepted_in_order { Book.empty ⟨"BTC-USD"⟩ with snapshotSequence := 10 } 1 ms
  have hmem : (⟨⟨"BTC-USD"⟩, 13, default, [], []⟩ : Diff) ∈
      (first.processAll .strictlyIncreasing ms).recent.toList := by decide
  exact ⟨by decide, h.2.1, hmem, h.2.2.2 _ hmem⟩

end BookKeeper

end LiveBook
