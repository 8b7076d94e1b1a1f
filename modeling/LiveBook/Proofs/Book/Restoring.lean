import LiveBook.Proofs.Book.Update

/-!
# A restore is all or nothing, and means replay

A restore puts a snapshot under the diffs that are newer than it. What can be wrong with it is
listed by `LiveBook.Book.objections`, in the order in which it is looked for: the market, then
every level of the newer diffs, then every level of the snapshot. A restore is refused exactly if
this list is not empty, with the first item as the reason, and the book is then as it was
(`LiveBook.BookUpdate.restores_or_refuses`). Else the book is the one that the snapshot and the
newer diffs make of it one by one. Diffs that are not newer play no part at all, however bad their
levels are.
-/

namespace LiveBook

open Time (Timestamp)

/-! ### What is wrong with levels -/

namespace Level

/-- A level with a price or a size below zero. -/
def IsNegative (l : Level) : Prop := l.price.value < 0 ∨ l.size.value < 0

theorem not_isValid_iff {l : Level} : ¬l.IsValid ↔ l.IsNegative := by
  rw [IsValid, IsNegative, ← Decimal.isNegative_iff, ← Decimal.isNegative_iff]
  cases l.price.isNegative <;> cases l.size.isNegative <;> simp

/-- What is wrong with a level, the price before the size. -/
def faults (l : Level) : List LevelFault :=
  (if l.price.value < 0 then [.negativePrice l.price] else []) ++
    if l.size.value < 0 then [.negativeSize l.size l.price] else []

end Level

theorem Book.levelFault?_eq_head? (levels : List Level) :
    levelFault? levels = (levels.flatMap Level.faults).head? := by
  induction levels with
  | nil => rfl
  | cons l levels ih =>
    rw [levelFault?, List.flatMap_cons, Level.faults, ih]
    simp only [← Decimal.isNegative_iff]
    cases l.price.isNegative <;> cases l.size.isNegative <;> rfl

/-! ### What is wrong with updates -/

/-- Refuses for the first of some reasons, if there is any. -/
def refuseFirst : List BookError → Except BookError Unit
  | [] => .ok ()
  | e :: _ => .error e

theorem refuseFirst_append (es fs : List BookError) :
    refuseFirst (es ++ fs) = refuseFirst es >>= fun _ => refuseFirst fs := by
  cases es <;> rfl

namespace Book

variable (b : Book)

/-- What is wrong with the levels of an update. -/
def levelObjections (n : ℕ) (levels : List Level) : List BookError :=
  (levels.flatMap Level.faults).map (.invalidLevel b.market n)

/-- What is wrong with diffs, one after the other. -/
def diffObjections (diffs : List Diff) : List BookError :=
  diffs.flatMap fun d => b.levelObjections d.sequence (d.bids ++ d.asks)

/-- **What is wrong with a restore**: that the snapshot is one of another market, the levels of the
newer diffs, and those of the snapshot; of each of these bids come before asks. -/
def objections (s : Snapshot) (recent : List Diff) : List BookError :=
  (if s.market = b.market then [] else [.marketMismatch b.market s.market]) ++
    b.diffObjections (recent.filter (s.sequence < ·.sequence)) ++
    b.levelObjections s.sequence (s.bids ++ s.asks)

theorem validate_eq_refuseFirst (bids asks : List Level) (n : ℕ) :
    b.validate bids asks n = refuseFirst (b.levelObjections n (bids ++ asks)) := by
  rw [validate, levelObjections, List.flatMap_append, levelFault?_eq_head?, levelFault?_eq_head?,
    ← List.head?_append]
  cases bids.flatMap Level.faults ++ asks.flatMap Level.faults <;> rfl

theorem validateAll_eq_refuseFirst (diffs : List Diff) :
    b.validateAll diffs = refuseFirst (b.diffObjections diffs) := by
  induction diffs with
  | nil => rfl
  | cons d diffs ih =>
    rw [validateAll, ih, validate_eq_refuseFirst]
    exact (refuseFirst_append _ _).symm

/-- **A restore is refused for its first objection,** and else succeeds. -/
theorem restore_eq_refuseFirst (s : Snapshot) (recent : List Diff) :
    b.restore s recent = (refuseFirst (b.objections s recent)).map fun _ =>
      (b.restored s (recent.filter (s.sequence < ·.sequence)),
        (recent.filter (s.sequence < ·.sequence)).length) := by
  rw [objections, refuseFirst_append, refuseFirst_append, ← validateAll_eq_refuseFirst,
    ← validate_eq_refuseFirst, restore]
  by_cases hm : s.market = b.market
  · simp only [hm, ne_eq, not_true_eq_false, if_false, if_true, applySnapshot]
    cases b.validateAll (recent.filter (s.sequence < ·.sequence)) with
    | error e => rfl
    | ok u => cases b.validate s.bids s.asks s.sequence <;> rfl
  · simp only [hm, ne_eq, not_false_eq_true, if_true, if_false]
    rfl

theorem head?_of_restore {s : Snapshot} {recent : List Diff} {e : BookError}
    (h : b.restore s recent = .error e) : (b.objections s recent).head? = some e := by
  rw [restore_eq_refuseFirst] at h
  cases hes : b.objections s recent with
  | nil => rw [hes] at h; cases h
  | cons e' es =>
    rw [hes] at h
    exact congrArg some (Except.error.inj h)

/-- **When a restore is refused**, in terms of what is below zero. -/
theorem restore_refused_iff (s : Snapshot) (recent : List Diff) :
    (∃ e, b.restore s recent = .error e) ↔
      s.market ≠ b.market ∨
      (∃ d ∈ recent, s.sequence < d.sequence ∧ ∃ l ∈ d.bids ++ d.asks, l.IsNegative) ∨
      ∃ l ∈ s.bids ++ s.asks, l.IsNegative := by
  have hno : (∃ e, b.restore s recent = .error e) ↔
      ¬(s.market = b.market ∧ s.IsValid ∧ ∀ d ∈ recent, s.sequence < d.sequence → d.IsValid) := by
    rcases b.restore_cases s recent with ⟨hno, herr⟩ | ⟨hyes, hok⟩
    · exact iff_of_true herr hno
    · exact iff_of_false (fun ⟨e, he⟩ => by rw [hok] at he; cases he) (not_not.mpr hyes)
  rw [hno, not_and_or, not_and_or]
  simp only [Snapshot.IsValid, Diff.IsValid, not_forall, Level.not_isValid_iff, exists_prop, ne_eq]
  exact or_congr Iff.rfl or_comm

/-! ### What diffs change -/

/-- **Diffs merged one after the other** change levels and the number of the last diff, which is
the greatest so far. -/
theorem mergeAll_eq (diffs : List Diff) :
    b.mergeAll diffs = { b with
      bids := b.bids.merge (diffs.flatMap Diff.bids)
      asks := b.asks.merge (diffs.flatMap Diff.asks)
      lastDiff := (b.lastDiff.toList ++ diffs.map Diff.sequence).max? } := by
  induction diffs generalizing b with
  | nil =>
    obtain ⟨m, bids, asks, n, last, p, t, r⟩ := b
    cases last <;> rfl
  | cons d diffs ih =>
    rw [mergeAll_cons, ih, mergeDiff_eq, List.flatMap_cons, List.flatMap_cons, Side.merge_append,
      Side.merge_append]
    cases b.lastDiff <;> rfl

theorem restored_eq (s : Snapshot) (newer : List Diff) :
    b.restored s newer = { b with
      bids := (Side.ofLevels s.bids).merge (newer.flatMap Diff.bids)
      asks := (Side.ofLevels s.asks).merge (newer.flatMap Diff.asks)
      snapshotSequence := s.sequence
      lastDiff := (newer.map Diff.sequence).max? } :=
  mergeAll_eq _ newer

end Book

namespace BookUpdate

/-- **A restore is all or nothing, and means replay.** It is refused exactly if the snapshot is one
of another market, or a diff that is newer than the snapshot, or the snapshot itself, has a price or
a size below zero. The reason given is the first of these, and the book is as it was. Else the
result is the number of diffs that are newer, and the book is the one that is left by the snapshot
and then these diffs, in their order; the number of its last diff is the greatest of theirs, and
what it knows of trades stays. This is also what the function on books gives. -/
theorem restores_or_refuses (clock : ℕ → Timestamp) (s : Snapshot) (recent : List Diff)
    (st : StampedBook) :
    ((∃ e, ((restore clock s recent).perform st).1 = .error e) ↔
      s.market ≠ st.book.market ∨
      (∃ d ∈ recent, s.sequence < d.sequence ∧ ∃ l ∈ d.bids ++ d.asks, l.IsNegative) ∨
      ∃ l ∈ s.bids ++ s.asks, l.IsNegative) ∧
    (∀ e, ((restore clock s recent).perform st).1 = .error e →
      (st.book.objections s recent).head? = some e ∧ st.book.restore s recent = .error e ∧
        ((restore clock s recent).perform st).2 = st) ∧
    ∀ n, ((restore clock s recent).perform st).1 = .ok n →
      n = (recent.filter (s.sequence < ·.sequence)).length ∧
      ∃ st', ((restore clock s recent).perform st).2 = st' ∧
        st.book.restore s recent = .ok (st'.book, n) ∧
        (do snapshot s.bids s.asks s.sequence (clock 0)
            replay clock 1 (recent.filter (s.sequence < ·.sequence))).perform st = (.ok (), st') ∧
        st'.book = { st.book with
          bids := st'.book.bids
          asks := st'.book.asks
          snapshotSequence := s.sequence
          lastDiff := ((recent.filter (s.sequence < ·.sequence)).map Diff.sequence).max? } := by
  rcases perform_restore st clock s recent with
    ⟨e, he, hrefused⟩ | ⟨st', hok, hbook, hreplay, hdone⟩
  · rw [hrefused]
    refine ⟨?_, fun e' he' => ?_, fun n hn => by cases hn⟩
    · exact iff_of_true ⟨e, rfl⟩ ((st.book.restore_refused_iff s recent).mp ⟨e, he⟩)
    · obtain rfl := Except.error.inj he'
      exact ⟨st.book.head?_of_restore he, he, rfl⟩
  · rw [hdone]
    refine ⟨?_, fun e he => (by cases he), fun n hn => ?_⟩
    · refine iff_of_false (fun ⟨e, he⟩ => by cases he) fun h => ?_
      obtain ⟨e, he⟩ := (st.book.restore_refused_iff s recent).mpr h
      rw [hok] at he
      cases he
    · obtain rfl := Except.ok.inj hn
      refine ⟨rfl, st', rfl, hok, hreplay, ?_⟩
      rw [hbook, Book.restored_eq]

/-! ### A restore with several faults, and one without

The first diff is not newer than the snapshot, so its bid does not matter. The bid of the snapshot
does, but the ask of the last diff comes before it. -/

/-- A snapshot with one bid. -/
def oneBid (bid : Level) : Snapshot := ⟨⟨"BTC-USD"⟩, 12, default, [bid], []⟩

/-- Three diffs, the first of which the snapshot covers. -/
def threeDiffs : List Diff :=
  [⟨⟨"BTC-USD"⟩, 12, default, [.belowZero], []⟩,
   ⟨⟨"BTC-USD"⟩, 13, default, [.scaled 99 0 5], []⟩,
   ⟨⟨"BTC-USD"⟩, 14, default, [.scaled 98 0 1], [.belowZero]⟩]

/-- The first restore is refused for the last diff and changes nothing, the second one, without that
diff, succeeds. -/
theorem restores_or_refuses_sample :
    (restore (fun _ => default) (oneBid .belowZero) threeDiffs).perform ⟨.twoBids, default⟩ =
      (.error (.invalidLevel ⟨"BTC-USD"⟩ 14 (.negativePrice Level.belowZero.price)),
        ⟨.twoBids, default⟩) ∧
    ∃ st', (restore (fun _ => default) (oneBid (.scaled 1000 1 2)) (threeDiffs.take 2)).perform
        ⟨.twoBids, default⟩ = (.ok 1, st') ∧
      st'.book.lastDiff = some 13 ∧ st'.book.bids = [.scaled 99 0 5, .scaled 1000 1 2] := by
  obtain ⟨-, hrefused, -⟩ :=
    restores_or_refuses (fun _ => default) (oneBid .belowZero) threeDiffs ⟨.twoBids, default⟩
  obtain ⟨-, -, hdone⟩ := restores_or_refuses (fun _ => default) (oneBid (.scaled 1000 1 2))
    (threeDiffs.take 2) ⟨.twoBids, default⟩
  obtain ⟨-, st', hst, -, -, hbook⟩ := hdone 1 rfl
  refine ⟨Prod.ext rfl (hrefused _ rfl).2.2, st', Prod.ext rfl hst, ?_, ?_⟩
  · rw [hbook]
    rfl
  · rw [← hst]
    decide

end BookUpdate

end LiveBook
