import LiveBook.Proofs.Book.Merging

/-!
# Levels as a snapshot and levels as a diff

A snapshot and a diff may carry the same levels. The diff makes one change after the other; the
snapshot leaves out what has size zero, and of the rest the last level at a price counts. So a
level of size zero undoes what stands before it in a diff, and does nothing in a snapshot.

* `LiveBook.Side.find?_ofLevels` – the level at each price of a side that is built from a list;
* `LiveBook.Side.ofLevels_perm` – the order of the list does not matter if no price is named
  twice;
* `LiveBook.Side.same_merge_iff` – on an empty side a diff leads to the same levels exactly if
  size zero is the last word at a price only where it is the only one;
* `LiveBook.Book.built_of_applySnapshot` – the same for books.
-/

namespace LiveBook

namespace Side

variable {s : Side} {p : Decimal} {levels levels' : List Level}

/-! ### The levels of a snapshot -/

/-- The levels at a price that have a size. -/
def sizedAt (p : Decimal) (levels : List Level) : List Level :=
  (changesAt p levels).filter (!·.size.isZero)

theorem sizedAt_concat (p : Decimal) (levels : List Level) (l : Level) :
    sizedAt p (levels ++ [l]) =
      if l.price.value = p.value ∧ l.size.isZero = false then sizedAt p levels ++ [l]
      else sizedAt p levels := by
  unfold sizedAt
  rw [changesAt_concat]
  by_cases hl : l.price.value = p.value
  · cases hz : l.size.isZero <;> simp [hl, hz]
  · simp [hl]

theorem ofLevels_concat (levels : List Level) (l : Level) :
    ofLevels (levels ++ [l]) =
      if l.size.isZero then ofLevels levels else (ofLevels levels).replace l := by
  unfold ofLevels
  cases hz : l.size.isZero <;> simp [hz]

theorem isAscending_ofLevels (levels : List Level) : (ofLevels levels).IsAscending := by
  induction levels using List.reverseRecOn with
  | nil => exact List.Pairwise.nil
  | append_singleton levels l ih =>
    rw [ofLevels_concat]
    split
    · exact ih
    · exact ih.replace l

/-- **The level at a price of a snapshot** is the last one there that has a size, as it is
written. -/
theorem find?_ofLevels (levels : List Level) (p : Decimal) :
    (ofLevels levels).find? p = (sizedAt p levels).getLast? := by
  induction levels using List.reverseRecOn with
  | nil => rfl
  | append_singleton levels l ih =>
    rw [ofLevels_concat, sizedAt_concat]
    cases hz : l.size.isZero with
    | true => simpa using ih
    | false =>
      rw [if_neg Bool.false_ne_true, (isAscending_ofLevels levels).find?_replace, ih]
      by_cases hl : l.price.value = p.value
      · rw [if_pos hl, if_pos ⟨hl, rfl⟩, List.getLast?_concat]
      · rw [if_neg hl, if_neg fun h => hl h.1]

/-- **A list that names no price twice,** by value. -/
def NamesOnce (levels : List Level) : Prop := levels.Pairwise (·.price.value ≠ ·.price.value)

/-- Such a list has no two levels at one price. -/
theorem NamesOnce.changesAt (h : NamesOnce levels) (p : Decimal) :
    Side.changesAt p levels = [] ∨ ∃ l, Side.changesAt p levels = [l] := by
  have hsub : NamesOnce (Side.changesAt p levels) := h.sublist List.filter_sublist
  have hprice : ∀ l ∈ Side.changesAt p levels, l.price.value = p.value := fun l hl =>
    Decimal.sameValue_iff.mp (List.mem_filter.mp hl).2
  match hc : Side.changesAt p levels with
  | [] => exact .inl rfl
  | [l] => exact .inr ⟨l, rfl⟩
  | x :: y :: ls =>
    rw [hc] at hsub hprice
    have hxy := List.rel_of_pairwise_cons hsub List.mem_cons_self
    exact absurd ((hprice x (by simp)).trans (hprice y (by simp)).symm) hxy

/-- **The order of the levels does not matter** if no price is named twice. -/
theorem ofLevels_perm (h : NamesOnce levels) (hperm : levels.Perm levels') :
    ofLevels levels = ofLevels levels' := by
  refine ext_find? (isAscending_ofLevels _) (isAscending_ofLevels _) fun p => ?_
  have hp : (changesAt p levels).Perm (changesAt p levels') := hperm.filter _
  have heq : changesAt p levels = changesAt p levels' := by
    rcases h.changesAt p with hnil | ⟨l, hl⟩
    · rw [hnil] at hp ⊢
      exact (List.nil_perm.mp hp).symm
    · rw [hl] at hp ⊢
      exact List.singleton_perm.mp hp
  rw [find?_ofLevels, find?_ofLevels, sizedAt, sizedAt, heq]

/-! ### The same levels as a diff -/

/-- **Where a snapshot and a diff agree on levels**: at each price the last of them has a size, or
none of them has. -/
def Agrees (levels : List Level) : Prop :=
  ∀ p, (∃ l, (changesAt p levels).getLast? = some l ∧ l.size.value ≠ 0) ∨
    ∀ l ∈ changesAt p levels, l.size.value = 0

/-- At one price the two sizes are the same exactly if the levels there agree. -/
theorem sizeValue?_ofLevels_iff (levels : List Level) (p : Decimal) :
    (ofLevels levels).sizeValue? p = (merge [] levels).sizeValue? p ↔
      (∃ l, (changesAt p levels).getLast? = some l ∧ l.size.value ≠ 0) ∨
        ∀ l ∈ changesAt p levels, l.size.value = 0 := by
  have hnil : IsAscending [] := List.Pairwise.nil
  rw [sizeValue?, sizeValue?, size?, find?_ofLevels, hnil.size?_merge, sizedAt]
  rcases List.eq_nil_or_concat' (changesAt p levels) with hc | ⟨ls, l, hc⟩
  · rw [hc]
    exact iff_of_true rfl (.inr fun _ h => absurd h List.not_mem_nil)
  · rw [hc, List.getLast?_concat, List.filter_append]
    by_cases hz : l.size.value = 0
    · -- the diff takes the level away, and so nothing may be left of it in the snapshot
      have hlast : ¬∃ l', some l = some l' ∧ l'.size.value ≠ 0 := by
        rintro ⟨l', hl, hne⟩
        exact hne (Option.some.inj hl ▸ hz)
      rw [or_iff_right hlast, List.forall_mem_append, List.forall_mem_singleton, and_iff_left hz]
      simp [Decimal.isZero_iff.mpr hz, Decimal.isZero_iff]
    · have hzero := Bool.eq_false_of_not_eq_true (mt Decimal.isZero_iff.mp hz)
      refine iff_of_true ?_ (.inl ⟨l, rfl, hz⟩)
      simp [hzero]

/-- **On an empty side a diff leads to the levels of the snapshot** exactly where the two agree. -/
theorem same_merge_iff (levels : List Level) :
    (ofLevels levels).Same (merge [] levels) ↔ Agrees levels := by
  have hnil : IsAscending [] := List.Pairwise.nil
  rw [same_iff_size? (isAscending_ofLevels levels) (hnil.merge levels)]
  exact forall_congr' (sizeValue?_ofLevels_iff levels)

/-- **A side that was built from levels,** price by price. -/
structure Built (levels : List Level) (s : Side) : Prop where
  /-- No price stands on the side twice. -/
  ascending : s.IsAscending
  /-- At each price stands the last of the levels there that have a size, as it is written. -/
  level : ∀ p, s.find? p =
    (levels.filter fun l => l.price.value = p.value ∧ l.size.value ≠ 0).getLast?

theorem sizedAt_eq_filter (p : Decimal) (levels : List Level) :
    sizedAt p levels = levels.filter fun l => l.price.value = p.value ∧ l.size.value ≠ 0 := by
  unfold sizedAt changesAt
  rw [List.filter_filter]
  refine List.filter_congr fun l _ => ?_
  rw [Bool.eq_iff_iff, Bool.and_eq_true, Bool.not_eq_true', ← Bool.not_eq_true,
    Decimal.sameValue_iff, Decimal.isZero_iff, decide_eq_true_eq, and_comm]

theorem built_ofLevels (levels : List Level) : Built levels (ofLevels levels) where
  ascending := isAscending_ofLevels levels
  level p := by rw [find?_ofLevels, sizedAt_eq_filter]

end Side

/-! ### Snapshots -/

namespace Book

variable {b : Book} {bids asks : List Level} {n : ℕ}

/-- A book takes the snapshots of valid levels. -/
theorem applySnapshot_eq_ok_iff {c : Book} :
    b.applySnapshot bids asks n = .ok c ↔
      (∀ l ∈ bids ++ asks, l.IsValid) ∧ c = b.replaceLevels bids asks n := by
  rw [← validate_eq_ok_iff (b := b) (n := n), applySnapshot]
  cases b.validate bids asks n with
  | error e => simp [bind, Except.bind]
  | ok u => simp [bind, Except.bind, pure, Except.pure, eq_comm]

/-- **What a snapshot makes of a book.** A book takes every snapshot of valid levels, and then has
at each price the last level there that has a size, as it is written in the snapshot. So it does
not matter what the book was before, nor, on a side whose prices are named once, in which order
the levels come. A diff with the same levels makes the same of an empty side, by value, exactly
if at each price the last level has a size or none has. -/
theorem built_of_applySnapshot (valid : ∀ l ∈ bids ++ asks, l.IsValid) (b : Book) (n : ℕ) :
    ∃ c, b.applySnapshot bids asks n = .ok c ∧
      Side.Built bids c.bids ∧ Side.Built asks c.asks ∧
      (∀ b' m c', applySnapshot b' bids asks m = .ok c' → c'.bids = c.bids ∧ c'.asks = c.asks) ∧
      (∀ bids' asks', bids.Perm bids' → asks.Perm asks' →
        ∃ c', b.applySnapshot bids' asks' n = .ok c' ∧
          (Side.NamesOnce bids → c'.bids = c.bids) ∧ (Side.NamesOnce asks → c'.asks = c.asks)) ∧
      ∀ m k, ∃ d, (empty m).applyDiff bids asks k = .ok d ∧
        (c.bids.Same d.bids ↔ Side.Agrees bids) ∧ (c.asks.Same d.asks ↔ Side.Agrees asks) := by
  refine ⟨b.replaceLevels bids asks n, applySnapshot_eq_ok_iff.mpr ⟨valid, rfl⟩,
    Side.built_ofLevels bids, Side.built_ofLevels asks, ?_, ?_, ?_⟩
  · intro b' m c' hc'
    rw [(applySnapshot_eq_ok_iff.mp hc').2]
    exact ⟨rfl, rfl⟩
  · intro bids' asks' hbids hasks
    have valid' : ∀ l ∈ bids' ++ asks', l.IsValid := fun l hl =>
      valid l ((hbids.append hasks).mem_iff.mpr hl)
    exact ⟨_, applySnapshot_eq_ok_iff.mpr ⟨valid', rfl⟩,
      fun once => (Side.ofLevels_perm once hbids).symm,
      fun once => (Side.ofLevels_perm once hasks).symm⟩
  · intro m k
    exact ⟨_, applyDiff_eq_ok_iff.mpr ⟨valid, rfl⟩, Side.same_merge_iff bids,
      Side.same_merge_iff asks⟩

/-! ### Levels on which a snapshot and a diff do not agree

The bid at 100 has size zero in the end, but not always; the ask at 101 has size zero in the
beginning. -/

/-- Bids of which a snapshot and a diff make different sides. -/
def undoneBids : List Level :=
  [.scaled 1000 1 2, .scaled 10000 2 5, .scaled 100 0 0, .scaled 99 0 0]

/-- Asks of which both make the same. -/
def redoneAsks : List Level := [.scaled 101 0 0, .scaled 1010 1 3, .scaled 102 0 4]

/-- The snapshot has a bid, as the last level with a size is written, and the diff has none; the
asks are the same. -/
theorem built_of_applySnapshot_undone :
    (∀ l ∈ undoneBids ++ redoneAsks, l.IsValid) ∧
      ∃ c d, twoBids.applySnapshot undoneBids redoneAsks 12 = .ok c ∧
        (empty ⟨"BTC-USD"⟩).applyDiff undoneBids redoneAsks 12 = .ok d ∧
        c.bids = [.scaled 10000 2 5] ∧ d.bids = [] ∧ ¬Side.Agrees undoneBids ∧
        c.asks.Same d.asks ∧ Side.Agrees redoneAsks := by
  have valid : ∀ l ∈ undoneBids ++ redoneAsks, l.IsValid := by decide
  obtain ⟨c, hc, -, -, -, -, hdiff⟩ := built_of_applySnapshot valid twoBids 12
  obtain ⟨d, hd, hbids, hasks⟩ := hdiff ⟨"BTC-USD"⟩ 12
  have hcbids : c.bids = [.scaled 10000 2 5] := by rw [(applySnapshot_eq_ok_iff.mp hc).2]; decide
  have hdbids : d.bids = [] := by rw [(applyDiff_eq_ok_iff.mp hd).2]; decide
  have hsame : c.asks = d.asks := by
    rw [(applySnapshot_eq_ok_iff.mp hc).2, (applyDiff_eq_ok_iff.mp hd).2]
    decide
  refine ⟨valid, c, d, hc, hd, hcbids, hdbids, fun hagrees => ?_, hsame ▸ .refl _,
    hasks.mp (hsame ▸ .refl _)⟩
  have hnone := hbids.mpr hagrees
  rw [hcbids, hdbids] at hnone
  cases hnone

end Book

end LiveBook
