import LiveBook.Book.View
import LiveBook.Proofs.Book.Update

/-!
# The shape of a book

Whatever is done to a book, and however often it refuses, its sides keep their shape: the levels
are in ascending order of price, by value, with prices that are not below zero and sizes above
zero (`LiveBook.Side.IsSound`). This is a matter of one change and one level that is put in place;
everything else consists of these.

What a reader of the book relies on follows from the shape (`LiveBook.Book.Proper`). So it holds of
every book that comes about by calls (`LiveBook.StampedBook.proper_afterAll`).
-/

namespace LiveBook

/-! ### Sides -/

/-- A level that may stand on a side: its price is not below zero, and its size is above. -/
def Level.Stands (l : Level) : Prop := 0 ≤ l.price.value ∧ 0 < l.size.value

theorem Level.stands_of_isValid {l : Level} (valid : l.IsValid) (sized : l.size.isZero = false) :
    l.Stands := by
  have hprice := mt Decimal.isNegative_iff.mpr (Bool.not_eq_true _ ▸ valid.1)
  have hsize := mt Decimal.isNegative_iff.mpr (Bool.not_eq_true _ ▸ valid.2)
  have hzero := mt Decimal.isZero_iff.mpr (Bool.not_eq_true _ ▸ sized)
  exact ⟨not_lt.mp hprice, lt_of_le_of_ne (not_lt.mp hsize) (Ne.symm hzero)⟩

namespace Side

variable {s : Side} {l : Level} {p : Decimal}

/-- **A side in its shape.** -/
structure IsSound (s : Side) : Prop where
  ascending : s.IsAscending
  stands : ∀ l ∈ s, l.Stands

theorem isSound_nil : IsSound [] := ⟨List.Pairwise.nil, fun _ h => absurd h List.not_mem_nil⟩

/-- One change keeps the shape: it takes a level away, or puts one there that has a size. -/
theorem IsSound.change (h : s.IsSound) (valid : l.IsValid) : (s.change l).IsSound := by
  refine ⟨h.ascending.change l, fun x hx => ?_⟩
  unfold Side.change at hx
  split at hx
  next => exact h.stands x (List.mem_of_mem_filter hx)
  next hz =>
    have hl := Level.stands_of_isValid valid (Bool.eq_false_of_not_eq_true hz)
    rcases mem_place hx with rfl | hx | ⟨y, hy, -, rfl⟩
    · exact hl
    · exact h.stands x hx
    · exact ⟨(h.stands y hy).1, hl.2⟩

theorem IsSound.merge (h : s.IsSound) {changes : List Level} (valid : ∀ l ∈ changes, l.IsValid) :
    (s.merge changes).IsSound := by
  induction changes generalizing s with
  | nil => exact h
  | cons l changes ih =>
    obtain ⟨hl, hchanges⟩ := List.forall_mem_cons.mp valid
    exact ih (h.change hl) hchanges

theorem isSound_ofLevels {levels : List Level} (valid : ∀ l ∈ levels, l.IsValid) :
    (ofLevels levels).IsSound := by
  refine ⟨isAscending_ofLevels levels, fun x hx => ?_⟩
  -- what stands at a price is one of the levels there that have a size
  have hfind := (isAscending_ofLevels levels).find?_eq_some_iff.mpr ⟨hx, rfl⟩
  rw [find?_ofLevels] at hfind
  obtain ⟨hmem, hsized⟩ := List.mem_filter.mp (List.mem_of_getLast? hfind)
  exact Level.stands_of_isValid (valid x (List.mem_of_mem_filter hmem)) (by simpa using hsized)

/-- A level that stands on a side is valid and has a size. -/
theorem IsSound.isValid (h : s.IsSound) : ∀ l ∈ s, l.IsValid ∧ l.size.isZero = false := by
  intro l hl
  obtain ⟨hprice, hsize⟩ := h.stands l hl
  refine ⟨⟨?_, ?_⟩, ?_⟩ <;> refine Bool.eq_false_of_not_eq_true fun hb => ?_
  · exact absurd (Decimal.isNegative_iff.mp hb) (not_lt.mpr hprice)
  · exact absurd (Decimal.isNegative_iff.mp hb) (not_lt.mpr hsize.le)
  · exact hsize.ne' (Decimal.isZero_iff.mp hb)

/-- **A side is what its own levels are built into,** in whatever order they are given. -/
theorem IsSound.ofLevels_perm (h : s.IsSound) {levels : List Level} (hperm : levels.Perm s) :
    ofLevels levels = s := by
  have once : NamesOnce s := h.ascending.imp fun hlt => hlt.ne
  rw [← Side.ofLevels_perm once hperm.symm]
  refine ext_find? (isAscending_ofLevels s) h.ascending fun p => ?_
  have hsized : sizedAt p s = changesAt p s := List.filter_eq_self.mpr fun l hl => by
    rw [(h.isValid l (List.mem_of_mem_filter hl)).2]
    rfl
  have hfind : s.find? p = (changesAt p s).head? := (List.head?_filter ..).symm
  rw [find?_ofLevels, hsized, hfind]
  -- there is at most one level at the price, so the first is the last
  rcases once.changesAt p with hnil | ⟨l, hl⟩
  · rw [hnil]
    rfl
  · rw [hl]
    rfl

/-! ### The best level -/

theorem IsAscending.eq_of_value {x y : Level} (h : s.IsAscending) (hx : x ∈ s) (hy : y ∈ s)
    (hxy : x.price.value = y.price.value) : x = y :=
  Option.some.inj <|
    (h.find?_eq_some_iff.mpr ⟨hx, hxy⟩).symm.trans (h.find?_eq_some_iff.mpr ⟨hy, rfl⟩)

/-- The first level is the one with the least price. -/
theorem IsAscending.head?_eq_some_iff (h : s.IsAscending) :
    s.head? = some l ↔ l ∈ s ∧ ∀ x ∈ s, l.price.value ≤ x.price.value := by
  cases s with
  | nil => simp
  | cons y s =>
    have hleast : ∀ x ∈ y :: s, y.price.value ≤ x.price.value := fun x hx => by
      rcases List.mem_cons.mp hx with rfl | hx
      · exact le_rfl
      · exact (List.rel_of_pairwise_cons h hx).le
    rw [List.head?_cons, Option.some.injEq]
    constructor
    · rintro rfl
      exact ⟨List.mem_cons_self, hleast⟩
    · rintro ⟨hl, hbelow⟩
      exact h.eq_of_value List.mem_cons_self hl
        ((hleast l hl).antisymm (hbelow y List.mem_cons_self))

/-- The last level is the one with the greatest price. -/
theorem IsAscending.getLast?_eq_some_iff (h : s.IsAscending) :
    s.getLast? = some l ↔ l ∈ s ∧ ∀ x ∈ s, x.price.value ≤ l.price.value := by
  rcases List.eq_nil_or_concat' s with rfl | ⟨s, y, rfl⟩
  · simp
  · have hmem : y ∈ s ++ [y] := List.mem_append_right s List.mem_cons_self
    have hgreatest : ∀ x ∈ s ++ [y], x.price.value ≤ y.price.value := fun x hx => by
      rcases List.mem_append.mp hx with hx | hx
      · exact ((List.pairwise_append.mp h).2.2 x hx y List.mem_cons_self).le
      · rw [List.mem_singleton.mp hx]
    rw [List.getLast?_concat, Option.some.injEq]
    constructor
    · rintro rfl
      exact ⟨hmem, hgreatest⟩
    · rintro ⟨hl, habove⟩
      exact h.eq_of_value hmem hl ((habove y hmem).antisymm (hgreatest l hl))

end Side

/-! ### Books -/

namespace Book

variable {b : Book}

/-- A book both of whose sides are in their shape. -/
def IsSound (b : Book) : Prop := b.bids.IsSound ∧ b.asks.IsSound

theorem isSound_empty (m : MarketId) : (empty m).IsSound := ⟨Side.isSound_nil, Side.isSound_nil⟩

theorem IsSound.mergeDiff (h : b.IsSound) {bids asks : List Level}
    (valid : ∀ l ∈ bids ++ asks, l.IsValid) (n : ℕ) : (b.mergeDiff bids asks n).IsSound :=
  ⟨h.1.merge fun l hl => valid l (List.mem_append_left _ hl),
    h.2.merge fun l hl => valid l (List.mem_append_right _ hl)⟩

theorem isSound_replaceLevels {bids asks : List Level} (valid : ∀ l ∈ bids ++ asks, l.IsValid)
    (b : Book) (n : ℕ) : (b.replaceLevels bids asks n).IsSound :=
  ⟨Side.isSound_ofLevels fun l hl => valid l (List.mem_append_left _ hl),
    Side.isSound_ofLevels fun l hl => valid l (List.mem_append_right _ hl)⟩

theorem IsSound.mergeAll (h : b.IsSound) {diffs : List Diff} (valid : ∀ d ∈ diffs, d.IsValid) :
    (b.mergeAll diffs).IsSound := by
  induction diffs generalizing b with
  | nil => exact h
  | cons d diffs ih =>
    obtain ⟨hd, hdiffs⟩ := List.forall_mem_cons.mp valid
    exact ih (h.mergeDiff hd d.sequence) hdiffs

/-- **Every call keeps the shape,** if it is not refused. -/
theorem IsSound.result (h : b.IsSound) {c : BookCall} {b' : Book} (hc : c.result b = .ok b') :
    b'.IsSound := by
  cases c with
  | diff bids asks n now =>
    obtain ⟨valid, rfl⟩ := applyDiff_eq_ok_iff.mp hc
    exact h.mergeDiff valid n
  | snapshot bids asks n now =>
    obtain ⟨valid, rfl⟩ := applySnapshot_eq_ok_iff.mp hc
    exact isSound_replaceLevels valid b n
  | restore clock s recent =>
    rcases b.restore_cases s recent with ⟨-, e, he⟩ | ⟨⟨-, valid, hnewer⟩, hok⟩
    · rw [BookCall.result, he] at hc
      cases hc
    · rw [BookCall.result, hok] at hc
      obtain rfl := Except.ok.inj hc
      refine (isSound_replaceLevels valid b s.sequence).mergeAll fun d hd => ?_
      obtain ⟨hmem, hlt⟩ := List.mem_filter.mp hd
      exact hnewer d hmem (of_decide_eq_true hlt)
  | trade t now => exact Except.ok.inj hc ▸ h
  | refresh price now => exact Except.ok.inj hc ▸ h
  | touch now => exact Except.ok.inj hc ▸ h

theorem IsSound.afterCalls (h : b.IsSound) (cs : List BookCall) : (b.afterCalls cs).IsSound := by
  induction cs generalizing b with
  | nil => exact h
  | cons c cs ih =>
    refine ih (b := (c.result b).toOption.getD b) ?_
    cases hc : c.result b with
    | error e => exact h
    | ok b' => exact h.result hc

/-- **What a reader of a book relies on.** -/
structure Proper (b : Book) : Prop where
  /-- No level has a price below zero or a size that is not above zero. -/
  levels : ∀ l ∈ b.bids ++ b.asks, 0 ≤ l.price.value ∧ 0 < l.size.value
  /-- No price stands on a side twice. -/
  once : (b.bids.map (·.price.value)).Nodup ∧ (b.asks.map (·.price.value)).Nodup
  /-- The view shows the highest bid first and the lowest ask first. -/
  order : b.view.bids.Pairwise (·.price.value > ·.price.value) ∧
    b.view.asks.Pairwise (·.price.value < ·.price.value)
  /-- The best levels of the book are those of its view. -/
  best : b.view.bestBid = b.bestBid ∧ b.view.bestAsk = b.bestAsk
  /-- The best bid is the highest. -/
  bestBid : ∀ l, b.bestBid = some l ↔
    l ∈ b.view.bids ∧ ∀ x ∈ b.view.bids, x.price.value ≤ l.price.value
  /-- The best ask is the lowest. -/
  bestAsk : ∀ l, b.bestAsk = some l ↔
    l ∈ b.view.asks ∧ ∀ x ∈ b.view.asks, l.price.value ≤ x.price.value
  /-- The size of a bid is found at its price, written at any scale. -/
  bidSize : ∀ p q, b.bids.size? p = some q ↔
    ∃ l ∈ b.view.bids, l.price.value = p.value ∧ l.size = q
  /-- The size of an ask likewise. -/
  askSize : ∀ p q, b.asks.size? p = some q ↔
    ∃ l ∈ b.view.asks, l.price.value = p.value ∧ l.size = q
  /-- A book that is built from the levels of the view shows them as they are written. -/
  rebuilt : ∀ s : Snapshot, s.bids = b.view.bids → s.asks = b.view.asks →
    ∃ c, ofSnapshot s = .ok c ∧ c.view.bids = b.view.bids ∧ c.view.asks = b.view.asks

theorem IsSound.proper (h : b.IsSound) : b.Proper where
  levels l hl := by
    rcases List.mem_append.mp hl with hl | hl
    · exact h.1.stands l hl
    · exact h.2.stands l hl
  once := ⟨List.pairwise_map.mpr (h.1.ascending.imp fun hlt => hlt.ne),
    List.pairwise_map.mpr (h.2.ascending.imp fun hlt => hlt.ne)⟩
  order := ⟨List.pairwise_reverse.mpr h.1.ascending, h.2.ascending⟩
  best := ⟨b.bestBid_view, b.bestAsk_view⟩
  bestBid l := by
    simp only [view, List.mem_reverse]
    exact h.1.ascending.getLast?_eq_some_iff
  bestAsk l := h.2.ascending.head?_eq_some_iff
  bidSize p q := by
    simp only [view, List.mem_reverse]
    exact Side.size?_eq_some_iff h.1.ascending
  askSize p q := Side.size?_eq_some_iff h.2.ascending
  rebuilt s hbids hasks := by
    have hperm : s.bids.Perm b.bids := hbids ▸ List.reverse_perm b.bids
    have hperm' : s.asks.Perm b.asks := hasks ▸ List.Perm.refl b.asks
    have valid : ∀ l ∈ s.bids ++ s.asks, l.IsValid := fun l hl => by
      rcases List.mem_append.mp hl with hl | hl
      · exact (h.1.isValid l (hperm.mem_iff.mp hl)).1
      · exact (h.2.isValid l (hperm'.mem_iff.mp hl)).1
    refine ⟨_, applySnapshot_eq_ok_iff.mpr ⟨valid, rfl⟩, ?_, ?_⟩
    · exact congrArg List.reverse (h.1.ofLevels_perm hperm)
    · exact h.2.ofLevels_perm hperm'

end Book

/-! ### Books in place -/

namespace BookCall

/-- **A call in place** leaves what it makes of the book, or the book as it was. -/
theorem book_after (st : StampedBook) (c : BookCall) :
    (c.after st).book = (c.result st.book).toOption.getD st.book := by
  unfold after update result
  cases c with
  | diff bids asks n now =>
    dsimp only
    rw [BookUpdate.perform_diff]
    cases st.book.applyDiff bids asks n <;> rfl
  | snapshot bids asks n now =>
    dsimp only
    rw [BookUpdate.perform_snapshot]
    cases st.book.applySnapshot bids asks n <;> rfl
  | restore clock s recent =>
    dsimp only
    rcases BookUpdate.perform_restore st clock s recent with
      ⟨e, he, hrefused⟩ | ⟨st', hok, -, -, hdone⟩
    · rw [BookUpdate.perform_bind, hrefused, he]
      rfl
    · rw [BookUpdate.perform_bind, hdone, hok]
      rfl
  | trade t now => rfl
  | refresh price now => rfl
  | touch now => rfl

end BookCall

namespace StampedBook

theorem book_afterAll (st : StampedBook) (cs : List BookCall) :
    (st.afterAll cs).book = st.book.afterCalls cs := by
  induction cs generalizing st with
  | nil => rfl
  | cons c cs ih =>
    refine (ih (c.after st)).trans ?_
    rw [BookCall.book_after]
    rfl

/-- A book that was just made: an empty one, or that of a snapshot. -/
def IsNew (st : StampedBook) : Prop :=
  (∃ m, st.book = .empty m) ∨ ∃ s, Book.ofSnapshot s = .ok st.book

/-- **Every book is proper** that comes about by calls from a new one, whatever the calls are and
however many of them are refused on their way; and it is the book to which the functions on books
lead. -/
theorem proper_afterAll {st : StampedBook} (new : st.IsNew) (cs : List BookCall) :
    (st.afterAll cs).book.Proper ∧ (st.afterAll cs).book = st.book.afterCalls cs := by
  have hbook := st.book_afterAll cs
  have hnew : st.book.IsSound := by
    rcases new with ⟨m, hm⟩ | ⟨s, hs⟩
    · exact hm ▸ Book.isSound_empty m
    · obtain ⟨valid, heq⟩ := Book.applySnapshot_eq_ok_iff.mp hs
      exact heq ▸ Book.isSound_replaceLevels valid _ _
  exact ⟨hbook ▸ (hnew.afterCalls cs).proper, hbook⟩

/-! ### A book with calls that are refused

The first diff is refused for its ask, although its bid is good; the second takes a bid away that is
written with more digits; the restore names a price twice, and takes one of two diffs. -/

/-- A snapshot that names a bid twice. -/
def namedTwice (n : ℕ) : Snapshot :=
  ⟨⟨"BTC-USD"⟩, n, default, [.scaled 100 0 1, .scaled 1000 1 2, .scaled 99 0 3], [.scaled 101 0 4]⟩

/-- Calls, the first of which is refused. -/
def someCalls : List BookCall :=
  [.diff [.scaled 98 0 5] [.belowZero] 11 default,
   .diff [.scaled 10000 2 0, .scaled 97 0 6] [] 12 default,
   .trade ⟨⟨"BTC-USD"⟩, "1", default, (Level.scaled 99 0 1).price, (Level.scaled 1 0 1).price,
     .buy⟩ 0,
   .restore (fun _ => default) (namedTwice 12)
     [⟨⟨"BTC-USD"⟩, 12, default, [.belowZero], []⟩,
      ⟨⟨"BTC-USD"⟩, 13, default, [.scaled 9900 2 7, .scaled 96 0 8], [.scaled 101 0 0]⟩]]

/-- The book of the first such snapshot. -/
def bookNamedTwice : StampedBook where
  book := (Book.empty ⟨"BTC-USD"⟩).replaceLevels (namedTwice 10).bids (namedTwice 10).asks 10
  updatedAt := default

/-- The book is proper, and shows what the calls that were not refused have left. -/
theorem proper_afterAll_refused :
    bookNamedTwice.IsNew ∧ (bookNamedTwice.afterAll someCalls).book.Proper ∧
      (bookNamedTwice.afterAll someCalls).book.view.bids =
        [.scaled 1000 1 2, .scaled 99 0 7, .scaled 96 0 8] ∧
      (bookNamedTwice.afterAll someCalls).book.view.asks = [] := by
  have new : bookNamedTwice.IsNew :=
    .inr ⟨namedTwice 10, Book.applySnapshot_eq_ok_iff.mpr ⟨by decide, rfl⟩⟩
  exact ⟨new, (proper_afterAll new someCalls).1, by decide, by decide⟩

end StampedBook

end LiveBook
