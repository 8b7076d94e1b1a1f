import Mathlib.Data.List.DropRight
import LiveBook.Proofs.Book.Keeper
import LiveBook.Proofs.Book.Levels

/-!
# The last change at a price wins

A diff may name a price several times, at several scales, take its level away and set it
again. What becomes of the level is decided by the changes at that price alone, and by no
more of them than those since the level was last taken away
(`LiveBook.Side.entries`): the last of these gives the size, and the *first* gives the price
that is shown, because a change to a level that exists leaves its price as it is written.

* `LiveBook.Side.IsAscending.find?_merge` – so much for the level at each price;
* `LiveBook.Side.IsAscending.merge_merge` – changes that are made twice in a row are made once;
* `LiveBook.Book.merged_of_applyDiff` – what a diff makes of a book.
-/

namespace LiveBook

namespace Side

variable {s t : Side} {l : Level} {p : Decimal} {changes : List Level}

/-! ### The changes at a price -/

/-- The changes at a price, at whatever scale it is written. -/
def changesAt (p : Decimal) (changes : List Level) : List Level :=
  changes.filter (·.price.sameValue p)

/-- **The entries that make the level at a price**: the changes since it was last taken away, and
the level that was there before all changes if it was never taken away. -/
def entries (s : Side) (changes : List Level) (p : Decimal) : List Level :=
  if (changesAt p changes).any (·.size.isZero) then
    (changesAt p changes).rtakeWhile (!·.size.isZero)
  else (s.find? p).toList ++ changesAt p changes

/-- The level that entries make: the first of them gives the price, the last one the size. -/
def ofEntries? (es : List Level) : Option Level :=
  match es.head?, es.getLast? with
  | some first, some last => some { first with size := last.size }
  | _, _ => none

theorem changesAt_concat (p : Decimal) (changes : List Level) (l : Level) :
    changesAt p (changes ++ [l]) =
      if l.price.value = p.value then changesAt p changes ++ [l] else changesAt p changes := by
  unfold changesAt
  rw [List.filter_append]
  by_cases hl : l.price.value = p.value
  · rw [if_pos hl, List.filter_singleton, Decimal.sameValue_iff.mpr hl]
    rfl
  · rw [if_neg hl, List.filter_singleton,
      Bool.eq_false_of_not_eq_true (mt Decimal.sameValue_iff.mp hl)]
    exact List.append_nil _

theorem entries_nil (s : Side) (p : Decimal) : s.entries [] p = (s.find? p).toList :=
  List.append_nil _

/-- What one more change does to the entries: size zero forgets them, and any other size is
one more. -/
theorem entries_concat (s : Side) (changes : List Level) (l : Level) (p : Decimal) :
    s.entries (changes ++ [l]) p =
      if l.price.value = p.value then
        if l.size.isZero then [] else s.entries changes p ++ [l]
      else s.entries changes p := by
  unfold entries
  rw [changesAt_concat]
  by_cases hl : l.price.value = p.value
  · rw [if_pos hl, if_pos hl, List.any_append, List.rtakeWhile_concat]
    cases hz : l.size.isZero with
    | true => simp [hz]
    | false => cases (changesAt p changes).any (·.size.isZero) <;> simp [hz]
  · rw [if_neg hl, if_neg hl]

theorem ofEntries?_toList (o : Option Level) : ofEntries? o.toList = o := by
  cases o <;> rfl

/-- The level that entries make, when the last of them is known. -/
theorem ofEntries?_append {es fs : List Level} (h : fs.getLast? = some l) :
    ofEntries? (es ++ fs) = (es ++ fs).head?.map ({ · with size := l.size }) := by
  rw [ofEntries?, List.getLast?_append, h, Option.some_or]
  cases (es ++ fs).head? <;> rfl

/-- One more entry sets the size, and gives the price if it is the first. -/
theorem ofEntries?_concat (es : List Level) (l : Level) :
    ofEntries? (es ++ [l]) = some ((ofEntries? es).elim l ({ · with size := l.size })) := by
  rw [ofEntries?_append (List.getLast?_singleton (a := l)), ofEntries?]
  cases es with
  | nil => rfl
  | cons x es =>
    rw [List.cons_append, List.head?_cons, List.head?_cons, List.getLast?_cons]
    rfl

/-- What is not named stays as it was, and what is named has the last change behind it. -/
theorem getLast?_entries (s : Side) (changes : List Level) (p : Decimal) :
    (s.entries changes p).getLast? =
      match (changesAt p changes).getLast? with
      | none => s.find? p
      | some l => if l.size.isZero then none else some l := by
  induction changes using List.reverseRecOn with
  | nil =>
    rw [entries_nil]
    cases s.find? p <;> rfl
  | append_singleton changes l ih =>
    rw [entries_concat, changesAt_concat]
    by_cases hl : l.price.value = p.value
    · rw [if_pos hl, if_pos hl, List.getLast?_concat]
      cases hz : l.size.isZero <;> simp [hz]
    · rw [if_neg hl, if_neg hl, ih]

/-! ### The level at a price after changes -/

/-- **What changes make of the level at a price.** -/
theorem IsAscending.find?_merge (h : s.IsAscending) (changes : List Level) (p : Decimal) :
    (s.merge changes).find? p = ofEntries? (s.entries changes p) := by
  -- from the end, as the last change is the one that counts
  induction changes using List.reverseRecOn with
  | nil => rw [entries_nil, ofEntries?_toList, merge_nil]
  | append_singleton changes l ih =>
    rw [merge_append, merge_cons, merge_nil, (h.merge changes).find?_change, entries_concat, ih]
    by_cases hl : l.price.value = p.value
    · rw [if_pos hl, if_pos hl]
      cases l.size.isZero with
      | true => rfl
      | false => exact (ofEntries?_concat _ l).symm
    · rw [if_neg hl, if_neg hl]

theorem size?_ofEntries? (es : List Level) :
    (ofEntries? es).map Level.size = es.getLast?.map Level.size := by
  cases es with
  | nil => rfl
  | cons x es =>
    unfold ofEntries?
    rw [List.head?_cons, List.getLast?_cons]
    rfl

/-- **The size at a price is that of the last change at it.** -/
theorem IsAscending.size?_merge (h : s.IsAscending) (changes : List Level) (p : Decimal) :
    (s.merge changes).size? p =
      match (changesAt p changes).getLast? with
      | none => s.size? p
      | some l => if l.size.isZero then none else some l.size := by
  rw [size?, h.find?_merge, size?_ofEntries?, getLast?_entries]
  cases (changesAt p changes).getLast? with
  | none => rfl
  | some l => cases hl : l.size.isZero <;> simp [hl]

/-- **Changes that are made twice in a row** are made once: if the level was taken away, only
what came after counts, and else it has its last size already and its price stays. -/
theorem IsAscending.merge_merge (h : s.IsAscending) (changes : List Level) :
    (s.merge changes).merge changes = s.merge changes := by
  refine ext_find? ((h.merge changes).merge changes) (h.merge changes) fun p => ?_
  rw [(h.merge changes).find?_merge]
  by_cases hgone : (changesAt p changes).any (·.size.isZero) = true
  · rw [h.find?_merge, entries, entries, if_pos hgone, if_pos hgone]
  · rw [entries, if_neg hgone, h.find?_merge, entries, if_neg hgone]
    cases hlast : (changesAt p changes).getLast? with
    | none =>
      rw [List.getLast?_eq_none_iff.mp hlast, List.append_nil, List.append_nil, ofEntries?_toList,
        ofEntries?_toList]
    | some l =>
      -- the first time a level was made, which shows the price of the first entry
      have hne : (s.find? p).toList ++ changesAt p changes ≠ [] := fun hnil => by
        rw [(List.append_eq_nil_iff.mp hnil).2] at hlast
        cases hlast
      obtain ⟨x, es, hes⟩ := List.exists_cons_of_ne_nil hne
      rw [ofEntries?_append hlast, ofEntries?_append hlast, hes]
      rfl

/-- What is shown is the price of the first entry. -/
theorem head?_of_ofEntries? {es : List Level} (h : ofEntries? es = some l) :
    ∃ made, es.head? = some made ∧ l.price = made.price := by
  unfold ofEntries? at h
  split at h
  next made _ hhead _ => exact ⟨made, hhead, by rw [← Option.some.inj h]⟩
  next => cases h

/-- **What becomes of a side by changes,** price by price. -/
structure Merged (s : Side) (changes : List Level) (t : Side) : Prop where
  /-- No price stands on the side twice. -/
  ascending : t.IsAscending
  /-- The last change at a price gives the size. -/
  size : ∀ p l, (changesAt p changes).getLast? = some l → l.size.value ≠ 0 →
    t.size? p = some l.size
  /-- Unless the size is zero: then there is no level. -/
  gone : ∀ p l, (changesAt p changes).getLast? = some l → l.size.value = 0 → t.find? p = none
  /-- At a price without a change everything is as it was. -/
  kept : ∀ p, (∀ l ∈ changes, l.price.value ≠ p.value) → t.find? p = s.find? p
  /-- The price that a level shows is that of the entry which made it. -/
  shown : ∀ p l, t.find? p = some l →
    ∃ made, (s.entries changes p).head? = some made ∧ l.price = made.price

theorem IsAscending.merged (h : s.IsAscending) (changes : List Level) :
    s.Merged changes (s.merge changes) where
  ascending := h.merge changes
  size p l hl hsize := by
    have hz : l.size.isZero = false :=
      Bool.eq_false_of_not_eq_true (mt Decimal.isZero_iff.mp hsize)
    rw [h.size?_merge, hl]
    simp only [hz, Bool.false_eq_true, if_false]
  gone p l hl hsize := by
    have hlast := getLast?_entries s changes p
    rw [hl] at hlast
    simp only [Decimal.isZero_iff.mpr hsize, if_true] at hlast
    rw [h.find?_merge, List.getLast?_eq_none_iff.mp hlast]
    rfl
  kept p hp := by
    have hnil : changesAt p changes = [] := List.filter_eq_nil_iff.mpr fun l hl =>
      mt Decimal.sameValue_iff.mp (hp l hl)
    rw [h.find?_merge, entries, hnil]
    exact (congrArg ofEntries? (List.append_nil _)).trans (ofEntries?_toList _)
  shown p l hl := head?_of_ofEntries? (h.find?_merge changes p ▸ hl)

end Side

/-! ### Diffs -/

namespace Book

variable {b : Book} {bids asks : List Level} {n : ℕ}

/-- A book takes the diffs of valid levels. -/
theorem applyDiff_eq_ok_iff {c : Book} :
    b.applyDiff bids asks n = .ok c ↔
      (∀ l ∈ bids ++ asks, l.IsValid) ∧ c = b.mergeDiff bids asks n := by
  rw [← validate_eq_ok_iff (b := b) (n := n), applyDiff_eq]
  cases b.validate bids asks n with
  | error e => simp [Except.map]
  | ok u => simp [Except.map, eq_comm]

/-- What a diff changes: levels, and the number of the last diff, which is the greatest so far. -/
theorem mergeDiff_eq (b : Book) (bids asks : List Level) (n : ℕ) :
    b.mergeDiff bids asks n = { b with
      bids := b.bids.merge bids
      asks := b.asks.merge asks
      lastDiff := some (b.lastDiff.elim n (max · n)) } := by
  unfold mergeDiff
  cases b.lastDiff with
  | none => rw [Option.getD_none, Nat.max_zero]; rfl
  | some m => rw [Option.getD_some, Nat.max_comm]; rfl

/-- **The last write wins.** A book takes every diff of valid levels, whatever prices these name at
whatever scales. On each side the last change at a price decides: it gives the size, or takes the
level away if its size is zero; and the level shows the price of the entry that made it. Neither
side looks at the other. Of the rest of the book only the number of the last diff changes, which
is the greatest so far. So it is all the same whether the changes of two diffs are made by one or
by two, and a diff that is applied twice in a row changes levels once. The sides of a book are
ordered maps, so it is in ascending order whatever calls it comes from. -/
theorem merged_of_applyDiff (ascending : b.IsAscending) (valid : ∀ l ∈ bids ++ asks, l.IsValid)
    (n : ℕ) :
    ∃ c, b.applyDiff bids asks n = .ok c ∧
      b.bids.Merged bids c.bids ∧ b.asks.Merged asks c.asks ∧
      c = { b with
        bids := c.bids, asks := c.asks, lastDiff := some (b.lastDiff.elim n (max · n)) } ∧
      (∀ others m d, b.applyDiff bids others m = .ok d → d.bids = c.bids) ∧
      (∀ others m d, b.applyDiff others asks m = .ok d → d.asks = c.asks) ∧
      (∀ bids' asks' m k, (∀ l ∈ bids' ++ asks', l.IsValid) →
        ∃ d e, c.applyDiff bids' asks' m = .ok d ∧
          b.applyDiff (bids ++ bids') (asks ++ asks') k = .ok e ∧
          d.bids = e.bids ∧ d.asks = e.asks) ∧
      ∃ d, c.applyDiff bids asks n = .ok d ∧ d.bids = c.bids ∧ d.asks = c.asks := by
  refine ⟨b.mergeDiff bids asks n, applyDiff_eq_ok_iff.mpr ⟨valid, rfl⟩, ascending.1.merged bids,
    ascending.2.merged asks, mergeDiff_eq b bids asks n, ?_, ?_, ?_, ?_⟩
  · intro others m d hd
    rw [(applyDiff_eq_ok_iff.mp hd).2]
    rfl
  · intro others m d hd
    rw [(applyDiff_eq_ok_iff.mp hd).2]
    rfl
  · intro bids' asks' m k valid'
    have hboth : ∀ l ∈ (bids ++ bids') ++ (asks ++ asks'), l.IsValid := fun l hl => by
      simp only [List.mem_append] at hl valid valid'
      rcases hl with (h | h) | (h | h)
      · exact valid l (.inl h)
      · exact valid' l (.inl h)
      · exact valid l (.inr h)
      · exact valid' l (.inr h)
    exact ⟨_, _, applyDiff_eq_ok_iff.mpr ⟨valid', rfl⟩, applyDiff_eq_ok_iff.mpr ⟨hboth, rfl⟩,
      (Side.merge_append _ _ _).symm, (Side.merge_append _ _ _).symm⟩
  · exact ⟨_, applyDiff_eq_ok_iff.mpr ⟨valid, rfl⟩, ascending.1.merge_merge bids,
      ascending.2.merge_merge asks⟩

/-! ### A diff that takes a level away and sets it again

The bid at 100 is taken away and set twice, each time with one digit more; the bid at 99 is only
set. One ask is taken away, and one that is not there is taken away and set. -/

/-- A book with two bids and an ask. -/
def twoBids : Book :=
  { empty ⟨"BTC-USD"⟩ with bids := [.scaled 99 0 2, .scaled 100 0 1], asks := [.scaled 1010 1 3] }

/-- Changes to its bids. -/
def bidChanges : List Level :=
  [.scaled 1000 1 0, .scaled 10000 2 5, .scaled 100000 3 7, .scaled 990 1 4]

/-- Changes to its asks. -/
def askChanges : List Level := [.scaled 101 0 0, .scaled 102 0 0, .scaled 10200 2 1]

/-- The bid at 99 is shown as before, and the bid at 100 as it was written when it was first set
again. -/
theorem merged_of_applyDiff_again :
    twoBids.IsAscending ∧ (∀ l ∈ bidChanges ++ askChanges, l.IsValid) ∧
      ∃ c, twoBids.applyDiff bidChanges askChanges 12 = .ok c ∧
        twoBids.bids.Merged bidChanges c.bids ∧ twoBids.asks.Merged askChanges c.asks ∧
        c.bids = [.scaled 99 0 4, .scaled 10000 2 7] ∧ c.asks = [.scaled 10200 2 1] := by
  have ascending : twoBids.IsAscending := by decide
  have valid : ∀ l ∈ bidChanges ++ askChanges, l.IsValid := by decide
  obtain ⟨c, hc, hbids, hasks, -⟩ := merged_of_applyDiff ascending valid 12
  refine ⟨ascending, valid, c, hc, hbids, hasks, ?_⟩
  rw [(applyDiff_eq_ok_iff.mp hc).2]
  decide

end Book

end LiveBook
