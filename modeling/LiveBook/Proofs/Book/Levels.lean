import Mathlib.Data.List.Sort
import LiveBook.Proofs.Book.Values

/-!
# The levels of a side

A side lists its levels in ascending order of price, so no price stands on it twice, at
whatever scales it is written. A side is therefore known as soon as one knows its level at
each price: this is the view under which everything about sides is stated, and
`LiveBook.Side.ext_find?` is what allows it.

* `LiveBook.Side.IsAscending` – the order, which every operation keeps;
* `LiveBook.Side.IsAscending.find?_change` – what one change does to the level at a price;
* `LiveBook.Side.IsAscending.find?_replace` – the same for a level that is put in place of another;
* `LiveBook.Side.same_iff_size?` – two sides are the same by value if their sizes are, at
  every price.
-/

namespace LiveBook

/-- **A side in ascending order of price,** by value: no price stands on it twice. -/
def Side.IsAscending (s : Side) : Prop := s.Pairwise (·.price.value < ·.price.value)

instance (s : Side) : Decidable s.IsAscending :=
  decidable_of_iff (s.Pairwise fun x y => x.price.compareValue y.price = .lt) <| by
    simp only [Decimal.compareValue_eq_compare, compare_lt_iff_lt]
    rfl

/-- A list in ascending order of some number is known by its items. -/
theorem eq_of_pairwise_lt {α : Type} {f : α → ℚ} {xs ys : List α}
    (hx : xs.Pairwise (f · < f ·)) (hy : ys.Pairwise (f · < f ·)) (h : ∀ a, a ∈ xs ↔ a ∈ ys) :
    xs = ys :=
  List.Pairwise.eq_of_mem_iff (r := InvImage (· < ·) f) hx hy h

namespace Side

variable {s t : Side} {x l : Level} {p : Decimal}

/-! ### The level at a price -/

@[simp] theorem find?_nil (p : Decimal) : find? p [] = none := rfl

theorem find?_cons (x : Level) (s : Side) (p : Decimal) :
    find? p (x :: s) = if x.price.value = p.value then some x else find? p s := by
  unfold find?
  rw [List.find?_cons]
  by_cases h : x.price.value = p.value
  · rw [if_pos h, Decimal.sameValue_iff.mpr h]
  · rw [if_neg h, Bool.eq_false_of_not_eq_true (mt Decimal.sameValue_iff.mp h)]

/-- No level below all others has the price of one of them. -/
theorem find?_eq_none_of_lt (h : ∀ x ∈ s, p.value < x.price.value) : find? p s = none := by
  induction s with
  | nil => rfl
  | cons x s ih =>
    obtain ⟨hx, hs⟩ := List.forall_mem_cons.mp h
    rw [find?_cons, if_neg hx.ne', ih hs]

/-- **The level at a price** is the one level with it. -/
theorem IsAscending.find?_eq_some_iff (h : s.IsAscending) :
    s.find? p = some l ↔ l ∈ s ∧ l.price.value = p.value := by
  induction s with
  | nil => simp
  | cons x s ih =>
    obtain ⟨hlt, hs⟩ := List.pairwise_cons.mp h
    rw [find?_cons, List.mem_cons]
    by_cases hx : x.price.value = p.value
    · rw [if_pos hx, Option.some.injEq]
      constructor
      · rintro rfl
        exact ⟨.inl rfl, hx⟩
      · rintro ⟨rfl | hl, hp⟩
        · rfl
        · exact absurd (hlt l hl) (by rw [hx, hp]; exact lt_irrefl _)
    · rw [if_neg hx, ih hs]
      constructor
      · exact fun hl => ⟨.inr hl.1, hl.2⟩
      · rintro ⟨rfl | hl, hp⟩
        · exact absurd hp hx
        · exact ⟨hl, hp⟩

theorem size?_eq_some_iff (h : s.IsAscending) {q : Decimal} :
    s.size? p = some q ↔ ∃ l ∈ s, l.price.value = p.value ∧ l.size = q := by
  simp only [size?, Option.map_eq_some_iff, h.find?_eq_some_iff, and_assoc]

/-- **A side is known by its level at each price.** -/
theorem ext_find? (hs : s.IsAscending) (ht : t.IsAscending) (h : ∀ p, s.find? p = t.find? p) :
    s = t := by
  refine eq_of_pairwise_lt (f := fun l : Level => l.price.value) hs ht fun l => ?_
  have hl := h l.price
  constructor
  · intro hmem
    exact (ht.find?_eq_some_iff.mp (hl ▸ hs.find?_eq_some_iff.mpr ⟨hmem, rfl⟩)).1
  · intro hmem
    exact (hs.find?_eq_some_iff.mp (hl ▸ ht.find?_eq_some_iff.mpr ⟨hmem, rfl⟩)).1

/-! ### Putting a level at its place -/

/-- What is on a side with a level put at its place: another level, or what remains there. -/
theorem mem_place {f : Level → Level → Level} (h : x ∈ s.place f l) :
    x = l ∨ x ∈ s ∨ ∃ y ∈ s, y.price.value = l.price.value ∧ x = f y l := by
  induction s with
  | nil => exact .inl (List.mem_singleton.mp h)
  | cons y s ih =>
    unfold place at h
    rw [Decimal.compareValue_eq_compare] at h
    split at h
    next => exact (List.mem_cons.mp h).imp_right .inl
    next heq =>
      rcases List.mem_cons.mp h with rfl | h
      · exact .inr (.inr ⟨y, List.mem_cons_self, (compare_eq_iff_eq.mp heq).symm, rfl⟩)
      · exact .inr (.inl (List.mem_cons_of_mem _ h))
    next =>
      rcases List.mem_cons.mp h with rfl | h
      · exact .inr (.inl List.mem_cons_self)
      · refine (ih h).imp_right fun h => h.imp (List.mem_cons_of_mem _) ?_
        rintro ⟨z, hz, hl, hx⟩
        exact ⟨z, List.mem_cons_of_mem _ hz, hl, hx⟩

/-- Whether what remains of two levels with one price has that price. -/
def KeepsPrice (f : Level → Level → Level) (l : Level) : Prop :=
  ∀ x : Level, x.price.value = l.price.value → (f x l).price.value = l.price.value

theorem price_of_mem_place {f : Level → Level → Level} (hf : KeepsPrice f l)
    (h : x ∈ s.place f l) : x.price.value = l.price.value ∨ x ∈ s := by
  rcases mem_place h with rfl | h | ⟨y, -, hy, rfl⟩
  · exact .inl rfl
  · exact .inr h
  · exact .inl (hf y hy)

theorem IsAscending.place (h : s.IsAscending) {f : Level → Level → Level} (hf : KeepsPrice f l) :
    (s.place f l).IsAscending := by
  induction s with
  | nil => exact List.pairwise_singleton _ _
  | cons x s ih =>
    obtain ⟨hlt, hs⟩ := List.pairwise_cons.mp h
    unfold Side.place
    rw [Decimal.compareValue_eq_compare]
    split
    next hcmp =>
      have hlx : l.price.value < x.price.value := compare_lt_iff_lt.mp hcmp
      refine List.pairwise_cons.mpr ⟨fun y hy => ?_, h⟩
      rcases List.mem_cons.mp hy with rfl | hy
      · exact hlx
      · exact hlx.trans (hlt y hy)
    next hcmp =>
      have hx : l.price.value = x.price.value := compare_eq_iff_eq.mp hcmp
      refine List.pairwise_cons.mpr ⟨fun y hy => ?_, hs⟩
      rw [hf x hx.symm, hx]
      exact hlt y hy
    next hcmp =>
      have hxl : x.price.value < l.price.value := compare_gt_iff_gt.mp hcmp
      refine List.pairwise_cons.mpr ⟨fun y hy => ?_, ih hs⟩
      rcases price_of_mem_place hf hy with hy | hy
      · exact hy ▸ hxl
      · exact hlt y hy

/-- **The level at a price after one was put at its place.** -/
theorem IsAscending.find?_place (h : s.IsAscending) {f : Level → Level → Level}
    (hf : KeepsPrice f l) (p : Decimal) :
    (s.place f l).find? p =
      if l.price.value = p.value then some ((s.find? p).elim l (f · l)) else s.find? p := by
  induction s with
  | nil => exact find?_cons l [] p
  | cons x s ih =>
    obtain ⟨hlt, hs⟩ := List.pairwise_cons.mp h
    unfold Side.place
    rw [Decimal.compareValue_eq_compare]
    split
    next hcmp =>
      have hlx : l.price.value < x.price.value := compare_lt_iff_lt.mp hcmp
      rw [find?_cons]
      by_cases hl : l.price.value = p.value
      · -- all levels are above `l`, so none of them is the one looked for
        have hnone : find? p (x :: s) = none := find?_eq_none_of_lt fun y hy => by
          rcases List.mem_cons.mp hy with rfl | hy
          · exact hl ▸ hlx
          · exact hl ▸ hlx.trans (hlt y hy)
        rw [if_pos hl, if_pos hl, hnone, Option.elim_none]
      · rw [if_neg hl, if_neg hl]
    next hcmp =>
      have hx : l.price.value = x.price.value := compare_eq_iff_eq.mp hcmp
      rw [find?_cons, find?_cons, hf x hx.symm, hx]
      by_cases hl : x.price.value = p.value
      · rw [if_pos hl, if_pos hl, if_pos hl, Option.elim_some]
      · rw [if_neg hl, if_neg hl, if_neg hl]
    next hcmp =>
      have hxl : x.price.value < l.price.value := compare_gt_iff_gt.mp hcmp
      rw [find?_cons, find?_cons, ih hs]
      by_cases hx : x.price.value = p.value
      · rw [if_pos hx, if_pos hx, if_neg (hx ▸ hxl.ne')]
      · rw [if_neg hx, if_neg hx]

/-! ### Changes -/

theorem keepsPrice_upsert (l : Level) :
    KeepsPrice (fun old new => { old with size := new.size }) l :=
  fun _ h => h

theorem keepsPrice_replace (l : Level) : KeepsPrice (fun _ new => new) l := fun _ _ => rfl

theorem IsAscending.erase (h : s.IsAscending) (p : Decimal) : (s.erase p).IsAscending :=
  h.sublist List.filter_sublist

theorem IsAscending.change (h : s.IsAscending) (l : Level) : (s.change l).IsAscending := by
  unfold Side.change
  split
  · exact h.erase l.price
  · exact h.place (keepsPrice_upsert l)

/-- **Changes keep the order.** -/
theorem IsAscending.merge (h : s.IsAscending) (changes : List Level) :
    (s.merge changes).IsAscending := by
  induction changes generalizing s with
  | nil => exact h
  | cons l changes ih => exact ih (h.change l)

theorem find?_erase (s : Side) (q p : Decimal) :
    (s.erase q).find? p = if q.value = p.value then none else s.find? p := by
  induction s with
  | nil => simp [erase]
  | cons x s ih =>
    have hcons : erase q (x :: s) =
        if x.price.value = q.value then erase q s else x :: erase q s := by
      unfold erase
      rw [List.filter_cons]
      by_cases hx : x.price.value = q.value
      · rw [if_pos hx, Decimal.sameValue_iff.mpr hx]
        rfl
      · rw [if_neg hx, Bool.eq_false_of_not_eq_true (mt Decimal.sameValue_iff.mp hx)]
        rfl
    rw [hcons, find?_cons]
    by_cases hx : x.price.value = q.value
    · rw [if_pos hx, ih, hx]
      by_cases hq : q.value = p.value
      · rw [if_pos hq, if_pos hq]
      · rw [if_neg hq, if_neg hq, if_neg hq]
    · rw [if_neg hx, find?_cons, ih]
      by_cases hq : q.value = p.value
      · rw [if_pos hq, if_pos hq, if_neg (hq ▸ hx)]
      · rw [if_neg hq, if_neg hq]

/-- **What a change makes of the level at a price**: size zero takes it away, and any other size
is set, with the price that was shown before if there was one. -/
theorem IsAscending.find?_change (h : s.IsAscending) (l : Level) (p : Decimal) :
    (s.change l).find? p =
      if l.price.value = p.value then
        if l.size.isZero then none
        else some ((s.find? p).elim l ({ · with size := l.size }))
      else s.find? p := by
  unfold Side.change
  cases l.size.isZero with
  | true => exact find?_erase s l.price p
  | false => exact h.find?_place (keepsPrice_upsert l) p

theorem IsAscending.replace (h : s.IsAscending) (l : Level) : (s.replace l).IsAscending :=
  h.place (keepsPrice_replace l)

theorem IsAscending.find?_replace (h : s.IsAscending) (l : Level) (p : Decimal) :
    (s.replace l).find? p = if l.price.value = p.value then some l else s.find? p := by
  refine (h.find?_place (keepsPrice_replace l) p).trans ?_
  cases s.find? p <;> rfl

/-! ### Sides by value -/

/-- The price and the size of a level, by value. -/
def values (l : Level) : ℚ × ℚ := (l.price.value, l.size.value)

theorem same_iff_map : s.Same t ↔ s.map values = t.map values := by
  rw [← List.forall₂_eq_eq_eq, List.forall₂_map_left_iff, List.forall₂_map_right_iff]
  simp only [values, Prod.mk.injEq]
  rfl

/-- The size at a price, by value. -/
def sizeValue? (s : Side) (p : Decimal) : Option ℚ := (s.size? p).map Decimal.value

theorem IsAscending.sizeValue?_eq_some_iff (h : s.IsAscending) {q : ℚ} :
    s.sizeValue? p = some q ↔ (p.value, q) ∈ s.map values := by
  simp only [sizeValue?, Option.map_eq_some_iff, size?_eq_some_iff h, List.mem_map, values,
    Prod.mk.injEq]
  constructor
  · rintro ⟨_, ⟨l, hl, hp, rfl⟩, rfl⟩
    exact ⟨l, hl, hp, rfl⟩
  · rintro ⟨l, hl, hp, rfl⟩
    exact ⟨_, ⟨l, hl, hp, rfl⟩, rfl⟩

/-- **Two sides are the same by value exactly if** they have the same sizes at all prices. -/
theorem same_iff_size? (hs : s.IsAscending) (ht : t.IsAscending) :
    s.Same t ↔ ∀ p, s.sizeValue? p = t.sizeValue? p := by
  rw [same_iff_map]
  constructor
  · intro h p
    refine Option.ext fun q => ?_
    rw [hs.sizeValue?_eq_some_iff, ht.sizeValue?_eq_some_iff, h]
  · intro h
    refine eq_of_pairwise_lt (f := Prod.fst) (List.pairwise_map.mpr hs)
      (List.pairwise_map.mpr ht) fun v => ?_
    constructor
    · intro hv
      obtain ⟨l, -, rfl⟩ := List.mem_map.mp hv
      exact ht.sizeValue?_eq_some_iff.mp (h l.price ▸ hs.sizeValue?_eq_some_iff.mpr hv)
    · intro hv
      obtain ⟨l, -, rfl⟩ := List.mem_map.mp hv
      exact hs.sizeValue?_eq_some_iff.mp (h l.price ▸ ht.sizeValue?_eq_some_iff.mpr hv)

end Side

/-- A book with both sides in ascending order. -/
def Book.IsAscending (b : Book) : Prop := b.bids.IsAscending ∧ b.asks.IsAscending

instance (b : Book) : Decidable b.IsAscending := inferInstanceAs (Decidable (_ ∧ _))

/-- The level with so many digits of its price behind the point, and a size without any. -/
def Level.scaled (digits scale size : ℕ) : Level where
  price := (Decimal.ofParts? false digits scale).getD .zero
  size := (Decimal.ofParts? false size 0).getD .zero

/-- A level with a price below zero. -/
def Level.belowZero : Level where
  price := (Decimal.ofParts? true 1 0).getD .zero
  size := (Decimal.ofParts? false 1 0).getD .zero

end LiveBook
