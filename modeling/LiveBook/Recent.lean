/-!
# The last few of many

A bounded list that remembers the last items that were pushed into it, oldest first.
When it is full, a new item takes the place of the oldest, which is forgotten. A
capacity of zero counts as one.

`LiveBook.Recent.toList_push` says what a push does to the items: it appends, and
drops as many of the oldest as do not fit.
-/

namespace LiveBook

/-- The last items pushed, oldest first. -/
structure Recent (α : Type) where
  capacity : Nat
  items : List α
deriving DecidableEq, Repr, Inhabited

namespace Recent

variable {α : Type}

/-- An empty list with room for `capacity` items. -/
def ofCapacity (capacity : Nat) : Recent α := ⟨max capacity 1, []⟩

/-- Appends an item; a full list gives up its oldest. -/
def push (r : Recent α) (a : α) : Recent α :=
  { r with items := (if r.items.length = r.capacity then r.items.tail else r.items) ++ [a] }

/-- The items, oldest first. -/
def toList (r : Recent α) : List α := r.items

/-- A loop over the list visits the items, oldest first. -/
instance {m : Type → Type} [Monad m] : ForIn m (Recent α) α where
  forIn r b f := forIn r.items b f

/-- The number of items. -/
def size (r : Recent α) : Nat := r.items.length

/-- Whether there is no item. -/
def isEmpty (r : Recent α) : Bool := r.items.isEmpty

/-- Forgets all items. -/
def clear (r : Recent α) : Recent α := { r with items := [] }

@[simp]
theorem capacity_push (r : Recent α) (a : α) : (r.push a).capacity = r.capacity := rfl

/-- A loop over the list is one over its items. -/
theorem forIn_eq_forIn_toList {m : Type → Type} [Monad m] {β : Type} (r : Recent α) (b : β)
    (f : α → β → m (ForInStep β)) : forIn r b f = forIn r.toList b f := rfl

theorem toList_push_of_lt {r : Recent α} (a : α) (h : r.size < r.capacity) :
    (r.push a).toList = r.toList ++ [a] := by
  have hne : r.items.length ≠ r.capacity := Nat.ne_of_lt h
  simp [push, toList, hne]

theorem toList_push_of_eq {r : Recent α} (a : α) (h : r.size = r.capacity) :
    (r.push a).toList = r.toList.tail ++ [a] := by
  have he : r.items.length = r.capacity := h
  simp [push, toList, he]

/-- A push appends, and drops as many of the oldest items as do not fit. -/
theorem toList_push {r : Recent α} (a : α) (h : r.size ≤ r.capacity) (hc : 0 < r.capacity) :
    (r.push a).toList =
      (r.toList ++ [a]).drop ((r.toList ++ [a]).length - r.capacity) := by
  rcases Nat.lt_or_eq_of_le h with hlt | heq
  · rw [toList_push_of_lt a hlt]
    have : (r.toList ++ [a]).length - r.capacity = 0 := by
      have : r.toList.length < r.capacity := hlt
      simp
      omega
    rw [this, List.drop_zero]
  · rw [toList_push_of_eq a heq]
    have hl : r.toList.length = r.capacity := heq
    have : (r.toList ++ [a]).length - r.capacity = 1 := by simp [hl]
    rw [this]
    match hr : r.toList with
    | [] => simp [hr] at hl; omega
    | x :: xs => rfl

end Recent

end LiveBook
