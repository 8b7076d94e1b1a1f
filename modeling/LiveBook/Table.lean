/-!
# Tables

A table holds a value for each of some keys. Its entries keep the order in which their
keys first came; setting a value anew leaves a key at its place.

The view of a table is `LiveBook.Table.get?`; one lemma for each operation says what it
does to it.
-/

namespace LiveBook

/-- **A finite table** from keys to values. -/
structure Table (κ α : Type) where
  entries : List (κ × α)
deriving DecidableEq, Repr, Inhabited

namespace Table

variable {κ α β : Type} [DecidableEq κ]

/-- The table without any entry. -/
def empty : Table κ α := ⟨[]⟩

/-- The value of a key in a list of entries: that of the first entry with it. -/
def find (k : κ) : List (κ × α) → Option α
  | [] => none
  | (x, a) :: rest => if x = k then some a else find k rest

/-- The entries with the value of a key set. -/
def put (k : κ) (a : α) : List (κ × α) → List (κ × α)
  | [] => [(k, a)]
  | (x, b) :: rest => if x = k then (x, a) :: rest else (x, b) :: put k a rest

/-- The value of a key. -/
def get? (t : Table κ α) (k : κ) : Option α := find k t.entries

/-- Sets the value of a key. -/
def set (t : Table κ α) (k : κ) (a : α) : Table κ α := ⟨put k a t.entries⟩

/-- Sets the value of a key that has none. -/
def insertIfNew (t : Table κ α) (k : κ) (a : α) : Table κ α :=
  if (t.get? k).isSome then t else t.set k a

/-- Takes a key out. -/
def erase (t : Table κ α) (k : κ) : Table κ α := ⟨t.entries.filter fun e => e.1 ≠ k⟩

/-- Whether a key has a value. -/
def contains (t : Table κ α) (k : κ) : Bool := (t.get? k).isSome

/-- Changes the value of a key, which is `start` for a key without one. -/
def update (t : Table κ α) (k : κ) (start : α) (f : α → α) : Table κ α :=
  t.set k (f ((t.get? k).getD start))

/-- Changes the value of a key that has one. -/
def adjust (t : Table κ α) (k : κ) (f : α → α) : Table κ α :=
  match t.get? k with
  | some a => t.set k (f a)
  | none => t

/-- The keys, in the order in which they came. -/
def keys (t : Table κ α) : List κ := t.entries.map (·.1)

/-- The number of entries. -/
def size (t : Table κ α) : Nat := t.entries.length

/-! ### What the operations do to the view -/

@[simp]
theorem get?_empty (k : κ) : (empty : Table κ α).get? k = none := rfl

theorem find_put (k k' : κ) (a : α) (es : List (κ × α)) :
    find k' (put k a es) = if k = k' then some a else find k' es := by
  induction es with
  | nil => simp [put, find]
  | cons e rest ih =>
    obtain ⟨x, b⟩ := e
    by_cases hx : x = k
    · subst hx
      by_cases h : x = k' <;> simp [put, find, h]
    · by_cases h : k = k'
      · subst h
        simp [put, find, hx, ih]
      · by_cases hx' : x = k'
        · subst hx'
          simp [put, find, hx, h]
        · simp [put, find, hx, hx', ih, h]

theorem find_filter_ne (k k' : κ) (es : List (κ × α)) :
    find k' (es.filter fun e => e.1 ≠ k) = if k = k' then none else find k' es := by
  induction es with
  | nil => simp [find]
  | cons e rest ih =>
    obtain ⟨x, b⟩ := e
    by_cases hx : x = k
    · subst hx
      by_cases h : x = k'
      · simpa [h] using ih
      · simpa [h, find] using ih
    · by_cases h : x = k'
      · subst h
        simp [hx, find, Ne.symm hx]
      · have := ih
        simp only [ne_eq, decide_not] at this
        simp [hx, find, h, this]

@[simp]
theorem get?_set (t : Table κ α) (k k' : κ) (a : α) :
    (t.set k a).get? k' = if k = k' then some a else t.get? k' :=
  find_put k k' a t.entries

/-- A value that is there stays. -/
theorem get?_insertIfNew (t : Table κ α) (k k' : κ) (a : α) :
    (t.insertIfNew k a).get? k' = (t.get? k').or (if k = k' then some a else none) := by
  unfold insertIfNew
  split
  next hsome =>
    by_cases hk : k = k'
    · subst hk
      obtain ⟨b, hb⟩ := Option.isSome_iff_exists.mp hsome
      simp [hb]
    · simp [hk]
  next hnone =>
    rw [get?_set]
    by_cases hk : k = k'
    · subst hk
      simp at hnone
      simp [hnone]
    · simp [hk]

@[simp]
theorem get?_erase (t : Table κ α) (k k' : κ) :
    (t.erase k).get? k' = if k = k' then none else t.get? k' :=
  find_filter_ne k k' t.entries

theorem get?_update (t : Table κ α) (k k' : κ) (start : α) (f : α → α) :
    (t.update k start f).get? k' =
      if k = k' then some (f ((t.get? k').getD start)) else t.get? k' := by
  by_cases h : k = k'
  · subst h
    simp [update]
  · simp [update, h]

theorem get?_adjust (t : Table κ α) (k k' : κ) (f : α → α) :
    (t.adjust k f).get? k' = if k = k' then (t.get? k').map f else t.get? k' := by
  unfold adjust
  split
  next a ha =>
    by_cases h : k = k'
    · subst h
      simp [ha]
    · simp [h]
  next ha =>
    by_cases h : k = k'
    · subst h
      simp [ha]
    · simp [h]

/-- What the view shows is among the entries. -/
theorem mem_entries_of_get? {t : Table κ α} {k : κ} {a : α} (h : t.get? k = some a) :
    (k, a) ∈ t.entries := by
  obtain ⟨es⟩ := t
  change find k es = some a at h
  induction es with
  | nil => cases h
  | cons e es ih =>
    unfold find at h
    split at h
    next hk =>
      obtain rfl := Option.some.inj h
      exact hk ▸ List.mem_cons_self
    next => exact List.mem_cons_of_mem _ (ih h)

/-! ### Tables in which every key has one entry -/

/-- Every key has one entry only. -/
def IsMap (t : Table κ α) : Prop := t.keys.Nodup

omit [DecidableEq κ] in
theorem isMap_empty : (empty : Table κ α).IsMap := List.nodup_nil

/-- What is set is the only new value. -/
theorem mem_put {k : κ} {a : α} {es : List (κ × α)} {e : κ × α} (h : e ∈ put k a es) :
    e = (k, a) ∨ e ∈ es := by
  induction es with
  | nil => exact .inl (by simpa [put] using h)
  | cons e' es ih =>
    obtain ⟨x, b⟩ := e'
    unfold put at h
    split at h
    next hx =>
      rcases List.mem_cons.mp h with rfl | h
      · exact .inl (by rw [hx])
      · exact .inr (List.mem_cons_of_mem _ h)
    next =>
      rcases List.mem_cons.mp h with rfl | h
      · exact .inr List.mem_cons_self
      · exact (ih h).imp_right (List.mem_cons_of_mem _)

theorem IsMap.set {t : Table κ α} (h : t.IsMap) (k : κ) (a : α) : (t.set k a).IsMap := by
  obtain ⟨es⟩ := t
  change ((put k a es).map Prod.fst).Nodup
  change (es.map Prod.fst).Nodup at h
  induction es with
  | nil => simp [put]
  | cons x es ih =>
    obtain ⟨hnew, hrest⟩ := List.nodup_cons.mp h
    unfold put
    split
    next hx => exact List.nodup_cons.mpr ⟨hnew, hrest⟩
    next hx =>
      refine List.nodup_cons.mpr ⟨?_, ih hrest⟩
      -- the entry behind is one of the old ones, or that of the key
      intro hmem
      obtain ⟨e, he, heq⟩ := List.mem_map.mp hmem
      rcases mem_put he with rfl | he
      · exact hx heq.symm
      · exact hnew (heq ▸ List.mem_map_of_mem he)

theorem IsMap.insertIfNew {t : Table κ α} (h : t.IsMap) (k : κ) (a : α) :
    (t.insertIfNew k a).IsMap := by
  unfold Table.insertIfNew
  split
  · exact h
  · exact h.set k a

theorem IsMap.adjust {t : Table κ α} (h : t.IsMap) (k : κ) (f : α → α) : (t.adjust k f).IsMap := by
  unfold Table.adjust
  split
  · exact h.set k _
  · exact h

theorem IsMap.erase {t : Table κ α} (h : t.IsMap) (k : κ) : (t.erase k).IsMap :=
  h.sublist (List.filter_sublist.map _)

/-- What is among the entries is what the view shows. -/
theorem IsMap.get?_of_mem {t : Table κ α} (h : t.IsMap) {k : κ} {a : α}
    (hmem : (k, a) ∈ t.entries) : t.get? k = some a := by
  obtain ⟨es⟩ := t
  change find k es = some a
  change (es.map Prod.fst).Nodup at h
  induction es with
  | nil => cases hmem
  | cons x es ih =>
    obtain ⟨hnew, hrest⟩ := List.nodup_cons.mp h
    rcases List.mem_cons.mp hmem with rfl | hmem
    · simp [find]
    · have hne : x.1 ≠ k := fun heq => hnew (heq ▸ List.mem_map_of_mem hmem)
      rw [find, if_neg hne]
      exact ih hmem hrest

/-- The keys are those that have a value. -/
theorem mem_keys_iff {t : Table κ α} {k : κ} : k ∈ t.keys ↔ ∃ a, t.get? k = some a := by
  obtain ⟨es⟩ := t
  change k ∈ es.map Prod.fst ↔ ∃ a, find k es = some a
  induction es with
  | nil => simp [find]
  | cons e es ih =>
    unfold find
    split
    next hk => simp [hk]
    next hk => simp [Ne.symm hk, ih]

end Table

end LiveBook
