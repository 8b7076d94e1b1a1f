import LiveBook.Json.Decode
import LiveBook.Proofs.Text.Reading

/-!
# What the fields of a record have in common

A record is put together field by field, from members in any order or from items in theirs, and some
fields may be missing. What holds of the draft at the beginning, and is kept whichever field is read
next, holds of the draft from which the record is made:
`LiveBook.Json.Record.Keeps.exists_of_decode`.
-/

namespace LiveBook.Json

/-! ### What is not decoded -/

theorem wrongType_ne_ok {α : Type} {a : α} {d : Document} {expected : String} :
    wrongType d expected ≠ .ok a := by
  intro h
  obtain ⟨_, -, h⟩ := bind_eq_ok.mp h
  cases h

theorem wrongValue_ne_ok {α : Type} {a : α} {d : Document} {expected : String} :
    wrongValue d expected ≠ .ok a := by
  intro h
  obtain ⟨_, -, h⟩ := bind_eq_ok.mp h
  cases h

theorem unsigned_lt {name : String} {bound n : ℕ} {d : Document}
    (h : unsigned name bound d = .ok n) : n < bound := by
  unfold unsigned at h
  split at h
  next i =>
    split at h
    next hi =>
      obtain rfl := Except.ok.inj h
      omega
    next => exact absurd h wrongValue_ne_ok
  next => exact absurd h wrongType_ne_ok

theorem forall_of_mapM {α : Type} {item : Document → Decode α} {P : α → Prop}
    {items : List Document} {as : List α} (hitem : ∀ d a, item d = .ok a → P a)
    (h : items.mapM item = .ok as) : ∀ a ∈ as, P a := by
  induction items generalizing as with
  | nil =>
    obtain rfl := Except.ok.inj h
    nofun
  | cons d items ih =>
    rw [List.mapM_cons] at h
    obtain ⟨a, ha, h⟩ := bind_eq_ok.mp h
    obtain ⟨as, has, h⟩ := bind_eq_ok.mp h
    obtain rfl := Except.ok.inj h
    exact List.forall_mem_cons.mpr ⟨hitem d a ha, ih has⟩

/-- What holds of whatever is decoded as an item holds of every item of an array. -/
theorem forall_of_list {α : Type} {item : Document → Decode α} {P : α → Prop} {d : Document}
    {as : List α} (hitem : ∀ d a, item d = .ok a → P a) (h : list item d = .ok as) :
    ∀ a ∈ as, P a := by
  unfold list at h
  split at h
  next items ending =>
    obtain ⟨as', has, h⟩ := bind_eq_ok.mp h
    obtain ⟨-, -, h⟩ := bind_eq_ok.mp h
    obtain rfl := Except.ok.inj h
    exact forall_of_mapM hitem has
  next => exact absurd h wrongType_ne_ok

/-! ### Whole texts -/

/-- What is decoded from a text is decoded from its document. -/
theorem exists_of_decodeText {α : Type} {decode : Document → Decode α} {text : String} {a : α}
    (h : decodeText decode text = .ok a) : ∃ d, decode d = .ok a := by
  unfold decodeText at h
  generalize read text = result at h
  obtain ⟨d, trailing⟩ := result
  obtain ⟨a', ha', h⟩ := bind_eq_ok.mp h
  cases trailing with
  | true => cases h
  | false => exact ⟨d, ha'.trans h⟩

/-- A text with nothing behind its value. -/
theorem decodeText_eq_ok {α : Type} {decode : Document → Decode α} {text : String} {d : Document}
    {a : α} (hread : read text = (d, false)) (h : decode d = .ok a) :
    decodeText decode text = .ok a := by
  rw [decodeText, hread]
  exact bind_eq_ok.mpr ⟨a, h, rfl⟩

/-! ### Records -/

namespace Record

variable {σ α : Type} {r : Record σ} {P : σ → Prop} {s s' : σ}

/-- **What every field keeps** when it is read into a draft. -/
def Keeps (r : Record σ) (P : σ → Prop) : Prop :=
  ∀ f ∈ r.fields, ∀ d s s', f.read d s = .ok s' → P s → P s'

theorem Keeps.readMembers (h : r.Keeps P) {seen : List String} {members : List (String × Document)}
    (hread : r.readMembers seen s members = .ok s') (hs : P s) : P s' := by
  induction members generalizing seen s with
  | nil =>
    obtain rfl := Except.ok.inj hread
    exact hs
  | cons m members ih =>
    rw [Record.readMembers] at hread
    split at hread
    next =>
      obtain ⟨-, -, hread⟩ := bind_eq_ok.mp hread
      exact ih hread hs
    next f hf =>
      split at hread
      next => cases hread
      next =>
        obtain ⟨s₁, hs₁, hread⟩ := bind_eq_ok.mp hread
        exact ih hread (h f (List.mem_of_find?_eq_some hf) _ _ _ hs₁ hs)

theorem Keeps.readItems (h : r.Keeps P) {n extra : ℕ} {ending : Option Fault}
    {fs : List (Field σ)} {ds : List Document} (hfs : ∀ f ∈ fs, f ∈ r.fields)
    (hread : r.readItems n s ending fs ds = .ok (s', extra)) (hs : P s) : P s' := by
  induction fs generalizing n s ds with
  | nil =>
    obtain ⟨rfl, -⟩ := Prod.mk.inj (Except.ok.inj hread)
    exact hs
  | cons f fs ih =>
    have hfs' : ∀ f ∈ fs, f ∈ r.fields := fun f hf => hfs f (List.mem_cons_of_mem _ hf)
    cases ds with
    | nil =>
      obtain ⟨-, -, hread⟩ := bind_eq_ok.mp hread
      split at hread
      next => cases hread
      next => exact ih hfs' hread hs
    | cons d ds =>
      obtain ⟨s₁, hs₁, hread⟩ := bind_eq_ok.mp hread
      exact ih hfs' hread (h f (hfs f List.mem_cons_self) _ _ _ hs₁ hs)

/-- **A record is made from a draft** of which everything holds that its fields keep. -/
theorem Keeps.exists_of_decode (h : r.Keeps P) {mode : Mode} {start : σ} {finish : σ → Decode α}
    {d : Document} {a : α} (hstart : P start) (hread : r.decode mode start finish d = .ok a) :
    ∃ s, P s ∧ finish s = .ok a := by
  unfold decode at hread
  split at hread
  next members ending =>
    obtain ⟨s, hs, hread⟩ := bind_eq_ok.mp hread
    obtain ⟨-, -, hfinish⟩ := bind_eq_ok.mp hread
    exact ⟨s, h.readMembers hs hstart, hfinish⟩
  next items ending =>
    obtain ⟨⟨s, extra⟩, hs, hread⟩ := bind_eq_ok.mp hread
    obtain ⟨a', hfinish, hread⟩ := bind_eq_ok.mp hread
    split at hread
    next =>
      unfold surplus at hread
      split at hread <;> cases hread
    next =>
      obtain ⟨-, -, hread⟩ := bind_eq_ok.mp hread
      obtain rfl := Except.ok.inj hread
      exact ⟨s, h.readItems (fun _ hf => hf) hs hstart, hfinish⟩
  next => exact absurd hread wrongType_ne_ok

end Record

end LiveBook.Json
