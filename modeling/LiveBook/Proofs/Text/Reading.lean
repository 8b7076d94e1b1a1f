import Mathlib.Data.List.Induction
import Mathlib.Data.List.TakeWhile
import Mathlib.Tactic.Ring
import LiveBook.Number.Power
import LiveBook.Text.Digits

/-!
# Reading digits

A reader that succeeds has succeeded with each of its parts (`LiveBook.bind_eq_ok`). The parts that
all readers share are digit strings.

A digit string denotes a number below a power of ten, and one more digit in front or behind moves
the others by one place (`LiveBook.Digits.valueFrom_eq`). The digits of a number denote it, also
with zeros in front, and fill the width for which they were padded if the number has room in it
(`LiveBook.Digits.value_padded`, `LiveBook.Digits.length_padded`).

What reads digits takes as many as there are: `LiveBook.Digits.takeWhile_append`.
-/

namespace LiveBook

@[simp]
theorem ok_bind {ε α β : Type} (a : α) (f : α → Except ε β) : Except.ok a >>= f = f a := rfl

theorem bind_eq_ok {ε α β : Type} {x : Except ε α} {f : α → Except ε β} {b : β} :
    x >>= f = .ok b ↔ ∃ a, x = .ok a ∧ f a = .ok b := by
  cases x with
  | error e => exact iff_of_false nofun (by rintro ⟨a, h, -⟩; cases h)
  | ok a => exact ⟨fun h => ⟨a, rfl, h⟩, by rintro ⟨_, ⟨⟩, h⟩; exact h⟩

namespace Digits

open Number (tenTo)

variable {n w : ℕ} {ds cs : List Char} {c : Char}

/-! ### Digits -/

theorem isDigit_char (d : ℕ) : isDigit (char d) = true := by
  unfold char
  split <;> rfl

theorem digit?_lt {d : ℕ} (h : digit? c = some d) : d < 10 := by
  unfold digit? at h
  split at h
  next hc =>
    obtain rfl := Option.some.inj h
    have hle : c.toNat ≤ '9'.toNat := Char.le_def.mp hc.2
    have h9 : '9'.toNat = 57 := rfl
    have h0 : '0'.toNat = 48 := rfl
    omega
  next => cases h

theorem digit?_of_isDigit (h : isDigit c = true) : ∃ d, digit? c = some d ∧ d < 10 := by
  obtain ⟨d, hd⟩ := Option.isSome_iff_exists.mp h
  exact ⟨d, hd, digit?_lt hd⟩

/-! ### Digit strings -/

/-- There is nothing but digits. -/
def IsNumeral (ds : List Char) : Prop := ∀ c ∈ ds, isDigit c = true

theorem isNumeral_ofNat (n : ℕ) : IsNumeral (ofNat n) := by
  induction n using ofNat.induct with
  | case1 n h =>
    rw [ofNat, if_pos h]
    intro c hc
    obtain rfl := List.mem_singleton.mp hc
    exact isDigit_char n
  | case2 n h ih =>
    rw [ofNat, if_neg h]
    intro c hc
    rcases List.mem_append.mp hc with hc | hc
    · exact ih c hc
    · obtain rfl := List.mem_singleton.mp hc
      exact isDigit_char _

theorem isNumeral_padded (w n : ℕ) : IsNumeral (padded w n) := by
  intro c hc
  rcases List.mem_append.mp hc with hc | hc
  · obtain rfl := List.eq_of_mem_replicate hc
    rfl
  · exact isNumeral_ofNat n c hc

/-- **A digit string behind a number** moves it by as many places. -/
theorem valueFrom_eq (acc : ℕ) (ds : List Char) :
    valueFrom acc ds = acc * tenTo ds.length + value ds := by
  induction ds generalizing acc with
  | nil => simp [valueFrom, value]
  | cons c ds ih =>
    have hacc := ih (acc * 10 + (digit? c).getD 0)
    have hzero := ih (0 * 10 + (digit? c).getD 0)
    simp only [value, valueFrom, List.foldl_cons] at hacc hzero ⊢
    rw [hacc, hzero, List.length_cons, Number.tenTo_succ]
    ring

theorem le_valueFrom (acc : ℕ) (ds : List Char) : acc ≤ valueFrom acc ds := by
  rw [valueFrom_eq]
  exact (Nat.le_mul_of_pos_right acc (Number.tenTo_pos _)).trans (Nat.le_add_right _ _)

theorem value_append (ds cs : List Char) :
    value (ds ++ cs) = value ds * tenTo cs.length + value cs := by
  rw [value, valueFrom_append, valueFrom_eq]
  rfl

theorem value_singleton (c : Char) : value [c] = (digit? c).getD 0 := by
  simp [value, valueFrom]

/-- **A digit string denotes less than the power of ten** that has one place more. -/
theorem value_lt (ds : List Char) : value ds < tenTo ds.length := by
  induction ds using List.reverseRecOn with
  | nil => exact Nat.one_pos
  | append_singleton ds c ih =>
    rw [value_append, value_singleton, List.length_append, List.length_singleton,
      Number.tenTo_succ, Number.tenTo_succ, Number.tenTo_zero]
    have hdigit : (digit? c).getD 0 < 10 := by
      cases hc : digit? c with
      | none => decide
      | some d => exact digit?_lt hc
    omega

/-! ### Numbers with zeros in front -/

theorem value_replicate_zero (k : ℕ) : value (List.replicate k '0') = 0 := by
  induction k with
  | zero => rfl
  | succ k ih => exact ih

/-- **The digits of a number denote it.** -/
theorem value_padded (w n : ℕ) : value (padded w n) = n := by
  have h := value_append (List.replicate (w - (ofNat n).length) '0') (ofNat n)
  rw [value_replicate_zero, Nat.zero_mul, Nat.zero_add, value_ofNat] at h
  exact h

theorem length_ofNat_le (hw : 0 < w) (h : n < tenTo w) : (ofNat n).length ≤ w := by
  induction n using ofNat.induct generalizing w with
  | case1 n hn =>
    rw [ofNat, if_pos hn]
    exact hw
  | case2 n hn ih =>
    obtain ⟨w, rfl⟩ := Nat.exists_eq_succ_of_ne_zero hw.ne'
    rw [Number.tenTo_succ] at h
    have hw' : 0 < w := by
      refine Nat.pos_of_ne_zero ?_
      rintro rfl
      rw [Number.tenTo_zero] at h
      omega
    have hle := ih hw' (by omega)
    rw [ofNat, if_neg hn, List.length_append, List.length_singleton]
    omega

/-- A number that has room fills the width. -/
theorem length_padded (hw : 0 < w) (h : n < tenTo w) : (padded w n).length = w := by
  have hle := length_ofNat_le hw h
  rw [padded, List.length_append, List.length_replicate]
  omega

theorem le_length_padded (w n : ℕ) : w ≤ (padded w n).length := by
  rw [padded, List.length_append, List.length_replicate]
  omega

/-! ### Reading -/

/-- No digit comes next. -/
def EndsNumber (cs : List Char) : Prop := ∀ c ∈ cs.head?, isDigit c = false

theorem endsNumber_of_head (h : isDigit c = false) (cs : List Char) : EndsNumber (c :: cs) := by
  intro d hd
  obtain rfl := Option.some.inj hd
  exact h

/-- **The digits in front** are all that are taken. -/
theorem takeWhile_append (hds : IsNumeral ds) (hcs : EndsNumber cs) :
    (ds ++ cs).takeWhile isDigit = ds := by
  rw [List.takeWhile_append_of_pos hds]
  cases cs with
  | nil => simp
  | cons c cs => simp [hcs c rfl]

end Digits

end LiveBook
