/-!
# Digit strings

Sequences, scales, times and prices are all written in decimal digits. This file
holds the two directions of that notation:

* `LiveBook.Digits.ofNat` – the digits of a number, most significant first and
  without leading zeros;
* `LiveBook.Digits.value` – the number that a list of digits denotes.

`LiveBook.Digits.value_ofNat` says that the second undoes the first.
-/

namespace LiveBook.Digits

/-- The character of a digit; digits above nine have none and give `0`. -/
def char (d : Nat) : Char :=
  match d with
  | 1 => '1' | 2 => '2' | 3 => '3' | 4 => '4' | 5 => '5'
  | 6 => '6' | 7 => '7' | 8 => '8' | 9 => '9' | _ => '0'

/-- The value of an ASCII digit. -/
def digit? (c : Char) : Option Nat :=
  if '0' ≤ c ∧ c ≤ '9' then some (c.toNat - '0'.toNat) else none

/-- Whether a character is an ASCII digit. -/
def isDigit (c : Char) : Bool := (digit? c).isSome

/-- The decimal digits of a number, most significant first. -/
def ofNat (n : Nat) : List Char :=
  if n < 10 then [char n] else ofNat (n / 10) ++ [char (n % 10)]

/-- The number that a list of digits denotes, read from the left on top of `acc`;
characters that are not digits count as zero. -/
def valueFrom (acc : Nat) (cs : List Char) : Nat :=
  cs.foldl (fun v c => v * 10 + (digit? c).getD 0) acc

/-- The number that a list of digits denotes. -/
def value (cs : List Char) : Nat := valueFrom 0 cs

/-- The digits of `n`, with zeros in front up to the given width. -/
def padded (width n : Nat) : List Char :=
  let ds := ofNat n
  List.replicate (width - ds.length) '0' ++ ds

/-- The text of a natural number. -/
def natText (n : Nat) : String := String.ofList (ofNat n)

/-- The text of an integer: a minus sign in front of the digits when it is negative. -/
def intText (i : Int) : String :=
  if i < 0 then "-" ++ natText i.natAbs else natText i.natAbs

theorem digit?_char {d : Nat} (h : d < 10) : digit? (char d) = some d := by
  match d, h with
  | 0, _ | 1, _ | 2, _ | 3, _ | 4, _ | 5, _ | 6, _ | 7, _ | 8, _ | 9, _ => rfl

theorem valueFrom_append (acc : Nat) (xs ys : List Char) :
    valueFrom acc (xs ++ ys) = valueFrom (valueFrom acc xs) ys := by
  simp [valueFrom]

/-- Reading the digits of a number gives the number back. -/
theorem value_ofNat (n : Nat) : value (ofNat n) = n := by
  induction n using ofNat.induct with
  | case1 n h =>
    rw [ofNat, if_pos h]
    simp [value, valueFrom, digit?_char h]
  | case2 n h ih =>
    rw [ofNat, if_neg h, value, valueFrom_append]
    have hd : n % 10 < 10 := Nat.mod_lt _ (by decide)
    have hv : valueFrom 0 (ofNat (n / 10)) = n / 10 := ih
    rw [hv]
    simp only [valueFrom, List.foldl_cons, List.foldl_nil, digit?_char hd, Option.getD_some]
    omega

theorem ofNat_ne_nil (n : Nat) : ofNat n ≠ [] := by
  rw [ofNat]
  split <;> simp

end LiveBook.Digits
