/-!
# Powers of two and of ten

The two bases in which numbers are kept: decimals are moved by powers of ten, and the bits of
a word and of a floating number by powers of two. No power of ten is zero, so that a
coefficient can be divided by it.
-/

namespace LiveBook.Number

/-- The power of two with the given exponent. -/
def twoTo (n : Nat) : Nat := Nat.pow 2 n

/-- The power of ten with the given exponent. -/
def tenTo (n : Nat) : Nat := Nat.pow 10 n

/-! ### Powers and their exponents -/

@[simp] theorem twoTo_zero : twoTo 0 = 1 := rfl

@[simp] theorem tenTo_zero : tenTo 0 = 1 := rfl

theorem tenTo_succ (n : Nat) : tenTo (n + 1) = tenTo n * 10 := rfl

theorem tenTo_pos (n : Nat) : 0 < tenTo n := by
  induction n with
  | zero => exact Nat.one_pos
  | succ n ih => exact Nat.mul_pos ih (by decide)

end LiveBook.Number
