import LiveBook.Event.Basic

/-!
# Diffs without a book

While the first snapshot of a market is being fetched, its diffs are set aside, oldest
first. The list is bounded; a full list hands its oldest diff back when a new one
comes, so that the loss can be counted. A capacity of zero counts as one.
-/

namespace LiveBook

/-- The diffs of a market that has no book yet, oldest first. -/
structure PendingDiffs where
  capacity : Nat
  diffs : List Diff
deriving DecidableEq, Inhabited

namespace PendingDiffs

/-- The capacity where none is given. -/
def defaultCapacity : Nat := 1000

/-- An empty list with room for `capacity` diffs. -/
def ofCapacity (capacity : Nat) : PendingDiffs := ⟨max capacity 1, []⟩

/-- Appends a diff; a full list hands its oldest back. -/
def push (p : PendingDiffs) (d : Diff) : PendingDiffs × Option Diff :=
  if p.capacity ≤ p.diffs.length then
    ({ p with diffs := p.diffs.tail ++ [d] }, p.diffs.head?)
  else ({ p with diffs := p.diffs ++ [d] }, none)

/-- Takes the oldest diff. -/
def pop (p : PendingDiffs) : PendingDiffs × Option Diff :=
  ({ p with diffs := p.diffs.tail }, p.diffs.head?)

/-- Takes all diffs, oldest first. -/
def take (p : PendingDiffs) : PendingDiffs × List Diff := ({ p with diffs := [] }, p.diffs)

/-- The diffs, oldest first. -/
def toList (p : PendingDiffs) : List Diff := p.diffs

/-- The number of diffs. -/
def size (p : PendingDiffs) : Nat := p.diffs.length

/-- Whether there is no diff. -/
def isEmpty (p : PendingDiffs) : Bool := p.diffs.isEmpty

theorem size_eq_zero {p : PendingDiffs} : p.size = 0 ↔ p.isEmpty = true := by
  simp [size, isEmpty]

theorem toList_push_of_lt {p : PendingDiffs} (d : Diff) (h : p.size < p.capacity) :
    p.push d = ({ p with diffs := p.diffs ++ [d] }, none) := by
  have hn : ¬ p.capacity ≤ p.diffs.length := Nat.not_le.mpr h
  simp [push, hn]

/-- What is handed back and what stays are what was there and the new diff, in order. -/
theorem toList_push {p : PendingDiffs} (d : Diff) (hc : 0 < p.capacity) :
    (p.push d).2.toList ++ (p.push d).1.toList = p.toList ++ [d] := by
  unfold push toList
  split
  next h =>
    match hp : p.diffs with
    | [] => simp [hp] at h; omega
    | x :: xs => simp
  next => simp

end PendingDiffs

end LiveBook
