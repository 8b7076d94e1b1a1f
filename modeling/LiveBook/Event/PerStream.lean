import LiveBook.Event.Basic

/-!
# One value for each stream

The three streams of events are treated alike in many places. `LiveBook.PerStream` holds a
value for each of them; a change to one leaves the others alone.
-/

namespace LiveBook

/-- A value for each of the three streams. -/
structure PerStream (α : Type) where
  diff : α
  snapshot : α
  trade : α
deriving DecidableEq, Repr, Inhabited

namespace PerStream

variable {α : Type}

/-- The same value for each stream. -/
def const (a : α) : PerStream α := ⟨a, a, a⟩

/-- The value for a stream. -/
def get (p : PerStream α) : EventStream → α
  | .diff => p.diff
  | .snapshot => p.snapshot
  | .trade => p.trade

/-- Changes the value for a stream. -/
def update (p : PerStream α) (s : EventStream) (f : α → α) : PerStream α :=
  match s with
  | .diff => { p with diff := f p.diff }
  | .snapshot => { p with snapshot := f p.snapshot }
  | .trade => { p with trade := f p.trade }

/-- The values, in the order of the streams. -/
def toList (p : PerStream α) : List α := [p.diff, p.snapshot, p.trade]

@[simp]
theorem get_const (a : α) (s : EventStream) : (const a).get s = a := by cases s <;> rfl

@[simp]
theorem get_update (p : PerStream α) (s s' : EventStream) (f : α → α) :
    (p.update s f).get s' = if s = s' then f (p.get s') else p.get s' := by
  cases s <;> cases s' <;> rfl

theorem update_update (p : PerStream α) (s : EventStream) (f g : α → α) :
    (p.update s f).update s g = p.update s (g ∘ f) := by
  cases s <;> rfl

theorem update_get (p : PerStream α) (s : EventStream) : (p.update s fun _ => p.get s) = p := by
  cases s <;> rfl

end PerStream

end LiveBook
