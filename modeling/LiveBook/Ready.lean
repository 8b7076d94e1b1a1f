import LiveBook.Jobs

/-!
# The ready signal

A flag that is raised once every configured market has a book, and lowered when tracking
stops. Some wait for it to be raised; others watch it for changes, and for them every
change has a number.
-/

namespace LiveBook

/-- A flag and the number of times it has changed. -/
structure ReadySignal where
  raised : Bool := false
  changes : Nat := 0
deriving DecidableEq, Repr, Inhabited

namespace ReadySignal

/-- Puts the flag into a position. -/
def put (s : ReadySignal) (raised : Bool) : ReadySignal :=
  if s.raised = raised then s else ⟨raised, s.changes + 1⟩

/-- Raises the flag. -/
def raise (s : ReadySignal) : ReadySignal := s.put true

/-- Lowers the flag. -/
def clear (s : ReadySignal) : ReadySignal := s.put false

@[simp]
theorem raised_put (s : ReadySignal) (b : Bool) : (s.put b).raised = b := by
  unfold put
  split
  next h => exact h
  next => rfl

/-- The flag has changed exactly when its position has. -/
theorem changes_put (s : ReadySignal) (b : Bool) :
    (s.put b).changes = s.changes + if s.raised = b then 0 else 1 := by
  unfold put
  split <;> simp

end ReadySignal

/-- A ready signal with some who wait for it, and one who watches it. -/
structure ReadyWatch where
  signal : ReadySignal := {}
  /-- The change that was last noticed by the one who watches. -/
  noticed : Nat := 0
  waiters : Jobs Unit := {}

namespace ReadyWatch

/-- Lets those who wait look at the flag. -/
def settle (w : ReadyWatch) : ReadyWatch :=
  if w.signal.raised then { w with waiters := w.waiters.finishAll () } else w

/-- Asks about one who waits. -/
def poll (w : ReadyWatch) (id : Int) : ReadyWatch × Polled Unit :=
  let w := w.settle
  let (waiters, polled) := w.waiters.poll id
  ({ w with waiters := waiters }, polled)

/-- Somebody begins to wait. -/
def wait (w : ReadyWatch) (id : Int) : ReadyWatch × Polled Unit :=
  { w with waiters := w.waiters.begin id }.poll id

/-- Whether the flag has changed since it was last noticed. -/
def hasChanged (w : ReadyWatch) : Bool := w.signal.changes ≠ w.noticed

/-- Notices the last change. -/
def notice (w : ReadyWatch) : ReadyWatch := { w with noticed := w.signal.changes }

end ReadyWatch

end LiveBook
