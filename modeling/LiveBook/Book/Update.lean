import LiveBook.Book.Basic

/-!
# Updating a book in place

One writer holds a book and changes it field by field. An update may be refused on its way, and
what it has changed by then stays changed: nothing is undone. So the order counts in which an
update looks at its levels and sets fields.

* `LiveBook.StampedBook` – a book with the time at which its levels were last changed;
* `LiveBook.BookUpdate`, `LiveBook.BookUpdate.perform` – an update, and what it leads to;
* `LiveBook.BookUpdate.diff`, `LiveBook.BookUpdate.snapshot`, `LiveBook.BookUpdate.restore` – the
  updates of the levels, step by step;
* `LiveBook.BookCall`, `LiveBook.StampedBook.afterAll` – whatever can be done to a book, and what
  comes of it in place; `LiveBook.Book.afterCalls` is what should come of it.
-/

namespace LiveBook

open Time (Timestamp)

/-- A book with the time of the last change to its levels. -/
structure StampedBook where
  book : Book
  updatedAt : Timestamp
deriving DecidableEq, Inhabited

/-- **A change to a book in place.** It may be refused, and then leaves the book as it is at that
moment. -/
abbrev BookUpdate (α : Type) := ExceptT BookError (StateM StampedBook) α

namespace BookUpdate

/-- What an update leads to: its result or why it was refused, and the book that it leaves. -/
def perform {α : Type} (u : BookUpdate α) (st : StampedBook) : Except BookError α × StampedBook :=
  StateT.run (ExceptT.run u) st

/-- Looks at levels one after the other, at the price before the size, and refuses the first thing
below zero. -/
def check (sequence : Nat) : List Level → BookUpdate Unit
  | [] => return ()
  | l :: rest => do
    let st ← get
    if l.price.isNegative then
      throw (.invalidLevel st.book.market sequence (.negativePrice l.price))
    if l.size.isNegative then
      throw (.invalidLevel st.book.market sequence (.negativeSize l.size l.price))
    check sequence rest

/-- Merges changes into the levels. -/
def diff (bids asks : List Level) (sequence : Nat) (now : Timestamp) : BookUpdate Unit := do
  check sequence bids
  check sequence asks
  modify fun st => { st with book.bids := st.book.bids.merge bids }
  modify fun st => { st with book.asks := st.book.asks.merge asks }
  modify fun st => { st with
    book.lastDiff := some (st.book.lastDiff.elim sequence (max · sequence)) }
  modify fun st => { st with updatedAt := now }

/-- Replaces all levels. -/
def snapshot (bids asks : List Level) (sequence : Nat) (now : Timestamp) : BookUpdate Unit := do
  check sequence bids
  check sequence asks
  modify fun st => { st with book.bids := .ofLevels bids }
  modify fun st => { st with book.asks := .ofLevels asks }
  modify fun st => { st with book.snapshotSequence := sequence }
  modify fun st => { st with book.lastDiff := none }
  modify fun st => { st with updatedAt := now }

/-- Looks at the levels of diffs, one diff after the other. -/
def checkAll : List Diff → BookUpdate Unit
  | [] => return ()
  | d :: rest => do
    check d.sequence d.bids
    check d.sequence d.asks
    checkAll rest

/-- Merges diffs one after the other. The clock is read for each of them. -/
def replay (clock : Nat → Timestamp) (i : Nat) : List Diff → BookUpdate Unit
  | [] => return ()
  | d :: rest => do
    diff d.bids d.asks d.sequence (clock i)
    replay clock (i + 1) rest

/-- Replaces all levels, and merges those of the recent diffs that are newer, in the order given.
All of them are looked at before anything is changed. The result is the number of diffs that were
merged. -/
def restore (clock : Nat → Timestamp) (s : Snapshot) (recent : List Diff) : BookUpdate Nat := do
  let st ← get
  if s.market ≠ st.book.market then
    throw (.marketMismatch st.book.market s.market)
  let newer := recent.filter fun d => s.sequence < d.sequence
  checkAll newer
  snapshot s.bids s.asks s.sequence (clock 0)
  replay clock 1 newer
  return newer.length

end BookUpdate

/-! ### Whatever can be done to a book -/

/-- **What is done to a book**, with the times that the clocks show. -/
inductive BookCall where
  | diff (bids asks : List Level) (sequence : Nat) (now : Timestamp)
  | snapshot (bids asks : List Level) (sequence : Nat) (now : Timestamp)
  | restore (clock : Nat → Timestamp) (s : Snapshot) (recent : List Diff)
  | trade (t : Trade) (now : Instant)
  | refresh (price : Decimal) (now : Instant)
  | touch (now : Instant)

namespace BookCall

/-- The update that a call makes. -/
def update : BookCall → BookUpdate Unit
  | .diff bids asks n now => .diff bids asks n now
  | .snapshot bids asks n now => .snapshot bids asks n now
  | .restore clock s recent => do
    let _ ← BookUpdate.restore clock s recent
    return ()
  | .trade t now => modify fun st => { st with book := st.book.applyTrade t.price now }
  | .refresh price now => modify fun st => { st with book := st.book.applyRefresh price now }
  | .touch now => modify fun st => { st with book := st.book.touchRefresh now }

/-- The book that a call leaves, whether it is refused or not. -/
def after (st : StampedBook) (c : BookCall) : StampedBook := (c.update.perform st).2

/-- What a call makes of a book, or why it is refused. -/
def result (b : Book) : BookCall → Except BookError Book
  | .diff bids asks n _ => b.applyDiff bids asks n
  | .snapshot bids asks n _ => b.applySnapshot bids asks n
  | .restore _ s recent => (b.restore s recent).map Prod.fst
  | .trade t now => .ok (b.applyTrade t.price now)
  | .refresh price now => .ok (b.applyRefresh price now)
  | .touch now => .ok (b.touchRefresh now)

end BookCall

/-- The book after calls one after the other, each of which may be refused. -/
def StampedBook.afterAll (st : StampedBook) (cs : List BookCall) : StampedBook :=
  cs.foldl BookCall.after st

/-- What calls make of a book one after the other. One that is refused makes nothing of it. -/
def Book.afterCalls (b : Book) (cs : List BookCall) : Book :=
  cs.foldl (fun b c => (c.result b).toOption.getD b) b

end LiveBook
