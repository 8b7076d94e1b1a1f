import LiveBook.Book.Pending

/-!
# The slot of a market

A tracker has a *slot* for every market that it tracks. It holds the phase of the market,
who keeps its book, who takes its messages, and the diffs that are set aside. The parts
change together: book and queue come when the market becomes active, the queue is cut off
when the market is taken away from its worker, and diffs are set aside only while the
market waits for its first book.

* `LiveBook.MarketSlot` – the parts, with the law that binds them as a field
  (`LiveBook.MarketSlot.Lawful`);
* `LiveBook.MarketSlot.initializing`, `LiveBook.MarketSlot.setPending`,
  `LiveBook.MarketSlot.activated`, `LiveBook.MarketSlot.retired` – all that is ever done to
  a slot;
* `LiveBook.Slot`, `LiveBook.MarketSlot.view` – what a slot shows to those who look at it;
* `LiveBook.MarketSlot.shows_view` – what every part is, told from what the slot shows.
-/

namespace LiveBook

/-- What a slot shows. -/
inductive Slot where
  /-- There is no book yet; diffs are set aside. -/
  | initializing (pending : PendingDiffs)
  /-- A worker keeps the book. -/
  | active (worker : Nat)
  /-- The market is about to be forgotten. -/
  | removed
deriving DecidableEq, Inhabited

/-- The phase of a market with a slot. -/
def Slot.phase : Slot → Phase
  | .initializing _ => .initializing
  | .active _ => .active
  | .removed => .removed

/-- **How the parts of a slot belong together.** -/
structure MarketSlot.Lawful (phase : Phase) (book queue : Option Nat) (pending : PendingDiffs) :
    Prop where
  tracked : phase ≠ .unregistered
  /-- A market that waits for its book has neither book nor queue. -/
  waiting : phase = .initializing → book = none ∧ queue = none
  /-- An active market has a book and a queue, both of one worker. -/
  active : phase = .active → ∃ i, book = some i ∧ queue = some i
  /-- A removed market has no queue. -/
  removed : phase = .removed → queue = none
  /-- Diffs are set aside for a market that waits only. -/
  emptied : phase ≠ .initializing → pending.isEmpty = true

/-- **The slot of a tracked market.** -/
structure MarketSlot where
  phase : Phase
  /-- The worker that keeps the book. -/
  book : Option Nat
  /-- The worker into whose queue the messages go. -/
  queue : Option Nat
  /-- The diffs that are set aside. -/
  pending : PendingDiffs
  lawful : MarketSlot.Lawful phase book queue pending
deriving DecidableEq

namespace MarketSlot

/-! ### What is done to a slot -/

/-- The slot of a market that has just been registered. -/
def initializing (capacity : Nat) : MarketSlot where
  phase := .initializing
  book := none
  queue := none
  pending := .ofCapacity capacity
  lawful := ⟨nofun, fun _ => ⟨rfl, rfl⟩, nofun, nofun, fun h => absurd rfl h⟩

/-- Puts other diffs aside for a market that waits. -/
def setPending (s : MarketSlot) (pending : PendingDiffs) : MarketSlot :=
  if h : s.phase = .initializing then
    { s with
      pending := pending
      lawful := ⟨s.lawful.tracked, s.lawful.waiting, s.lawful.active, s.lawful.removed,
        fun hne => absurd h hne⟩ }
  else s

/-- Gives book and queue to a worker; the diffs that were set aside are taken out. -/
def activated (s : MarketSlot) (worker : Nat) : MarketSlot where
  phase := .active
  book := some worker
  queue := some worker
  pending := s.pending.take.1
  lawful := ⟨nofun, nofun, fun _ => ⟨worker, rfl, rfl⟩, nofun, fun _ => rfl⟩

/-- Cuts off the queue of an active market. The book stays. -/
def retired (s : MarketSlot) : MarketSlot :=
  if h : s.phase = .active then
    { s with
      phase := .removed
      queue := none
      lawful := ⟨nofun, nofun, nofun, fun _ => rfl, fun _ => s.lawful.emptied (by simp [h])⟩ }
  else s

/-! ### What a slot shows -/

/-- Book and queue of an active market. -/
def activeParts? (s : MarketSlot) : Option (Nat × Nat) :=
  if s.phase = .active then s.book.bind fun b => s.queue.map fun q => (b, q) else none

/-- What a slot shows: the diffs set aside while it waits, and who works for the market while
it is active. -/
def view (s : MarketSlot) : Slot :=
  match s.phase, s.activeParts? with
  | .initializing, _ => .initializing s.pending
  | _, some (worker, _) => .active worker
  | _, none => .removed

/-- What the parts of a slot are when it shows this. -/
inductive Shows (s : MarketSlot) : Slot → Prop where
  | initializing (phase : s.phase = .initializing) (book : s.book = none)
      (queue : s.queue = none) : Shows s (.initializing s.pending)
  | active {i : Nat} (phase : s.phase = .active) (book : s.book = some i)
      (queue : s.queue = some i) (pending : s.pending.isEmpty = true) : Shows s (.active i)
  | removed (phase : s.phase = .removed) (queue : s.queue = none)
      (pending : s.pending.isEmpty = true) : Shows s .removed

/-- **What a slot shows tells all its parts**, but for a book that is still there when the
market is removed. -/
theorem shows_view (s : MarketSlot) : s.Shows s.view := by
  unfold view activeParts?
  cases hphase : s.phase with
  | unregistered => exact absurd hphase s.lawful.tracked
  | initializing =>
    obtain ⟨hbook, hqueue⟩ := s.lawful.waiting hphase
    exact .initializing hphase hbook hqueue
  | active =>
    obtain ⟨i, hbook, hqueue⟩ := s.lawful.active hphase
    simp only [hbook, hqueue]
    exact .active hphase hbook hqueue (s.lawful.emptied (by simp [hphase]))
  | removed =>
    exact .removed hphase (s.lawful.removed hphase) (s.lawful.emptied (by simp [hphase]))

variable {s : MarketSlot}

@[simp]
theorem phase_view (s : MarketSlot) : s.view.phase = s.phase := by
  have hshows := s.shows_view
  generalize s.view = x at hshows ⊢
  cases hshows with
  | initializing phase => exact phase.symm
  | active phase => exact phase.symm
  | removed phase => exact phase.symm

theorem phase_of_view {x : Slot} (h : s.view = x) : s.phase = x.phase := by
  rw [← h, phase_view]

/-- Whose queue takes the messages is who is shown to work for the market. -/
theorem queue_eq_some_iff {i : Nat} : s.queue = some i ↔ s.view = .active i := by
  have hshows := s.shows_view
  generalize s.view = x at hshows
  cases hshows with
  | initializing _ _ queue => simp [queue]
  | active _ _ queue => simp [queue]
  | removed _ queue => simp [queue]

theorem view_of_waiting (h : s.phase = .initializing) : s.view = .initializing s.pending := by
  simp [view, h]

theorem view_setPending {p : PendingDiffs} (h : s.view = .initializing p) (p' : PendingDiffs) :
    (s.setPending p').view = .initializing p' := by
  have hphase : s.phase = .initializing := phase_of_view h
  rw [setPending, dif_pos hphase]
  exact view_of_waiting hphase

@[simp]
theorem view_activated (s : MarketSlot) (i : Nat) : (s.activated i).view = .active i := rfl

theorem view_retired {i : Nat} (h : s.view = .active i) : s.retired.view = .removed := by
  have hphase : s.phase = .active := phase_of_view h
  simp [retired, view, activeParts?, hphase]

end MarketSlot

end LiveBook
