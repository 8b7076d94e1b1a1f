import LiveBook.Event.PerStream

/-!
# From one source to its listeners

Events that a source has received are sorted into three streams. Each stream is a buffer
whose items are handed on by *forwarders*. Forwarders take turns: only the first hands
items on, to an output of its own, and the others wait until it is gone. While there is
no forwarder, items wait in the buffer.

A forwarder goes when it is dropped, at any moment, or when its output takes nothing any
more. It may learn of the latter in two ways: by looking, or by handing on an item in
vain, which is then lost.

* `LiveBook.Relay`, `LiveBook.Relay.step` – a buffer with its forwarders, and what can
  happen to it;
* `LiveBook.Relay.settle` – lets happen what happens by itself;
* `LiveBook.Fanout` – the buffers of the three streams.
-/

namespace LiveBook

/-- A buffer with its forwarders, which are known by names from `φ`. -/
structure Relay (φ α : Type) where
  /-- The items that wait, oldest first. -/
  buffered : List α
  /-- The forwarders; the first of them hands items on. -/
  turns : List φ
  /-- The forwarders whose output takes nothing any more. -/
  closed : List φ
deriving DecidableEq, Repr, Inhabited

namespace Relay

variable {φ α : Type} [DecidableEq φ]

/-- What can happen to a buffer. -/
inductive Label (φ α : Type) where
  /-- An item comes in. -/
  | dispatch (a : α)
  /-- A forwarder starts and waits for its turn. -/
  | join (f : φ)
  /-- A forwarder is dropped. -/
  | leave (f : φ)
  /-- The output of a forwarder closes. -/
  | close (f : φ)
  /-- The first forwarder takes the oldest item and hands it on. -/
  | forward
  /-- The first forwarder sees that its output is closed. -/
  | notice

/-- What others see of it. -/
inductive Effect (φ α : Type) where
  /-- A forwarder has handed an item on. -/
  | delivered (f : φ) (a : α)
  /-- A forwarder has tried in vain to hand an item on. -/
  | lost (f : φ) (a : α)
  /-- A forwarder has ended because its output was closed. -/
  | ended (f : φ)

/-- The empty buffer, without forwarders. -/
def empty : Relay φ α := ⟨[], [], []⟩

/-- What happens to a buffer, where it can. -/
def step (r : Relay φ α) : Label φ α → Option (Relay φ α × List (Effect φ α))
  | .dispatch a => some ({ r with buffered := r.buffered ++ [a] }, [])
  | .join f =>
    if f ∈ r.turns then none else some ({ r with turns := r.turns ++ [f] }, [])
  | .leave f => some ({ r with turns := r.turns.filter (· ≠ f) }, [])
  | .close f => some ({ r with closed := f :: r.closed }, [])
  | .forward =>
    match r.turns, r.buffered with
    | f :: fs, a :: rest =>
      if f ∈ r.closed then some ({ r with buffered := rest, turns := fs }, [.lost f a, .ended f])
      else some ({ r with buffered := rest }, [.delivered f a])
    | _, _ => none
  | .notice =>
    match r.turns with
    | f :: fs => if f ∈ r.closed then some ({ r with turns := fs }, [.ended f]) else none
    | [] => none

/-- What happens next by itself. A forwarder looks at its output before it takes an
item. -/
def next? (r : Relay φ α) : Option (Label φ α) :=
  match r.turns with
  | [] => none
  | f :: _ =>
    if f ∈ r.closed then some .notice
    else if r.buffered.isEmpty then none
    else some .forward

/-- A measure of what can still happen by itself. -/
def work (r : Relay φ α) : Nat := r.turns.length + r.buffered.length

/-- A step that happens by itself leaves less to do. -/
theorem work_lt_of_next? {r r' : Relay φ α} {l : Label φ α} {es : List (Effect φ α)}
    (hl : r.next? = some l) (hs : r.step l = some (r', es)) : r'.work < r.work := by
  unfold next? at hl
  split at hl
  next => cases hl
  next f fs hf =>
    split at hl
    next hc =>
      obtain rfl : Label.notice = l := Option.some.inj hl
      simp only [step, hf, if_pos hc, Option.some.injEq, Prod.mk.injEq] at hs
      obtain ⟨rfl, -⟩ := hs
      simp [work, hf]
    next hc =>
      split at hl
      next => cases hl
      next hb =>
        obtain rfl : Label.forward = l := Option.some.inj hl
        match hbuf : r.buffered with
        | [] => simp [hbuf] at hb
        | a :: rest =>
          simp only [step, hf, hbuf, if_neg hc, Option.some.injEq, Prod.mk.injEq] at hs
          obtain ⟨rfl, -⟩ := hs
          simp [work, hf, hbuf]

/-- Lets happen what happens by itself, until nothing more does. -/
def settle (r : Relay φ α) : Relay φ α × List (Effect φ α) :=
  match hl : r.next? with
  | none => (r, [])
  | some l =>
    match hs : r.step l with
    | none => (r, [])
    | some (r', es) =>
      have := work_lt_of_next? hl hs
      let (r', more) := r'.settle
      (r', es ++ more)
termination_by r.work

end Relay

/-- **The buffers of the three streams.** -/
structure Fanout (φ : Type) where
  relays : PerStream (Relay φ Event)
deriving DecidableEq, Inhabited

namespace Fanout

variable {φ : Type} [DecidableEq φ]

/-- Nothing received, nobody listening. -/
def empty : Fanout φ := ⟨.const .empty⟩

/-- Does something to the buffer of one stream. -/
def apply (f : Fanout φ) (s : EventStream) (l : Relay.Label φ Event) : Fanout φ :=
  ⟨f.relays.update s fun r => ((r.step l).map (·.1)).getD r⟩

/-- Sorts an event into its stream. -/
def dispatch (f : Fanout φ) (e : Event) : Fanout φ := f.apply e.stream (.dispatch e)

/-- Lets happen in one stream what happens by itself. -/
def settle (f : Fanout φ) (s : EventStream) : Fanout φ × List (Relay.Effect φ Event) :=
  let (r, es) := (f.relays.get s).settle
  (⟨f.relays.update s fun _ => r⟩, es)

theorem buffered_dispatch (f : Fanout φ) (e : Event) (s : EventStream) :
    ((f.dispatch e).relays.get s).buffered =
      (f.relays.get s).buffered ++ if e.stream = s then [e] else [] := by
  rw [dispatch, apply, PerStream.get_update]
  split
  · rfl
  · exact (List.append_nil _).symm

end Fanout

end LiveBook
