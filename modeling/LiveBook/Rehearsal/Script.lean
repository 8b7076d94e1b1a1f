import LiveBook.Rehearsal.Basic
import LiveBook.Source.Fanout

/-!
# A source that follows a script

For a rehearsal the source is told beforehand what to answer: which book a market has,
which calls fail, which subscriptions are refused, and how often a stream breaks off before
it is delivered. A *gate* can be put before the next call of some kind. That call then
waits at it until the gate is opened, and only then it is decided what the answer is.

* `LiveBook.Script` – what the source was told;
* `LiveBook.Script.model` – how it behaves.
-/

namespace LiveBook

/-- Before which calls a gate is put. -/
inductive GatePlace where
  | book (market : MarketId)
  | subscribe (market : MarketId)
  | unsubscribe (market : MarketId)
  | prices
deriving DecidableEq, Repr

/-- The gates before a call of this kind. -/
def SourceCall.place : SourceCall → GatePlace
  | .book m => .book m
  | .subscribe m => .subscribe m
  | .unsubscribe m => .unsubscribe m
  | .prices _ => .prices

/-- **What a source was told.** Gates are known by numbers, listeners of streams by their
run. -/
structure Script where
  books : Table MarketId Snapshot := .empty
  /-- How many of the next requests for a book fail. -/
  failingBooks : Table MarketId Nat := .empty
  prices : Table MarketId Decimal := .empty
  /-- How many of the next requests for prices fail. -/
  failingPrices : Nat := 0
  acceptsSubscribe : Bool := true
  acceptsUnsubscribe : Bool := true
  /-- The number of gates so far. -/
  gates : Nat := 0
  /-- The gate for the next call at a place. -/
  armed : Table GatePlace Nat := .empty
  /-- The gate that was last put at a place. -/
  latest : Table GatePlace Nat := .empty
  /-- The gates that were opened. -/
  opened : List Nat := []
  /-- What was asked, and at which gate it waits. -/
  waiting : Table Actor (SourceCall × Option Nat) := .empty
  /-- How the next calls of a listener end. -/
  endings : Table Listener (List (Option SourceError)) := .empty
  /-- The listeners that are to be hung up on. -/
  hangUps : List (Nat × Listener × Option SourceError) := []
  fanout : Fanout (Nat × EventStream) := .empty

namespace Script

/-! ### What the source is told -/

/-- The book of a market. -/
def setBook (s : Script) (m : MarketId) (book : Snapshot) : Script :=
  { s with books := s.books.set m book }

/-- The next requests for a book fail. -/
def failBook (s : Script) (m : MarketId) (count : Nat) : Script :=
  { s with failingBooks := s.failingBooks.set m count }

/-- The price of a market. -/
def setPrice (s : Script) (m : MarketId) (price : Decimal) : Script :=
  { s with prices := s.prices.set m price }

/-- The next requests for prices fail. -/
def failPrices (s : Script) (count : Nat) : Script := { s with failingPrices := count }

/-- Puts a gate before the next call at a place. -/
def putGate (s : Script) (p : GatePlace) : Script :=
  { s with gates := s.gates + 1, armed := s.armed.set p s.gates,
           latest := s.latest.set p s.gates }

/-- Opens the gate that was last put at a place. -/
def openGate (s : Script) (p : GatePlace) : Script :=
  match s.latest.get? p with
  | some g => { s with opened := g :: s.opened }
  | none => s

/-- How the next calls of a listener end. -/
def setEndings (s : Script) (l : Listener) (es : List (Option SourceError)) : Script :=
  { s with endings := s.endings.set l es }

/-- An event comes from outside. -/
def push (s : Script) (e : Event) : Script := { s with fanout := s.fanout.dispatch e }

/-! ### How it behaves -/

/-- A call waits at the gate before it, if there is one. -/
def called (s : Script) (a : Actor) (call : SourceCall) : Script :=
  { s with waiting := s.waiting.set a (call, s.armed.get? call.place),
           armed := s.armed.erase call.place }

/-- The book of a market, unless the request fails. -/
def book (s : Script) (m : MarketId) : Except SourceError Snapshot × Script :=
  match (s.failingBooks.get? m).getD 0 with
  | n + 1 => (.error (.request "scripted"), { s with failingBooks := s.failingBooks.set m n })
  | 0 =>
    match s.books.get? m with
    | some b => (.ok b, s)
    | none => (.error (.unknownMarket m), s)

/-- The known prices of some markets, unless the request fails. -/
def lastPrices (s : Script) (ms : List MarketId) :
    Except SourceError (Table MarketId Decimal) × Script :=
  match s.failingPrices with
  | n + 1 => (.error (.request "scripted"), { s with failingPrices := n })
  | 0 =>
    (.ok (ms.foldl (fun t m =>
      match s.prices.get? m with
      | some p => t.set m p
      | none => t) .empty), s)

/-- The answer to a call, as things are now. -/
def reply (s : Script) : SourceCall → SourceAnswer × Script
  | .book m =>
    let (r, s) := s.book m
    (.book r, s)
  | .subscribe _ => (.flag s.acceptsSubscribe, s)
  | .unsubscribe _ => (.flag s.acceptsUnsubscribe, s)
  | .prices ms =>
    let (r, s) := s.lastPrices ms
    (.prices r, s)

/-- The answer to what somebody has asked, unless that waits at a gate. -/
def answer? (s : Script) (a : Actor) : Option (SourceAnswer × Script) :=
  match s.waiting.get? a with
  | none => none
  | some (call, gate?) =>
    if gate?.all s.opened.contains then some ({ s with waiting := s.waiting.erase a }.reply call)
    else none

/-- A listener is hung up on as the script says; after that it gets events. -/
def listened (s : Script) (run : Nat) (l : Listener) : Script :=
  match s.endings.get? l with
  | some (e :: rest) =>
    { s with endings := s.endings.set l rest, hangUps := s.hangUps ++ [(run, l, e)] }
  | _ =>
    match l with
    | .stream st => { s with fanout := s.fanout.apply st (.join (run, st)) }
    | .subscriptions => s

/-- A listener is gone. -/
def dropped (s : Script) (run : Nat) : Listener → Script
  | .stream st => { s with fanout := s.fanout.apply st (.leave (run, st)) }
  | .subscriptions => s

/-- The next event of a stream for its first listener. -/
def forward? (s : Script) (st : EventStream) : Option (SourceAct × Script) :=
  match (s.fanout.relays.get st).step .forward with
  | some (relay, .delivered f e :: _) =>
    some (.deliver f.1 e,
      { s with fanout := ⟨s.fanout.relays.update st fun _ => relay⟩ })
  | _ => none

/-- What the source does next by itself. -/
def act? (s : Script) : Option (SourceAct × Script) :=
  match s.hangUps with
  | (run, l, e) :: rest => some (.hangUp run l e, { s with hangUps := rest })
  | [] => EventStream.all.findSome? s.forward?

/-- **How a source that follows a script behaves.** -/
def model : SourceModel Script where
  called := called
  answer? := answer?
  listened := fun s _ run l => s.listened run l
  dropped := dropped
  act? := act?
  turn? := fun _ _ _ => none
  due? := fun _ => none

end Script

end LiveBook
