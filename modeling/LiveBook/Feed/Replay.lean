import LiveBook.Connection.Registry
import LiveBook.Feed.Basic
import LiveBook.Source.Fanout
import LiveBook.Table

/-!
# Playing a recorded feed

A recorded feed takes the place of a live source: its events are dispatched one after the
other, with a pause after each. When the turn of an event comes, it is delivered if its
market is subscribed to at that moment, and skipped if not. The price of a trade is
remembered in either case.

A feed is played once. A second call to play it returns at once, and if the first call is
given up, the rest of the feed is never played.

* `LiveBook.Replay` – a feed being played;
* `LiveBook.Replay.play`, `LiveBook.Replay.turn`, `LiveBook.Replay.abandon` – the call to
  play it, the turn of the next event, and giving up.
-/

namespace LiveBook

/-- How far the playing of a feed has come. -/
inductive Player where
  /-- It has not begun. -/
  | idle
  /-- The next turn is due at some time. -/
  | playing (due : Nat)
  /-- It was given up. -/
  | abandoned
  /-- Every event has had its turn. -/
  | finished
deriving DecidableEq, Repr, Inhabited

/-- A feed being played, to forwarders named from `φ`. -/
structure Replay (φ : Type) where
  feed : Feed
  /-- The pause after an event, in milliseconds. -/
  pace : Nat
  /-- The events whose turn has not come yet. -/
  upcoming : List Event
  player : Player
  subscriptions : SubscriptionRegistry
  /-- The price of the last trade of each market. -/
  prices : Table MarketId Decimal
  fanout : Fanout φ
  delivered : Nat
  skipped : Nat

namespace Replay

variable {φ : Type} [DecidableEq φ]

/-- A feed that has not been played, with some markets subscribed to. -/
def ofFeed (feed : Feed) (pace : Nat) (markets : List MarketId) : Replay φ where
  feed := feed
  pace := pace
  upcoming := feed.events
  player := .idle
  subscriptions := markets.foldl SubscriptionRegistry.add .empty
  prices := .empty
  fanout := .empty
  delivered := 0
  skipped := 0

/-- Whether every event has had its turn. -/
def isFinished (r : Replay φ) : Bool := r.player = .finished

/-- A call to play the feed; only the first does. -/
def play (r : Replay φ) (now : Nat) : Replay φ :=
  match r.player with
  | .idle => { r with player := .playing now }
  | _ => r

/-- Gives up playing. -/
def abandon (r : Replay φ) : Replay φ :=
  match r.player with
  | .playing _ => { r with player := .abandoned }
  | _ => r

/-- Remembers the price of a trade. -/
def notePrice (r : Replay φ) : Event → Replay φ
  | .trade t => { r with prices := r.prices.set t.market t.price }
  | _ => r

/-- Delivers or skips an event. -/
def pass (r : Replay φ) (e : Event) : Replay φ :=
  if r.subscriptions.contains e.market then
    { r with fanout := r.fanout.dispatch e, delivered := r.delivered + 1 }
  else { r with skipped := r.skipped + 1 }

/-- The next turn, if it is due: that of the next event, or the end. -/
def turn (r : Replay φ) (now : Nat) : Option (Replay φ) :=
  match r.player with
  | .playing due =>
    if now < due then none
    else
      match r.upcoming with
      | [] => some { r with player := .finished }
      | e :: rest =>
        some { (r.notePrice e).pass e with upcoming := rest, player := .playing (now + r.pace) }
  | _ => none

/-- When the next turn is due. -/
def due? (r : Replay φ) : Option Nat :=
  match r.player with
  | .playing due => some due
  | _ => none

/-- Plays on until a time, each turn when it is due; `fuel` bounds the number of turns. -/
def playFor (fuel : Nat) (r : Replay φ) (time : Nat) : Replay φ :=
  match fuel, r.due? with
  | fuel + 1, some due =>
    if due ≤ time then
      match r.turn due with
      | some r => playFor fuel r time
      | none => r
    else r
  | _, _ => r

/-- Plays on until a time. -/
def playUntil (r : Replay φ) (time : Nat) : Replay φ :=
  playFor (r.upcoming.length + 1) r time

/-- Subscribes to a market, which always succeeds. -/
def subscribe (r : Replay φ) (m : MarketId) : Replay φ :=
  { r with subscriptions := r.subscriptions.add m }

/-- Ends the subscription to a market, which always succeeds. -/
def unsubscribe (r : Replay φ) (m : MarketId) : Replay φ :=
  { r with subscriptions := r.subscriptions.remove m }

/-- The initial book of a market. -/
def initialBook (r : Replay φ) (m : MarketId) : Except SourceError Snapshot :=
  match r.feed.initialBook? m with
  | some s => .ok s
  | none => .error (.unknownMarket m)

/-- The prices of the last trades of some markets, as far as there are any. -/
def lastPrices (r : Replay φ) (markets : List MarketId) : Table MarketId Decimal :=
  markets.foldl (fun t m =>
    match r.prices.get? m with
    | some p => t.set m p
    | none => t) .empty

/-! ### What the turn of an event changes -/

variable {r r' : Replay φ} {e : Event} {now : Nat}

omit [DecidableEq φ] in
@[simp]
theorem feed_notePrice : (r.notePrice e).feed = r.feed := by cases e <;> rfl

omit [DecidableEq φ] in
@[simp]
theorem subscriptions_notePrice : (r.notePrice e).subscriptions = r.subscriptions := by
  cases e <;> rfl

omit [DecidableEq φ] in
@[simp]
theorem fanout_notePrice : (r.notePrice e).fanout = r.fanout := by cases e <;> rfl

@[simp]
theorem feed_pass : (r.pass e).feed = r.feed := by
  unfold pass
  split <;> rfl

@[simp]
theorem subscriptions_pass : (r.pass e).subscriptions = r.subscriptions := by
  unfold pass
  split <;> rfl

@[simp]
theorem prices_pass : (r.pass e).prices = r.prices := by
  unfold pass
  split <;> rfl

/-- An event is delivered exactly if its market is subscribed to. -/
@[simp]
theorem fanout_pass : (r.pass e).fanout =
    if r.subscriptions.contains e.market then r.fanout.dispatch e else r.fanout := by
  unfold pass
  split <;> rfl

/-- **The turn of an event, or the end of the feed.** -/
theorem turn_cases (h : r.turn now = some r') :
    (∃ due, r.player = .playing due ∧ due ≤ now) ∧
      ((r.upcoming = [] ∧ r' = { r with player := .finished }) ∨
        ∃ e rest, r.upcoming = e :: rest ∧
          r' = { (r.notePrice e).pass e with
                  upcoming := rest, player := .playing (now + r.pace) }) := by
  unfold turn at h
  split at h
  next due hplays =>
    split at h
    next => cases h
    next hdue =>
      refine ⟨⟨due, hplays, Nat.le_of_not_lt hdue⟩, ?_⟩
      split at h
      next hnone => exact .inl ⟨hnone, (Option.some.inj h).symm⟩
      next e rest hnext => exact .inr ⟨e, rest, hnext, (Option.some.inj h).symm⟩
  next => cases h

end Replay

end LiveBook
