import LiveBook.Feed.Replay
import LiveBook.Source.Audience

/-!
# A replay on a clock

A replay with an audience, a clock, and jobs: one call that plays the feed, and any number
of calls that wait for its end.
-/

namespace LiveBook

/-- A replay with its audience and its jobs. -/
structure ReplaySession where
  replay : Replay Int
  audience : Audience := {}
  /-- The time, in milliseconds. -/
  clock : Nat := 0
  /-- The calls that play the feed. -/
  players : Jobs Unit := {}
  /-- The calls that wait for its end. -/
  waiters : Jobs Unit := {}

namespace ReplaySession

/-- The session with a feed that was not played yet. -/
def ofFeed (feed : Feed) (pace : Nat) (markets : List MarketId) : ReplaySession :=
  { replay := .ofFeed feed pace markets }

/-- Lets everything come to rest. -/
def settle (s : ReplaySession) : ReplaySession :=
  let replay := { s.replay with fanout := s.audience.fanout }.playUntil s.clock
  let audience := { s.audience with fanout := replay.fanout }.settle
  if replay.isFinished then
    { s with replay := replay, audience := audience, players := s.players.finishAll (),
             waiters := s.waiters.finishAll () }
  else { s with replay := replay, audience := audience }

/-- Calls to play the feed; a call that is not the first returns at once. -/
def play (s : ReplaySession) (id : Int) : ReplaySession :=
  let isFirst := s.replay.player = .idle
  let s := { s with players := s.players.begin id }
  if isFirst then { s with replay := s.replay.play s.clock }.settle
  else { s with players := s.players.finish id () }

/-- Calls to wait for the end. -/
def awaitEnd (s : ReplaySession) (id : Int) : ReplaySession :=
  { s with waiters := s.waiters.begin id }.settle

/-- Lets time pass. -/
def advance (s : ReplaySession) (millis : Nat) : ReplaySession :=
  { s with clock := s.clock + millis }.settle

end ReplaySession

end LiveBook
