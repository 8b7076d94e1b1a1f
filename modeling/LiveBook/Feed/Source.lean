import LiveBook.Feed.Replay
import LiveBook.Rehearsal.Basic

/-!
# A replay as the source of a tracker

A replay answers at once whatever it is asked. The first run that listens to its
subscriptions plays the feed, and is hung up on when every event has had its turn; if it
stops listening before, the rest of the feed is never played. Without a pause between the
events, the turn of the next one comes when nothing else happens.
-/

namespace LiveBook

/-- A replay that a tracker listens to. -/
structure ReplaySource where
  /-- The replay; its forwarders are known by the run and the stream. -/
  replay : Replay (Nat × EventStream)
  /-- What was asked and not yet answered. -/
  asked : Table Actor SourceCall := .empty
  /-- The run that plays the feed. -/
  playedFor : Option Nat := none
  /-- The runs that wanted to play the feed in vain. -/
  refused : List Nat := []

namespace ReplaySource

/-- A replay that nobody listens to yet. -/
def ofReplay (replay : Replay (Nat × EventStream)) : ReplaySource := { replay := replay }

/-- Changes the replay. -/
def setReplay (s : ReplaySource) (replay : Replay (Nat × EventStream)) : ReplaySource :=
  { s with replay := replay }

/-- Something is asked. -/
def called (s : ReplaySource) (a : Actor) (call : SourceCall) : ReplaySource :=
  { s with asked := s.asked.set a call }

/-- The answer to a call. -/
def reply (s : ReplaySource) : SourceCall → SourceAnswer × ReplaySource
  | .book m => (.book (s.replay.initialBook m), s)
  | .subscribe m => (.flag true, s.setReplay (s.replay.subscribe m))
  | .unsubscribe m => (.flag true, s.setReplay (s.replay.unsubscribe m))
  | .prices ms => (.prices (.ok (s.replay.lastPrices ms)), s)

/-- The answer to what somebody has asked. -/
def answer? (s : ReplaySource) (a : Actor) : Option (SourceAnswer × ReplaySource) :=
  (s.asked.get? a).map fun call => { s with asked := s.asked.erase a }.reply call

/-- A run begins to listen. -/
def listened (s : ReplaySource) (clock run : Nat) : Listener → ReplaySource
  | .stream st =>
    s.setReplay { s.replay with fanout := s.replay.fanout.apply st (.join (run, st)) }
  | .subscriptions =>
    if s.replay.player = .idle then
      { s with replay := s.replay.play clock, playedFor := some run }
    else { s with refused := s.refused ++ [run] }

/-- A run listens no more. -/
def dropped (s : ReplaySource) (run : Nat) : Listener → ReplaySource
  | .stream st =>
    s.setReplay { s.replay with fanout := s.replay.fanout.apply st (.leave (run, st)) }
  | .subscriptions =>
    if s.playedFor = some run then
      { s with replay := s.replay.abandon, playedFor := none }
    else s

/-- The next event of a stream for its first listener. -/
def forward? (s : ReplaySource) (st : EventStream) : Option (SourceAct × ReplaySource) :=
  match (s.replay.fanout.relays.get st).step .forward with
  | some (relay, .delivered f e :: _) =>
    some (.deliver f.1 e,
      s.setReplay { s.replay with
        fanout := ⟨s.replay.fanout.relays.update st fun _ => relay⟩ })
  | _ => none

/-- The run that has played the feed to its end is hung up on. -/
def finish? (s : ReplaySource) : Option (SourceAct × ReplaySource) :=
  match s.playedFor with
  | some run =>
    if s.replay.isFinished then
      some (.hangUp run .subscriptions none, { s with playedFor := none })
    else none
  | none => none

/-- What happens by itself next. -/
def act? (s : ReplaySource) : Option (SourceAct × ReplaySource) :=
  match s.refused with
  | run :: rest => some (.hangUp run .subscriptions none, { s with refused := rest })
  | [] => s.finish? <|> EventStream.all.findSome? s.forward?

/-- The turn of the next event. -/
def turn? (s : ReplaySource) (clock : Nat) (isIdle : Bool) : Option ReplaySource :=
  let isFirst := s.replay.upcoming.length = s.replay.feed.events.length
  if isIdle ∨ isFirst ∨ 0 < s.replay.pace then (s.replay.turn clock).map s.setReplay else none

/-- **A replay as a source.** -/
def model : SourceModel ReplaySource where
  called := called
  answer? := answer?
  listened := listened
  dropped := dropped
  act? := act?
  turn? := turn?
  due? := fun s => s.replay.due?

end ReplaySource

end LiveBook
