import LiveBook.App.Application
import LiveBook.Feed.Source

/-!
# The application with its feed

A performance is a run of the application over a recorded feed, in the order of a
rehearsal: everything happens as soon as it can, the tracker before the application, and
then time passes until the next moment at which something is due.

* `LiveBook.Performance`, `LiveBook.Performance.begin` – a run, and how it begins;
* `LiveBook.Performance.settle`, `LiveBook.Performance.nextDue?` – what happens now, and
  when something happens next;
* `LiveBook.Performance.complete` – a run from its beginning to its end.
-/

namespace LiveBook

/-- **A run of the application over a feed.** -/
structure Performance where
  app : Application
  source : ReplaySource
  /-- When a shutdown is asked for. -/
  shutdownAt : Option Nat
  /-- What others have seen, with the time, latest first. -/
  seen : List (Nat × Application.Effect)

namespace Performance

/-- Takes note of what the application has done. -/
def note (p : Performance) (es : List Application.Effect) : Performance :=
  { p with seen := (es.map fun e => (p.app.tracker.clock, e)).reverse ++ p.seen }

/-- What was reported, with the time, in order. -/
def reports (p : Performance) : List (Nat × Report) :=
  p.seen.reverse.filterMap fun (time, e) =>
    match e with
    | .reported r => some (time, r)
    | _ => none

/-- The application takes a step, if it can. -/
def take (p : Performance) (l : Application.Label) : Option Performance :=
  (p.app.step l).map fun (app, es) => { p with app := app }.note es

/-- A run that begins. A shutdown that was asked for before is seen before anything else
happens. -/
def begin (config : AppConfig) (feed : Feed) (shutdownAt : Option Nat) :
    Except TrackerError Performance := do
  let tracker ← Tracker.ofConfig config.tracker
  let app ← Application.start config tracker
  let source := ReplaySource.ofReplay (.ofFeed feed config.replay.pace config.tracker.markets)
  let p : Performance := ⟨app, source, shutdownAt, []⟩
  if shutdownAt = some 0 then
    return (((p.take .shutdown).bind fun p => p.take .interrupt).getD p)
  else return p

/-- The tracker with its source. -/
def rehearsal (p : Performance) : Rehearsal ReplaySource := ⟨p.app.tracker, p.source, []⟩

/-- The end of the feed, if it has just come. -/
def noteEnd (p : Performance) : Performance :=
  if p.source.replay.isFinished ∧ !p.app.isReplayed then
    { p with app := { p.app with isReplayed := true } }.note
      [.reported (.replayed p.source.replay.delivered p.source.replay.skipped)]
  else p

/-- Goes on from where the tracker and its source have come. -/
def follow (p : Performance) (r : Rehearsal ReplaySource) : Performance :=
  ({ p with app := { p.app with tracker := r.tracker }, source := r.source }.note
    (r.seen.reverse.map .tracker)).noteEnd

/-- A shutdown is asked for when its time has come. -/
def shutdown? (p : Performance) : Option Performance :=
  match p.shutdownAt with
  | some time =>
    if time ≤ p.app.tracker.clock ∧ !p.app.isInterrupted then p.take .shutdown else none
  | none => none

/-- What the application can do by itself, in the order of precedence. -/
def ownLabels : List Application.Label :=
  [.ready, .interrupt, .report, .drain, .drained, .settled, .stopped, .cut, .act]

/-- What happens next, if anything does. -/
def next? (p : Performance) : Option Performance :=
  (p.rehearsal.busy? ReplaySource.model).map p.follow <|>
  p.shutdown? <|>
  ownLabels.findSome? p.take <|>
  (p.rehearsal.sourceTurns ReplaySource.model true).map p.follow

/-- Lets everything happen that can happen now; `fuel` bounds the number of steps. -/
def settle (fuel : Nat) (p : Performance) : Performance :=
  match fuel with
  | 0 => p
  | fuel + 1 =>
    match p.next? with
    | some p => p.settle fuel
    | none => p

/-- The next moment at which something is due. -/
def nextDue? (p : Performance) : Option Nat :=
  let own := (p.app.dues ++ p.shutdownAt.toList).filter fun due => p.app.tracker.clock < due
  (own ++ p.rehearsal.dues ReplaySource.model).min?

/-- Lets time pass until some moment. -/
def moveTo (p : Performance) (time : Nat) : Performance :=
  { p with app := { p.app with tracker := { p.app.tracker with clock := time } } }

/-- Lets everything happen until the application has ended; `fuel` bounds the number of
moments. -/
def completeFor (fuel : Nat) (p : Performance) : Performance :=
  match fuel with
  | 0 => p
  | fuel + 1 =>
    let p := p.settle Rehearsal.patience
    if p.app.hasEnded then p
    else
      match p.nextDue? with
      | some due => (p.moveTo due).completeFor fuel
      | none => p

/-- **A run to its end.** -/
def complete (p : Performance) : Performance := p.completeFor Rehearsal.patience

end Performance

end LiveBook
