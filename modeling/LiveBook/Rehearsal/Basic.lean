import LiveBook.Tracker.Step

/-!
# Rehearsing a tracker

What goes on in a tracker can happen in many orders. A rehearsal fixes one of them, and
lets a tracker run against a source that is itself a state: everything happens as soon
as it can, in a fixed order of precedence, and then time passes, but only until the next
moment at which something is due.

The precedence is this: what was cancelled ends; then come the listeners and the source,
the routers, the startup, the refresh, the requests, and last the workers. So all events
that come in together are routed before a worker takes the first of them. A source may
also wait until nothing else happens.

* `LiveBook.SourceModel` – how a source behaves;
* `LiveBook.Rehearsal`, `LiveBook.Rehearsal.next?` – a tracker with its source, and what
  they do next;
* `LiveBook.Rehearsal.settle`, `LiveBook.Rehearsal.advance` – everything that happens now,
  and until a later time.
-/

namespace LiveBook

/-- What a source does by itself. -/
inductive SourceAct where
  /-- It delivers an event to a run. -/
  | deliver (run : Nat) (e : Event)
  /-- It ends what a listener listens to. -/
  | hangUp (run : Nat) (l : Listener) (error? : Option SourceError)

/-- How a source with states from `σ` behaves. -/
structure SourceModel (σ : Type) where
  /-- Something is asked of it. -/
  called : σ → Actor → SourceCall → σ
  /-- The answer to what somebody has asked, once there is one. -/
  answer? : σ → Actor → Option (SourceAnswer × σ)
  /-- It is listened to, from some time on. -/
  listened : σ → Nat → Nat → Listener → σ
  /-- It is not listened to any more. -/
  dropped : σ → Nat → Listener → σ
  /-- What it does next by itself. -/
  act? : σ → Option (SourceAct × σ)
  /-- What changes in it next at some time, either in its turn, behind the startup of the
  tracker, or because nothing else happens. -/
  turn? : σ → Nat → Bool → Option σ
  /-- When something is due in it. -/
  due? : σ → Option Nat

/-- **A tracker with its source.** -/
structure Rehearsal (σ : Type) where
  tracker : Tracker
  source : σ
  /-- What others have seen, latest first. -/
  seen : List TrackerEffect

namespace Rehearsal

variable {σ : Type} (model : SourceModel σ)

/-- Tells the source of what the tracker has done. -/
def tell (s : σ) (clock : Nat) : TrackerEffect → σ
  | .called a call => model.called s a call
  | .listened r l => model.listened s clock r l
  | _ => s

/-- Tells the source that a listener is gone. -/
def tellDropped (s : σ) : Tracker.Label → σ
  | .quit (.listener r l) => model.dropped s r l
  | _ => s

/-- The tracker takes a step, if it can. -/
def take (r : Rehearsal σ) (l : Tracker.Label) : Option (Rehearsal σ) :=
  match r.tracker.step l with
  | none => none
  | some (t, es) =>
    some { tracker := t
           source := es.foldl (fun s e => tell model s t.clock e) (tellDropped model r.source l)
           seen := es.reverse ++ r.seen }

/-- Somebody goes on: it hears what it has asked for, or does what it does next. -/
def goOn (r : Rehearsal σ) (a : Actor) : Option (Rehearsal σ) :=
  match model.answer? r.source a with
  | some (answer, s) =>
    { r with source := s }.take model (.hear a answer) <|> r.take model (.proceed a)
  | none => r.take model (.proceed a)

/-- The refresh looks at the clock that stamps books; a little time has always passed. -/
def goOnRefresh (r : Rehearsal σ) (run : Nat) : Option (Rehearsal σ) :=
  (r.take model (.pass 0 1)).bind fun r => r.goOn model (.refresh run)

/-- The source acts. -/
def sourceActs (r : Rehearsal σ) : Option (Rehearsal σ) :=
  match model.act? r.source with
  | some (.deliver run e, s) => { r with source := s }.take model (.receive run e)
  | some (.hangUp run l error?, s) => { r with source := s }.take model (.hangUp run l error?)
  | none => none

/-- Something changes in the source. -/
def sourceTurns (r : Rehearsal σ) (isIdle : Bool) : Option (Rehearsal σ) :=
  (model.turn? r.source r.tracker.clock isIdle).map fun s => { r with source := s }

/-- The numbers of the runs, workers and requests. -/
def runs (r : Rehearsal σ) : List Nat := List.range r.tracker.runs.length

/-- The numbers of the workers. -/
def workers (r : Rehearsal σ) : List Nat := List.range r.tracker.desk.staff.length

/-- The numbers of the requests. -/
def requests (r : Rehearsal σ) : List Nat := List.range r.tracker.requests.length

/-- All who may see that they were cancelled. -/
def cancellable (r : Rehearsal σ) : List Actor :=
  r.runs.flatMap (fun run =>
    Listener.all.map (.listener run) ++ EventStream.all.map (.router run) ++
      [.startup run, .refresh run]) ++
  r.requests.map .request ++ r.workers.map .worker

/-- What happens next, but for what waits until nothing else happens. -/
def busy? (r : Rehearsal σ) : Option (Rehearsal σ) :=
  r.cancellable.findSome? (fun a => r.take model (.quit a)) <|>
  r.runs.findSome? (fun run =>
    Listener.all.findSome? fun l => r.take model (.proceed (.listener run l))) <|>
  r.sourceActs model <|>
  r.runs.findSome? (fun run =>
    EventStream.all.findSome? fun s => r.take model (.proceed (.router run s))) <|>
  r.runs.findSome? (fun run => r.goOn model (.startup run)) <|>
  r.runs.findSome? (fun run => r.goOnRefresh model run) <|>
  r.sourceTurns model false <|>
  r.requests.findSome? (fun i => r.goOn model (.request i)) <|>
  r.workers.findSome? (fun i => r.take model (.proceed (.worker i)))

/-- **What happens next,** if anything does. -/
def next? (r : Rehearsal σ) : Option (Rehearsal σ) :=
  r.busy? model <|> r.sourceTurns model true

/-- Lets everything happen that can happen now; `fuel` bounds the number of steps. -/
def settle (fuel : Nat) (r : Rehearsal σ) : Rehearsal σ :=
  match fuel with
  | 0 => r
  | fuel + 1 =>
    match r.next? model with
    | some r => r.settle fuel
    | none => r

/-- When the pauses of a run end. -/
def duesOfRun (run : Run) : List Nat :=
  Listener.all.filterMap (fun l =>
    match run.listener l with
    | .backingOff due => some due
    | _ => none) ++
  (match run.startup with
    | .backingOff _ _ due | .pausing _ due => [due]
    | _ => []) ++
  (match run.refresh with
    | .sleeping due => [due]
    | _ => [])

/-- When the pause of a worker ends. -/
def dueOfWorker (w : Worker) : Option Nat :=
  match w.stage with
  | .backingOff due => some due
  | _ => none

/-- The times to come at which something is due. -/
def dues (r : Rehearsal σ) : List Nat :=
  (r.tracker.runs.flatMap duesOfRun ++ r.tracker.desk.staff.filterMap dueOfWorker ++
    (model.due? r.source).toList).filter fun due => r.tracker.clock < due

/-- Lets time pass until some moment. -/
def moveTo (r : Rehearsal σ) (time : Nat) : Rehearsal σ :=
  { r with tracker := { r.tracker with clock := time } }

/-- Lets everything happen until some moment, each thing when it is due. -/
def advance (fuel : Nat) (r : Rehearsal σ) (time : Nat) : Rehearsal σ :=
  match fuel with
  | 0 => r.moveTo time
  | fuel + 1 =>
    let r := r.settle model (fuel + 1)
    match (r.dues model).min? with
    | some due =>
      if due ≤ time then (r.moveTo due).advance fuel time else r.moveTo time
    | none => r.moveTo time

/-- How many steps are taken at most. -/
def patience : Nat := 1000000

end Rehearsal

end LiveBook
