import LiveBook.Tracker.Lifecycle
import LiveBook.Tracker.Tasks

/-!
# Everything that can happen to a tracker

The tasks, workers and requests of a tracker take their steps in any order, and between
any two of them the source may answer, events may come in, and time may pass. A step goes
from one place where something waits to the following one; nothing happens in the midst
of a step.

* `LiveBook.Tracker.Label`, `LiveBook.Tracker.step` – what can happen, and to what it leads;
* `LiveBook.Tracker.Steps` – what any number of steps leads to.
-/

namespace LiveBook.Tracker

/-- What can happen to a tracker. -/
inductive Label where
  | start
  /-- The tracker is given up. -/
  | abandon
  /-- Something is asked of it. -/
  | ask (q : Request)
  /-- Somebody does what it does next. -/
  | proceed (a : Actor)
  /-- Somebody sees that it was cancelled. -/
  | quit (a : Actor)
  /-- Somebody gets the answer to what it asked of the source. -/
  | hear (a : Actor) (answer : SourceAnswer)
  /-- An event comes in. -/
  | receive (run : Nat) (e : Event)
  /-- The source ends what a listener listens to. -/
  | hangUp (run : Nat) (l : Listener) (error? : Option SourceError)
  /-- Time passes, on the two clocks. -/
  | pass (millis : Nat) (nanos : Nat)

/-- Somebody does what it does next, if it can. -/
def proceed (t : Tracker) : Actor → Outcome
  | .listener r l => t.listenerProceeds r l
  | .router r s => t.routerProceeds r s
  | .startup r => t.startupProceeds r
  | .refresh r => t.refreshProceeds r
  | .worker i => t.workerProceeds i
  | .request i => t.requestProceeds i

/-- Somebody sees that it was cancelled, if it was. -/
def quit (t : Tracker) : Actor → Outcome
  | .listener r l => t.listenerQuits r l
  | .router r s => t.routerQuits r s
  | .startup r => t.startupQuits r
  | .refresh r => t.refreshQuits r
  | .worker i => t.workerQuits i
  | .request i => t.requestQuits i

/-- Somebody gets an answer of the source, if it waits for one. -/
def hear (t : Tracker) (a : Actor) (answer : SourceAnswer) : Outcome :=
  match a with
  | .startup r => t.startupHears r answer
  | .refresh r => t.refreshHears r answer
  | .request i => t.requestHears i answer
  | _ => none

/-- **What happens to a tracker,** where it can. -/
def step (t : Tracker) : Label → Outcome
  | .start =>
    match t.start with
    | .ok t => some (t, [])
    | .error _ => some (t, [.alreadyStarted])
  | .abandon => some (t.abandon, [])
  | .ask q => some (t.ask q)
  | .proceed a => t.proceed a
  | .quit a => t.quit a
  | .hear a answer => t.hear a answer
  | .receive r e => t.receive r e
  | .hangUp r l error? => t.hangUp r l error?
  | .pass millis nanos =>
    some ({ t with clock := t.clock + millis, now := t.now + nanos }, [])

/-- Some steps lead from one state to another, with these labels and effects. -/
inductive Steps : Tracker → List (Label × List TrackerEffect) → Tracker → Prop where
  | refl (t : Tracker) : Steps t [] t
  | tail {t t' t'' : Tracker} {es : List (Label × List TrackerEffect)} {l : Label}
      {fx : List TrackerEffect} (steps : Steps t es t') (last : t'.step l = some (t'', fx)) :
      Steps t (es ++ [(l, fx)]) t''

end LiveBook.Tracker
