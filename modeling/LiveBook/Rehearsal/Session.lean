import LiveBook.Jobs
import LiveBook.Rehearsal.Script

/-!
# A rehearsal with named requests

A tracker and its scripted source, and the requests that were made of the tracker under
numbers of the caller's own. A tracker that is given up lives on as long as a request is
not answered.
-/

namespace LiveBook

/-- A rehearsal whose requests have numbers of the caller's own. -/
structure RehearsalSession where
  rehearsal : Rehearsal Script
  /-- Which request each number stands for. -/
  requests : Table Int (Nat × Request) := .empty
  /-- Whether the tracker was given up and still lives on. -/
  isGivenUp : Bool := false

namespace RehearsalSession

/-- A tracker that was never started, with a source that was told nothing. -/
def ofTracker (t : Tracker) : RehearsalSession := { rehearsal := ⟨t, {}, []⟩ }

/-- The tracker. -/
def tracker (s : RehearsalSession) : Tracker := s.rehearsal.tracker

/-- What others have seen, in order. -/
def seen (s : RehearsalSession) : List TrackerEffect := s.rehearsal.seen.reverse

/-- Forgets what others have seen. -/
def forget (s : RehearsalSession) : RehearsalSession :=
  { s with rehearsal := { s.rehearsal with seen := [] } }

/-- Whether a request is not answered yet. -/
def isAwaited (s : RehearsalSession) : Bool :=
  s.tracker.requests.any fun stage =>
    match stage with
    | .answered _ => false
    | _ => true

/-- A tracker that was given up ends when no request is pending. -/
def release (s : RehearsalSession) : RehearsalSession :=
  if s.isGivenUp ∧ !s.isAwaited then
    let r := (s.rehearsal.take Script.model .abandon).getD s.rehearsal
    { s with rehearsal := r.settle Script.model Rehearsal.patience, isGivenUp := false }
  else s

/-- Lets everything happen that can happen now. -/
def settle (s : RehearsalSession) : RehearsalSession :=
  { s with rehearsal := s.rehearsal.settle Script.model Rehearsal.patience }.release

/-- Gives the tracker up. -/
def giveUp (s : RehearsalSession) : RehearsalSession := { s with isGivenUp := true }.release

/-- Tells the source something. -/
def tell (s : RehearsalSession) (f : Script → Script) : RehearsalSession :=
  { s with rehearsal := { s.rehearsal with source := f s.rehearsal.source } }.settle

/-- Does something to the tracker. -/
def perform (s : RehearsalSession) (l : Tracker.Label) : RehearsalSession :=
  { s with rehearsal := (s.rehearsal.take Script.model l).getD s.rehearsal }.settle

/-- Lets time pass. -/
def advance (s : RehearsalSession) (millis : Nat) : RehearsalSession :=
  { s with rehearsal :=
      s.rehearsal.advance Script.model Rehearsal.patience (s.tracker.clock + millis) }.release

/-- Asks what became of a request. -/
def poll (s : RehearsalSession) (id : Int) : RehearsalSession × Polled (Request × Reply) :=
  match s.requests.get? id with
  | none => (s, .unknown)
  | some (i, q) =>
    match s.tracker.request? i with
    | some (.answered r) => ({ s with requests := s.requests.erase id }, .finished (q, r))
    | _ => (s, .pending)

/-- Makes a request, and asks what became of it. -/
def request (s : RehearsalSession) (id : Int) (q : Request) :
    RehearsalSession × Polled (Request × Reply) :=
  ({ s with requests := s.requests.set id (s.tracker.requests.length, q) }.perform (.ask q)).poll id

end RehearsalSession

end LiveBook
