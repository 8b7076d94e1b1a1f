import LiveBook.Table

/-!
# Jobs that are asked about later

A job is begun, is finished at some later time with a result, and can be asked about in
between. Its result is given once. Jobs are known by numbers that whoever begins them
chooses.
-/

namespace LiveBook

/-- Jobs with results from `α`; `none` is the result of one that is not finished. -/
structure Jobs (α : Type) where
  results : Table Int (Option α) := .empty
deriving Inhabited

/-- What is heard about a job. -/
inductive Polled (α : Type) where
  /-- There is no such job, or its result was given already. -/
  | unknown
  | pending
  | finished (result : α)
deriving DecidableEq, Repr

namespace Jobs

variable {α : Type}

/-- Begins a job. -/
def begin (j : Jobs α) (id : Int) : Jobs α := ⟨j.results.set id none⟩

/-- Finishes a job, if it was begun. -/
def finish (j : Jobs α) (id : Int) (result : α) : Jobs α :=
  ⟨j.results.adjust id fun _ => some result⟩

/-- Finishes all jobs. -/
def finishAll (j : Jobs α) (result : α) : Jobs α :=
  ⟨⟨j.results.entries.map fun (id, r) => (id, r.or (some result))⟩⟩

/-- Gives a job up. -/
def abandon (j : Jobs α) (id : Int) : Jobs α := ⟨j.results.erase id⟩

/-- Asks about a job. -/
def poll (j : Jobs α) (id : Int) : Jobs α × Polled α :=
  match j.results.get? id with
  | none => (j, .unknown)
  | some none => (j, .pending)
  | some (some a) => (j.abandon id, .finished a)

/-- A result that was given is not given again. -/
theorem poll_poll {j j' : Jobs α} {id : Int} {a : α} (h : j.poll id = (j', .finished a)) :
    (j'.poll id).2 = .unknown := by
  unfold poll at h
  split at h
  next => cases h
  next => cases h
  next =>
    obtain ⟨rfl, -⟩ := Prod.mk.inj h
    simp [poll, abandon]

end Jobs

end LiveBook
