import LiveBook.Connection.Basic

/-!
# Where nobody answers

What becomes of a connection whose every attempt fails at once. It waits after each
attempt, for longer and longer, and tries again exactly when the wait is over.

`LiveBook.Connection.waitUnreachable` lets time pass for such a connection.
-/

namespace LiveBook.Connection

/-- What happens next by itself. -/
def refusedNext? (c : Connection) : Option Label :=
  match c.stage with
  | .opening _ => some .refused
  | .waiting _ due =>
    if c.stopping then some .notice
    else if due ≤ c.now then some .proceed
    else none
  | _ => none

/-- When the next attempt is due. -/
def retryDue? (c : Connection) : Option Nat :=
  match c.stage with
  | .waiting _ due => some due
  | _ => none

/-- Lets things happen until a time, each exactly when it is due; `fuel` bounds their
number. -/
def waitFor (fuel : Nat) (d : Dialect) (c : Connection) (time : Nat) : Connection :=
  match fuel with
  | 0 => { c with now := time }
  | fuel + 1 =>
    match c.refusedNext? with
    | some l =>
      match c.step d l with
      | some (c, _) => c.waitFor fuel d time
      | none => { c with now := time }
    | none =>
      match c.retryDue? with
      | some due =>
        if due ≤ time then { c with now := due }.waitFor fuel d time
        else { c with now := time }
      | none => { c with now := time }

/-- **Lets time pass** for a connection whose every attempt fails at once. A wait takes at
least a millisecond, or else the number of attempts is limited. -/
def waitUnreachable (d : Dialect) (c : Connection) (millis : Nat) : Connection :=
  c.waitFor (3 * (millis + c.config.maxAttempts + 2)) d (c.now + ofMillis millis)

end LiveBook.Connection
