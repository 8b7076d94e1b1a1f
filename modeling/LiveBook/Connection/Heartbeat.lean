import LiveBook.Book.Basic

/-!
# Keeping a connection alive

A ping is due when nothing was received for the ping interval. Once a ping is out, any
frame answers it; when none comes for longer than the pong timeout, the connection is
dead. Times are in nanoseconds.
-/

namespace LiveBook

/-- What a connection knows about its being alive. -/
structure Heartbeat where
  pingInterval : Nat
  pongTimeout : Nat
  /-- When a frame was last received, or the connection opened. -/
  lastMessage : Instant
  /-- When the ping was sent that is still unanswered. -/
  pingSent : Option Instant
deriving DecidableEq, Repr, Inhabited

namespace Heartbeat

/-- A connection opened now. -/
def start (pingInterval pongTimeout : Nat) (now : Instant) : Heartbeat :=
  ⟨pingInterval, pongTimeout, now, none⟩

/-- Starts over, for a connection opened now. -/
def reset (h : Heartbeat) (now : Instant) : Heartbeat :=
  { h with lastMessage := now, pingSent := none }

/-- A ping was sent. -/
def ping (h : Heartbeat) (now : Instant) : Heartbeat := { h with pingSent := some now }

/-- A frame was received. -/
def message (h : Heartbeat) (now : Instant) : Heartbeat :=
  { h with lastMessage := now, pingSent := none }

/-- Whether a ping is still unanswered. -/
def isWaiting (h : Heartbeat) : Bool := h.pingSent.isSome

/-- Whether a ping has been unanswered for too long. -/
def isTimedOut (h : Heartbeat) (now : Instant) : Bool :=
  h.pingSent.any fun sent => h.pongTimeout < Instant.since now sent

/-- Whether a ping is due. -/
def shouldPing (h : Heartbeat) (now : Instant) : Bool :=
  h.pingSent.isNone && h.pingInterval ≤ Instant.since now h.lastMessage

/-- The least time between two looks at the heartbeat: ten milliseconds. -/
def minCheckInterval : Nat := 10000000

/-- The time between two looks at the heartbeat. -/
def checkInterval (h : Heartbeat) : Nat :=
  max (min h.pingInterval h.pongTimeout / 2) minCheckInterval

/-- A ping is never due while one is unanswered. -/
theorem shouldPing_of_isWaiting {h : Heartbeat} (now : Instant) (hw : h.isWaiting = true) :
    h.shouldPing now = false := by
  unfold isWaiting at hw
  simp [shouldPing, Option.isSome_iff_ne_none.1 hw]

end Heartbeat

end LiveBook
