import LiveBook.Json.Basic
import LiveBook.Json.Decode
import LiveBook.Number.Power

/-!
# The configuration of a connection

Where a connection leads, and how patiently it is kept up. Only the address has no
default in a document. Times are in milliseconds.
-/

namespace LiveBook

open Json (Decode Document Mode Record Value)
open Number (twoTo)

/-- The settings of a connection. -/
structure ConnectionConfig where
  url : String := ""
  /-- How many attempts in a row may fail; zero stands for any number. -/
  maxAttempts : Nat := 0
  /-- The wait after the first failed attempt; it doubles with each further one. -/
  baseDelay : Nat := 1000
  /-- The longest wait between two attempts. -/
  maxDelay : Nat := 5000
  /-- A ping is due when nothing was received for so long. -/
  pingInterval : Nat := 30000
  /-- A ping may stay unanswered for so long. -/
  pongTimeout : Nat := 10000
  /-- The pause between connecting and subscribing. -/
  resubscribeDelay : Nat := 0
deriving DecidableEq, Repr, Inhabited

namespace ConnectionConfig

/-- The greatest power of two by which the wait between two attempts grows. -/
def maxDoublings : Nat := 16

/-- The wait after so many attempts in a row that came to nothing, in milliseconds. -/
def retryDelay (c : ConnectionConfig) (failed : Nat) : Nat :=
  min c.maxDelay (c.baseDelay * twoTo (min (failed - 1) maxDoublings))

/-- How the settings of a connection are read; whether there was an address is noted
apart. -/
def fields : Record (Option String × ConnectionConfig) where
  name := "ConnectionConfig"
  fields := [
    ⟨"url", true, fun d s => return (some (← Json.string d), s.2)⟩,
    ⟨"max_reconnect_attempts", false,
      fun d s => return (s.1, { s.2 with maxAttempts := ← Json.u32 d })⟩,
    ⟨"reconnect_base_delay_ms", false,
      fun d s => return (s.1, { s.2 with baseDelay := ← Json.u64 d })⟩,
    ⟨"reconnect_max_delay_ms", false,
      fun d s => return (s.1, { s.2 with maxDelay := ← Json.u64 d })⟩,
    ⟨"ping_interval_ms", false,
      fun d s => return (s.1, { s.2 with pingInterval := ← Json.u64 d })⟩,
    ⟨"pong_timeout_ms", false,
      fun d s => return (s.1, { s.2 with pongTimeout := ← Json.u64 d })⟩,
    ⟨"resubscribe_delay_ms", false,
      fun d s => return (s.1, { s.2 with resubscribeDelay := ← Json.u64 d })⟩]

/-- The settings of a connection in a document. -/
def decode (mode : Mode) (d : Document) : Decode ConnectionConfig :=
  fields.decode mode (none, {})
    (fun s => return { s.2 with url := ← Json.present "url" s.1 }) d

/-- The settings of a connection as a JSON value. -/
def toJson (c : ConnectionConfig) : Value :=
  .object [("url", .string c.url), ("max_reconnect_attempts", .nat c.maxAttempts),
    ("reconnect_base_delay_ms", .nat c.baseDelay), ("reconnect_max_delay_ms", .nat c.maxDelay),
    ("ping_interval_ms", .nat c.pingInterval), ("pong_timeout_ms", .nat c.pongTimeout),
    ("resubscribe_delay_ms", .nat c.resubscribeDelay)]

end ConnectionConfig

end LiveBook
