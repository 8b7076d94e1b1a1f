/-!
# Messages per minute

How many messages of each kind came in a minute on average over some time, as floating
numbers. Over no time at all every rate is zero.
-/

namespace LiveBook

/-- Messages per minute. -/
structure MessageRates where
  diffs : Float
  snapshots : Float
  trades : Float
  total : Float

namespace MessageRates

/-- The nanoseconds of a second. -/
def nanosPerSecond : Nat := 1000000000

/-- A time in nanoseconds, as seconds: whole seconds and the rest are converted apart. -/
def seconds (nanos : Nat) : Float :=
  Float.ofNat (nanos / nanosPerSecond) + Float.ofNat (nanos % nanosPerSecond) / 1e9

/-- The rates of so many messages in so many nanoseconds. -/
def ofCounts (diffs snapshots trades nanos : Nat) : MessageRates :=
  let minutes := seconds nanos / 60.0
  if minutes ≤ 0.0 then ⟨0.0, 0.0, 0.0, 0.0⟩
  else
    let d := Float.ofNat diffs / minutes
    let s := Float.ofNat snapshots / minutes
    let t := Float.ofNat trades / minutes
    ⟨d, s, t, d + s + t⟩

end MessageRates

end LiveBook
