import LiveBook.Tracker.Error

/-!
# What can go wrong with the application
-/

namespace LiveBook

/-- An error of the application. -/
inductive AppError where
  /-- The configuration cannot be read or does not hold together. -/
  | config (reason : String)
  /-- A line of the recorded feed is no event. -/
  | replay (line : Nat) (reason : String)
  | tracker (cause : TrackerError)
  | telemetry (cause : TelemetryError)

/-- The wording of an error; those of the tracker and of telemetry speak for themselves. -/
def AppError.message : AppError → String
  | .config r => "invalid app config: " ++ r
  | .replay line r => "replay feed line " ++ Digits.natText line ++ ": " ++ r
  | .tracker e => e.message
  | .telemetry e => e.message

end LiveBook
