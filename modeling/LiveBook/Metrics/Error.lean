/-!
# What can go wrong with logging and metrics
-/

namespace LiveBook

/-- An error of the log or of the metrics. -/
inductive TelemetryError where
  /-- The log could not be set up. -/
  | logging (reason : String)
  /-- The metrics could not be exported. -/
  | metrics (reason : String)
deriving DecidableEq, Repr

/-- The wording of an error. -/
def TelemetryError.message : TelemetryError → String
  | .logging r => "cannot install log subscriber: " ++ r
  | .metrics r => "metrics export failed: " ++ r

end LiveBook
