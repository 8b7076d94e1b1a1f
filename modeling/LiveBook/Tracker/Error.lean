import LiveBook.Book.Basic
import LiveBook.Metrics.Error
import LiveBook.Source.Error

/-!
# What can go wrong with a tracker
-/

namespace LiveBook

/-- An error of a tracker. -/
inductive TrackerError where
  | invalidConfig (reason : String)
  | alreadyStarted
  /-- A market is not waiting for its first book. -/
  | notInitializing (market : MarketId)
  | book (cause : BookError)
  | source (cause : SourceError)
  | telemetry (cause : TelemetryError)

/-- The wording of an error. -/
def TrackerError.message : TrackerError → String
  | .invalidConfig r => "Invalid configuration: " ++ r
  | .alreadyStarted => "Tracker already started"
  | .notInitializing m => "Market " ++ m.name ++ " is not initializing"
  | .book e => "Book error: " ++ e.message
  | .source e => "Source error: " ++ e.message
  | .telemetry e => "Telemetry error: " ++ e.message

end LiveBook
