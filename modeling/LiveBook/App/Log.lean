import LiveBook.App.Launch
import LiveBook.LogRecord

/-!
# The log of the application

The records that the application writes: when it starts, what it reports, what goes wrong in
the tracker, and when it has finished.
-/

namespace LiveBook

open Json (Value)

/-- The record written when the configuration was read. -/
def StartRecord.toLog (r : StartRecord) (version : String) : LogRecord :=
  ⟨.info, programTarget, "obsync starting",
    [("version", .string version), ("config", .string r.config), ("feed", .string r.feed),
      ("markets", .string r.marketsText)]⟩

/-- The target of a report. -/
def Report.target : Report → String
  | .replayed _ _ => "obsync_app::replay"
  | _ => "obsync_app::app"

/-- A report as a record. -/
def Report.toLog (r : Report) : LogRecord :=
  ⟨if r.isWarning then .warn else .info, r.target, r.title, r.fields⟩

/-- A record about a listener that was hung up on. -/
def Listener.logHangUp (l : Listener) (error? : Option SourceError) : LogRecord :=
  let target := "obsync_tracker::supervisor"
  let stream := ("stream", Value.string l.name)
  match error? with
  | none => ⟨.warn, target, "Listener returned, no longer supervised", [stream]⟩
  | some e =>
    ⟨.error, target, if e.isFatal then "Listener failed fatally" else "Listener failed, restarting",
      [stream, ("error", .string e.message)]⟩

/-- What a tracker has done as a record, if it is worth one. -/
def TrackerEffect.toLog? : TrackerEffect → Option LogRecord
  | .hungUp _ l error? => some (l.logHangUp error?)
  | .failed _ e =>
    some ⟨.error, "obsync_tracker::tracker", "Failed to initialize market",
      [("error", .string e.message)]⟩
  | .routed _ _ (.buffered (some d)) =>
    some ⟨.warn, "obsync_tracker::router", "Pending buffer full, dropped oldest diff",
      [("market", d.market.toJson), ("sequence", .nat d.sequence)]⟩
  | .worked _ (.took m (.refused e)) =>
    some ⟨.error, "obsync_tracker::worker", "Failed to apply book update",
      [("market", m.market.toJson), ("error", .string (TrackerError.book e).message)]⟩
  | .worked _ .ended => some ⟨.info, "obsync_tracker::worker", "Market worker stopped", []⟩
  | _ => none

/-- What the application has done as a record, if it is worth one. -/
def Application.Effect.toLog? : Application.Effect → Option LogRecord
  | .tracker e => e.toLog?
  | .reported r => some r.toLog
  | .begun _ => none

/-- The record written when a run has ended. -/
def RunSummary.toLog (s : RunSummary) : LogRecord :=
  ⟨.info, programTarget, "obsync finished",
    [("books", .nat s.views.length), ("diffs", .nat s.metrics.totals.diffsProcessed),
      ("actions", .nat s.completed)]⟩

/-- The records of a whole run, in order. -/
def Performance.toLog (p : Performance) : List LogRecord :=
  (p.seen.reverse.filterMap fun e => e.2.toLog?) ++ p.app.summary?.toList.map RunSummary.toLog

/-- The records of a launch and, if there was one, of the run to its end. -/
def Launch.toLog (l : Launch) (version : String) : List LogRecord :=
  match l with
  | .failed r _ => [r.toLog version]
  | .running r p => r.toLog version :: p.complete.toLog
  | _ => []

/-- The records that are written. -/
def Environment.kept (e : Environment) (rs : List LogRecord) : List LogRecord :=
  rs.filter fun r => e.filter.keeps r.target r.level

end LiveBook
