import LiveBook.App.Error
import LiveBook.Toml.Reader
import LiveBook.Tracker.Config

/-!
# The configuration of the application

A configuration file says which recorded feed is played to the tracker and how fast, what
the tracker is configured to do, which markets are added and removed on the way, and how
often the application reports. Times are in milliseconds.

* `LiveBook.AppConfig.ofText` – the configuration that a text describes;
* `LiveBook.AppConfig.orderedSchedule` – the schedule in the order of execution.
-/

namespace LiveBook

open Json (Decode Document Mode Record Value)

/-- The feed that is played. -/
structure ReplayConfig where
  /-- The file with the feed. -/
  path : String
  /-- The pause after an event. -/
  pace : Nat := 10
  /-- How long events may still be at work once the feed has ended. -/
  drain : Nat := 500
deriving DecidableEq, Repr, Inhabited

namespace ReplayConfig

/-- How the settings of the feed are read; whether there was a path is noted apart. -/
def fields : Record (Option String × ReplayConfig) where
  name := "ReplayConfig"
  fields := [
    ⟨"path", true, fun d s => return (some (← Json.string d), s.2)⟩,
    ⟨"pace_ms", false, fun d s => return (s.1, { s.2 with pace := ← Json.u64 d })⟩,
    ⟨"drain_ms", false, fun d s => return (s.1, { s.2 with drain := ← Json.u64 d })⟩]

/-- The settings of the feed in a document. -/
def decode (mode : Mode) (d : Document) : Decode ReplayConfig :=
  fields.decode mode (none, { path := "" })
    (fun s => return { s.2 with path := ← Json.present "path" s.1 }) d

/-- The settings of the feed as a JSON value. -/
def toJson (c : ReplayConfig) : Value :=
  .object [("path", .string c.path), ("pace_ms", .nat c.pace), ("drain_ms", .nat c.drain)]

end ReplayConfig

/-- What is done with a market by the schedule. -/
inductive ScheduleAction where
  | add
  | remove
deriving DecidableEq, Repr, Inhabited

namespace ScheduleAction

/-- The name of an action in a document. -/
def name : ScheduleAction → String
  | .add => "add"
  | .remove => "remove"

/-- An action in a document. -/
def decode (mode : Mode) (d : Document) : Decode ScheduleAction :=
  Json.choice mode [("add", .add), ("remove", .remove)] d

end ScheduleAction

/-- An entry of the schedule. -/
structure ScheduledAction where
  /-- When it is due, counted from the time when the tracker is ready. -/
  due : Nat
  action : ScheduleAction
  market : MarketId
deriving DecidableEq, Repr, Inhabited

namespace ScheduledAction

/-- An entry of the schedule as far as it was read. -/
structure Draft where
  due : Option Nat := none
  action : Option ScheduleAction := none
  market : Option MarketId := none

/-- How an entry of the schedule is read. -/
def fields (mode : Mode) : Record Draft where
  name := "ScheduledAction"
  fields := [
    ⟨"at_ms", true, fun d s => return { s with due := some (← Json.u64 d) }⟩,
    ⟨"action", true, fun d s => return { s with action := some (← ScheduleAction.decode mode d) }⟩,
    ⟨"market", true, fun d s => return { s with market := some (← MarketId.decode d) }⟩]

/-- An entry of the schedule in a document. -/
def decode (mode : Mode) (d : Document) : Decode ScheduledAction :=
  (fields mode).decode mode {}
    (fun s => return {
      due := ← Json.present "at_ms" s.due
      action := ← Json.present "action" s.action
      market := ← Json.present "market" s.market }) d

/-- An entry of the schedule as a JSON value. -/
def toJson (a : ScheduledAction) : Value :=
  .object [("at_ms", .nat a.due), ("action", .string a.action.name),
    ("market", a.market.toJson)]

end ScheduledAction

/-- **The settings of the application.** -/
structure AppConfig where
  tracker : TrackerConfig := {}
  replay : ReplayConfig
  schedule : List ScheduledAction := []
  /-- The time between two reports. -/
  reportInterval : Nat := 5000
  /-- The number of levels of each side that a report shows. -/
  reportDepth : Nat := 3
deriving DecidableEq, Repr, Inhabited

namespace AppConfig

/-- How the settings of the application are read; whether there was a feed is noted
apart. -/
def fields (mode : Mode) : Record (Option ReplayConfig × AppConfig) where
  name := "AppConfig"
  fields := [
    ⟨"tracker", false,
      fun d s => return (s.1, { s.2 with tracker := ← TrackerConfig.decode mode d })⟩,
    ⟨"replay", true, fun d s => return (some (← ReplayConfig.decode mode d), s.2)⟩,
    ⟨"schedule", false,
      fun d s =>
        return (s.1, { s.2 with schedule := ← Json.list (ScheduledAction.decode mode) d })⟩,
    ⟨"report_interval_ms", false,
      fun d s => return (s.1, { s.2 with reportInterval := ← Json.u64 d })⟩,
    ⟨"report_depth", false,
      fun d s => return (s.1, { s.2 with reportDepth := ← Json.usize d })⟩]

/-- The settings of the application in a document. -/
def decode (mode : Mode) (d : Document) : Decode AppConfig :=
  (fields mode).decode mode (none, { replay := { path := "" } })
    (fun s => return { s.2 with replay := ← Json.present "replay" s.1 }) d

/-- The settings of the application as a JSON value. -/
def toJson (c : AppConfig) : Value :=
  .object [("tracker", c.tracker.toJson), ("replay", c.replay.toJson),
    ("schedule", .list ScheduledAction.toJson c.schedule),
    ("report_interval_ms", .nat c.reportInterval), ("report_depth", .nat c.reportDepth)]

/-- The words in front of the reason why a text is no configuration. -/
def parseFailure : String := "Failed to parse config"

/-- Refuses settings that do not hold together. -/
def validate (c : AppConfig) : Except AppError Unit :=
  match c.tracker.validate with
  | .error e => .error (.tracker e)
  | .ok () =>
    if c.reportInterval = 0 then .error (.config "report_interval_ms must be > 0")
    else
      match c.schedule.find? fun a => a.market.isBlank with
      | some a =>
        .error (.config ("blank market in schedule entry at " ++ Digits.natText a.due ++ " ms"))
      | none => .ok ()

/-- **The settings that a configuration file describes.** -/
def ofText (text : String) : Except AppError AppConfig := do
  let some d := Toml.read text | throw (.config parseFailure)
  match decode .settings d with
  | .error _ => throw (.config parseFailure)
  | .ok c =>
    c.validate
    return c

/-- The schedule in the order of execution; entries due at the same time keep their
order. -/
def orderedSchedule (c : AppConfig) : List ScheduledAction :=
  c.schedule.mergeSort fun a b => a.due ≤ b.due

/-- The order of execution is one by time. -/
theorem pairwise_orderedSchedule (c : AppConfig) :
    c.orderedSchedule.Pairwise fun a b => a.due ≤ b.due := by
  have h : c.orderedSchedule.Pairwise fun a b => decide (a.due ≤ b.due) = true :=
    List.pairwise_mergeSort (fun a b c hab hbc => by simp at *; omega)
      (fun a b => by simp; omega) c.schedule
  simpa using h

end AppConfig

end LiveBook
