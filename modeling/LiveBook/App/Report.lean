import LiveBook.App.Config
import LiveBook.Book.View
import LiveBook.Metrics.Basic
import LiveBook.Text.Quoted

/-!
# What the application reports

The application reports from time to time the top of every book and some of the metrics,
and besides, how each scheduled action went and that the feed has ended. A report is a
title with some fields.
-/

namespace LiveBook

open Json (Value)

/-- A report of the application. -/
inductive Report where
  /-- The top of a book, down to some depth. -/
  | book (view : BookView) (depth : Nat)
  /-- The totals, and the number of active markets. -/
  | metrics (markets : Nat) (totals : Totals)
  /-- How a scheduled action went. -/
  | action (entry : ScheduledAction) (applied : Bool)
  /-- The feed has ended, with so many events delivered and skipped. -/
  | replayed (delivered skipped : Nat)

namespace Report

/-- Levels with their prices and sizes. -/
def levelsText (ls : List Level) : String :=
  " ".intercalate (ls.map fun l => l.price.text ++ "x" ++ l.size.text)

/-- A value that may be absent. -/
def optionText {α : Type} (f : α → String) : Option α → String
  | some a => "Some(" ++ f a ++ ")"
  | none => "None"

/-- What a report says first. -/
def title : Report → String
  | .book _ _ => "Book"
  | .metrics _ _ => "Metrics"
  | .action _ true => "Scheduled action applied"
  | .action _ false => "Scheduled action failed"
  | .replayed _ _ => "Replay finished"

/-- Whether the report is of something that went wrong. -/
def isWarning : Report → Bool
  | .action _ applied => !applied
  | _ => false

/-- The name of a scheduled action. -/
def actionText : ScheduleAction → String
  | .add => "Add"
  | .remove => "Remove"

/-- The fields of a report. -/
def fields : Report → List (String × Value)
  | .book v depth =>
    let (bids, asks) := v.top depth
    [("market", v.market.toJson), ("snapshot_sequence", .nat v.snapshotSequence),
      ("last_diff_sequence", .string (optionText Digits.natText v.lastDiff)),
      ("bids", .string (levelsText bids)), ("asks", .string (levelsText asks)),
      ("spread_bps", .string (optionText Decimal.text v.spreadBps?)),
      ("last_trade", .string (optionText (fun p => Text.quoted p.text) v.lastTrade))]
  | .metrics markets t =>
    [("markets", .nat markets), ("diffs_processed", .nat t.diffsProcessed),
      ("diffs_rejected", .nat t.diffsRejected), ("diffs_queued", .nat t.diffsQueued),
      ("diffs_unknown", .nat t.diffsUnknown), ("snapshots_processed", .nat t.snapshotsProcessed),
      ("trades_processed", .nat t.tradesProcessed)]
  | .action e _ =>
    [("action", .string (actionText e.action)), ("market", e.market.toJson), ("at_ms", .nat e.due)]
  | .replayed delivered skipped => [("delivered", .nat delivered), ("skipped", .nat skipped)]

end Report

end LiveBook
