import LiveBook.Text.Digits

/-!
# Which log records are kept

Every log record has a target and a level. A filter is a list of directives; that with the
longest target which the target of a record begins with decides, and it keeps the records
up to some level. Without any directive only errors are kept.

`LiveBook.LogFilter.parse?` reads a filter such as `info,livebook=debug`: directives are
separated by commas and name a level, a target, or both.
-/

namespace LiveBook

/-- How much is kept; nothing at `off`. -/
inductive LogLevel where
  | off
  | error
  | warn
  | info
  | debug
  | trace
deriving DecidableEq, Repr, Inhabited

namespace LogLevel

/-- The levels with their names, least first. -/
def names : List (String × LogLevel) :=
  [("off", .off), ("error", .error), ("warn", .warn), ("info", .info), ("debug", .debug),
    ("trace", .trace)]

/-- How much a level keeps. -/
def rank : LogLevel → Nat
  | .off => 0
  | .error => 1
  | .warn => 2
  | .info => 3
  | .debug => 4
  | .trace => 5

/-- A level by its name, in any case, or by its number. -/
def parse? (text : String) : Option LogLevel :=
  (names.find? fun p => p.1 == text.toLower || Digits.natText p.2.rank == text).map (·.2)

end LogLevel

/-- What is kept of the records whose targets begin with some text. -/
structure LogDirective where
  target : String
  level : LogLevel
deriving DecidableEq, Repr, Inhabited

namespace LogDirective

/-- Whether a character can stand in a target. -/
def isTargetChar (c : Char) : Bool := c.isAlphanum || c == '_' || c == ':' || c == '-'

/-- A directive: a level, or a target with a level or without, which is kept in full. -/
def parse? (text : String) : Option LogDirective :=
  match LogLevel.parse? text with
  | some level => some ⟨"", level⟩
  | none =>
    let target := text.toList.takeWhile isTargetChar
    if target.isEmpty then none
    else
      match text.toList.drop target.length with
      | [] | ['='] => some ⟨String.ofList target, .trace⟩
      | '=' :: level => (LogLevel.parse? (String.ofList level)).map (⟨String.ofList target, ·⟩)
      | _ => none

end LogDirective

/-- A filter of log records. -/
structure LogFilter where
  directives : List LogDirective
deriving DecidableEq, Repr, Inhabited

namespace LogFilter

/-- A filter, if all its directives can be read. -/
def parse? (text : String) : Option LogFilter :=
  (((text.splitOn ",").filter (· ≠ "")).mapM LogDirective.parse?).map LogFilter.mk

/-- The filter where none is given, or one that cannot be read. -/
def standard : LogFilter := ⟨[⟨"", .info⟩, ⟨"obsync", .debug⟩]⟩

/-- The filter that a setting stands for. -/
def ofSetting (text? : Option String) : LogFilter := (text?.bind parse?).getD standard

/-- Of two directives the one with the longer target, the later of two with the same. -/
def closer (best : Option LogDirective) (d : LogDirective) : Option LogDirective :=
  match best with
  | some b => if d.target.length < b.target.length then some b else some d
  | none => some d

/-- How much is kept of the records with a target. -/
def levelFor (f : LogFilter) (target : String) : LogLevel :=
  if f.directives.isEmpty then .error
  else
    match (f.directives.filter fun d => d.target.isPrefixOf target).foldl closer none with
    | some d => d.level
    | none => .off

/-- Whether a record is kept. -/
def keeps (f : LogFilter) (target : String) (level : LogLevel) : Bool :=
  level.rank ≤ (f.levelFor target).rank

end LogFilter

end LiveBook
