import LiveBook.Text.Blank

/-!
# The format of the log

The log is written as one JSON object a line, or in several lines for people. An
explicit choice wins; without one, what is said about the environment decides.
-/

namespace LiveBook

/-- How log records are written. -/
inductive LogFormat where
  /-- One JSON object a line. -/
  | json
  /-- Several lines, for people. -/
  | pretty
deriving DecidableEq, Repr, Inhabited

namespace LogFormat

/-- Whether a choice names something, white space at its ends and the case of its ASCII
letters apart. -/
def names (choice name : String) : Bool := (Text.trim choice).toLower == name

/-- The format, by an explicit choice and by the name of the environment. -/
def resolve (explicit environment : Option String) : LogFormat :=
  if explicit.any (names · "json") then .json
  else if explicit.any (names · "pretty") then .pretty
  else if environment = some "production" then .json
  else .pretty

/-- An explicit choice of JSON wins over any environment. -/
theorem resolve_json (environment : Option String) :
    resolve (some "json") environment = .json := by
  have h : names "json" "json" = true := by decide +kernel
  simp [resolve, h]

end LogFormat

end LiveBook
