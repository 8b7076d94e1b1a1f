import LiveBook.Json.Basic
import LiveBook.LogFilter
import LiveBook.LogFormat

/-!
# Log records

A record says where it comes from, how important it is, what happened, and under which
circumstances. It is written as a JSON object, or in two lines for people.
-/

namespace LiveBook

open Json (Value)

/-- The name of a level in a record. -/
def LogLevel.title : LogLevel → String
  | .off => "OFF"
  | .error => "ERROR"
  | .warn => "WARN"
  | .info => "INFO"
  | .debug => "DEBUG"
  | .trace => "TRACE"

/-- A log record. -/
structure LogRecord where
  level : LogLevel
  target : String
  message : String
  fields : List (String × Value)
deriving Inhabited

namespace LogRecord

/-- A value for people: strings without their quotes. -/
def plain : Value → String
  | .string s => s
  | v => v.render

/-- The text of a record. -/
def text (r : LogRecord) : LogFormat → String
  | .json =>
    (Value.object [("level", .string r.level.title),
      ("fields", .object (("message", .string r.message) :: r.fields)),
      ("target", .string r.target)]).render ++ "\n"
  | .pretty =>
    let fields := r.fields.map fun (k, v) => ", " ++ k ++ ": " ++ plain v
    "  " ++ r.level.title ++ " " ++ r.target ++ ": " ++ r.message ++ String.join fields ++ "\n\n"

end LogRecord

end LiveBook
