import LiveBook.Table

/-!
# The command line of the application

The application takes two options, `--config FILE` (short `-c`) and `--feed FILE`, and the
flags `--help` and `--version`. Options are read one after the other; the first that asks
for help or for the version, or that is wrong, decides. An option whose value is an argument
of its own is judged only when the next option comes, and so after an argument that is
unknown.

* `LiveBook.CommandLine` – what was asked for;
* `LiveBook.CommandLine.parse` – reads the arguments.
-/

namespace LiveBook

/-- An option with a value. -/
inductive CommandOption where
  | config
  | feed
deriving DecidableEq, Repr, Inhabited

/-- An option as it is shown. -/
def CommandOption.text : CommandOption → String
  | .config => "--config <CONFIG>"
  | .feed => "--feed <FEED>"

/-- What is wrong with the arguments. -/
inductive UsageError where
  | unexpectedArgument (argument : String)
  | missingValue (option : CommandOption)
  | repeated (option : CommandOption)
  /-- A flag was given a value. -/
  | unexpectedValue (value flag : String)
deriving DecidableEq, Repr

/-- The wording of an error. -/
def UsageError.message : UsageError → String
  | .unexpectedArgument a => "unexpected argument '" ++ a ++ "' found"
  | .missingValue o => "a value is required for '" ++ o.text ++ "' but none was supplied"
  | .repeated o => "the argument '" ++ o.text ++ "' cannot be used multiple times"
  | .unexpectedValue v f =>
    "unexpected value '" ++ v ++ "' for '" ++ f ++ "' found; no more were expected"

/-- Why nothing is run. -/
inductive CommandStop where
  | help
  | version
  | usage (e : UsageError)
deriving DecidableEq, Repr

/-- **What the command line asks for.** -/
structure CommandLine where
  config : String
  feed? : Option String
deriving DecidableEq, Repr, Inhabited

namespace CommandLine

/-- The configuration file where none is named. -/
def defaultConfig : String := "config/default.toml"

/-- The options read so far, and one that may still get its value or has just got it. -/
structure Progress where
  values : Table CommandOption String := .empty
  pending? : Option (CommandOption × Option String) := none

/-- Sets an option; none can be set twice or to nothing. -/
def Progress.set (p : Progress) (o : CommandOption) (value : String) :
    Except CommandStop Progress :=
  if p.values.contains o then .error (.usage (.repeated o))
  else if value.isEmpty then .error (.usage (.missingValue o))
  else .ok ⟨p.values.set o value, none⟩

/-- Concludes the last option. -/
def Progress.settle (p : Progress) : Except CommandStop Progress :=
  match p.pending? with
  | some (o, some value) => p.set o value
  | some (o, none) => .error (.usage (.missingValue o))
  | none => .ok p

/-- A long argument, without its two dashes, cut at the first equals sign. -/
def splitLong (text : List Char) : String × Option String :=
  let name := text.takeWhile (· ≠ '=')
  match text.drop name.length with
  | [] => (String.ofList name, none)
  | _ :: value => (String.ofList name, some (String.ofList value))

/-- An option that was named, with its value if that came with it. -/
def Progress.name (p : Progress) (o : CommandOption) (value? : Option String) :
    Except CommandStop Progress := do
  let p ← p.settle
  match value? with
  | some v => p.set o v
  | none => return { p with pending? := some (o, none) }

/-- A flag that was named, which takes no value. -/
def Progress.flag (p : Progress) (stop : CommandStop) (flag : String) (value? : Option String) :
    Except CommandStop Progress := do
  match value? with
  | some v => throw (.usage (.unexpectedValue v flag))
  | none =>
    let _ ← p.settle
    throw stop

/-- Takes in a long argument, given without its two dashes. -/
def Progress.long (p : Progress) (text : List Char) : Except CommandStop Progress :=
  let (name, value?) := splitLong text
  match name with
  | "config" => p.name .config value?
  | "feed" => p.name .feed value?
  | "help" => p.flag .help "--help" value?
  | "version" => p.flag .version "--version" value?
  | _ => .error (.usage (.unexpectedArgument ("--" ++ name)))

/-- Takes in a short argument, given without its dash. -/
def Progress.short (p : Progress) : List Char → Except CommandStop Progress
  | 'c' :: value =>
    match value with
    | [] => p.name .config none
    | '=' :: v => p.name .config (some (String.ofList v))
    | v => p.name .config (some (String.ofList v))
  | 'h' :: _ => p.flag .help "-h" none
  | 'V' :: _ => p.flag .version "-V" none
  | c :: _ => .error (.usage (.unexpectedArgument ("-" ++ String.singleton c)))
  | [] => .ok p

/-- Takes in an argument that does not look like an option. -/
def Progress.plain (p : Progress) (text : String) : Except CommandStop Progress :=
  match p.pending? with
  | some (o, none) => .ok { p with pending? := some (o, some text) }
  | _ => .error (.usage (.unexpectedArgument text))

/-- Takes in the arguments. Behind two dashes alone nothing is an option. -/
def Progress.takeAll (p : Progress) : List String → Except CommandStop Progress
  | [] => p.settle
  | a :: rest => do
    match a.toList with
    | ['-', '-'] =>
      match rest with
      | [] => p.settle
      | b :: _ => throw (.usage (.unexpectedArgument b))
    | '-' :: '-' :: text => (← p.long text).takeAll rest
    | '-' :: c :: text => (← p.short (c :: text)).takeAll rest
    | _ => (← p.plain a).takeAll rest

/-- **Reads the arguments.** A configuration file that the arguments do not name is that of
the environment, or the default. -/
def parse (fromEnvironment : Option String) (args : List String) :
    Except CommandStop CommandLine := do
  let p ← ({} : Progress).takeAll args
  let config ←
    match p.values.get? .config, fromEnvironment with
    | some path, _ => pure path
    | none, some "" => throw (.usage (.missingValue .config))
    | none, some path => pure path
    | none, none => pure defaultConfig
  return ⟨config, p.values.get? .feed⟩

end CommandLine

end LiveBook
