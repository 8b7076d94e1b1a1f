import LiveBook.App.CommandLine
import LiveBook.App.Performance
import LiveBook.LogFilter
import LiveBook.LogFormat
import LiveBook.Text.Quoted

/-!
# Launching the application

From the command line to a run of the application that is about to begin: the
configuration is read, the feed is read, and the first log record is written in between.
Each of these can fail.

Files are read by a function that is handed in, so that a launch can also be made over
files that exist in memory only.

* `LiveBook.Launch`, `LiveBook.launch` – what a launch leads to;
* `LiveBook.Launch.errorText` – what is said about one that fails;
* `LiveBook.Folder` – files in memory.
-/

namespace LiveBook

/-- Why a file cannot be read. -/
inductive FileError where
  | notFound
  | notDirectory
  | isDirectory
  | other (reason : String)
deriving DecidableEq, Repr

/-- The wording of an error. -/
def FileError.message : FileError → String
  | .notFound => "No such file or directory (os error 2)"
  | .notDirectory => "Not a directory (os error 20)"
  | .isDirectory => "Is a directory (os error 21)"
  | .other reason => reason

/-- The variables of the environment that matter. -/
structure Environment where
  config? : Option String
  logFormat? : Option String
  deployment? : Option String
  logFilter? : Option String
deriving DecidableEq, Repr, Inhabited

/-- The format of the log. -/
def Environment.format (e : Environment) : LogFormat := .resolve e.logFormat? e.deployment?

/-- Which log records are kept. -/
def Environment.filter (e : Environment) : LogFilter := .ofSetting e.logFilter?

/-- The target of the records about the program as a whole. -/
def programTarget : String := "obsync"

/-- The record that is written when the configuration was read. -/
structure StartRecord where
  config : String
  feed : String
  markets : List MarketId
deriving DecidableEq, Repr, Inhabited

/-- The markets in the record. -/
def StartRecord.marketsText (r : StartRecord) : String :=
  "[" ++ ", ".intercalate (r.markets.map fun m => "MarketId(" ++ Text.quoted m.name ++ ")") ++ "]"

/-- What a launch leads to. -/
inductive Launch where
  /-- Nothing is run. -/
  | stopped (why : CommandStop)
  /-- There is no configuration. -/
  | unconfigured (path : String) (cause : AppError)
  /-- There is a configuration, but no feed. -/
  | failed (record : StartRecord) (cause : AppError)
  /-- A run can begin. -/
  | running (record : StartRecord) (run : Performance)

/-- The configuration in a file. -/
def AppConfig.ofFile (path : String) (content : Except FileError String) :
    Except AppError AppConfig :=
  match content with
  | .ok text => ofText text
  | .error e => .error (.config ("Failed to read " ++ path ++ ": " ++ e.message))

/-- The feed in a file. -/
def Feed.ofFile (received : Time.Timestamp) (path : String) (content : Except FileError String) :
    Except AppError Feed :=
  match content with
  | .ok text =>
    match ofText received text with
    | .ok feed => .ok feed
    | .error e => .error e.toAppError
  | .error e => .error (.config ("Failed to read replay feed " ++ path ++ ": " ++ e.message))

/-- A run over the feed in a file. -/
def Performance.ofFile (config : AppConfig) (received : Time.Timestamp) (shutdownAt : Option Nat)
    (content : Except FileError String) : Except AppError Performance := do
  let feed ← Feed.ofFile received config.replay.path content
  match begin config feed shutdownAt with
  | .ok p => .ok p
  | .error e => .error (.tracker e)

/-- **Launches the application.** -/
def launch {m : Type → Type} [Monad m] (readFile : String → m (Except FileError String))
    (received : Time.Timestamp) (env : Environment) (args : List String) : m Launch := do
  match CommandLine.parse env.config? args with
  | .error why => return .stopped why
  | .ok command =>
    match AppConfig.ofFile command.config (← readFile command.config) with
    | .error e => return .unconfigured command.config e
    | .ok config =>
      let path := command.feed?.getD config.replay.path
      let config := { config with replay := { config.replay with path := path } }
      let record : StartRecord := ⟨command.config, path, config.tracker.markets⟩
      match Performance.ofFile config received none (← readFile path) with
      | .ok run => return .running record run
      | .error e => return .failed record e

/-- What is said about a launch that fails. -/
def Launch.errorText : Launch → String
  | .stopped (.usage e) => "error: " ++ e.message ++ "\n"
  | .stopped _ => ""
  | .unconfigured path e =>
    "Error: loading " ++ path ++ "\n\nCaused by:\n    " ++ e.message ++ "\n"
  | .failed _ e => "Error: " ++ e.message ++ "\n"
  | .running _ _ => ""

/-- The exit code of a launch. -/
def Launch.code : Launch → Nat
  | .stopped (.usage _) => 2
  | .stopped _ => 0
  | .unconfigured _ _ => 1
  | .failed _ _ => 1
  | .running _ _ => 0

/-- The record that was written on the way. -/
def Launch.record? : Launch → Option StartRecord
  | .failed r _ => some r
  | .running r _ => some r
  | _ => none

/-! ### Files in memory -/

/-- Files by their names, directories in front of them included. -/
structure Folder where
  files : List (String × String)
deriving DecidableEq, Repr, Inhabited

namespace Folder

/-- The parts of a path; empty ones and single dots do not count. -/
def parts (path : String) : List String :=
  (path.splitOn "/").filter fun s => s ≠ "" ∧ s ≠ "."

/-- Reads a file. -/
def read (f : Folder) (path : String) : Except FileError String :=
  let ps := parts path
  let named := f.files.map fun (name, text) => (parts name, text)
  match named.find? fun p => p.1 = ps with
  | some (_, text) => if path.endsWith "/" then .error .notDirectory else .ok text
  | none =>
    if path.isEmpty then .error .notFound
    else if path.startsWith "/" then .error .notFound
    else if ps.isEmpty ∨ named.any fun p => ps.isPrefixOf p.1 then .error .isDirectory
    else if named.any fun p => p.1.isPrefixOf ps then .error .notDirectory
    else .error .notFound

end Folder

end LiveBook
