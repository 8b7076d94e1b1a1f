import LiveBook.App.Log

/-!
# The program

Replays a recorded feed in real time and writes the log to standard output. Whatever is
decided is decided elsewhere; here files are read, time is waited for, and texts are
written.
-/

namespace LiveBook

/-- The version of the program. -/
def version : String := "0.1.0"

/-- What is said about the command line. -/
def helpText : String :=
  "Replay a recorded market data feed into synchronized order books\n\n" ++
  "Usage: obsync [OPTIONS]\n\nOptions:\n" ++
  "  -c, --config <CONFIG>  TOML config file [env: OBSYNC_CONFIG=] " ++
  "[default: " ++ CommandLine.defaultConfig ++ "]\n" ++
  "      --feed <FEED>      Replace replay.path from the config file\n" ++
  "  -h, --help             Print help\n" ++
  "  -V, --version          Print version\n"

/-- Reads a file. -/
def readFile (path : String) : IO (Except FileError String) := do
  try
    return .ok (← IO.FS.readFile path)
  catch e =>
    return .error (match e with
      | .noFileOrDirectory .. => .notFound
      | .inappropriateType .. => .isDirectory
      | e => .other (toString e))

/-- Writes records, as far as they are kept. -/
def writeLog (env : Environment) (rs : List LogRecord) : IO Unit := do
  for r in env.kept rs do
    IO.print (r.text env.format)
  (← IO.getStdout).flush

/-- Runs in real time from a moment on. What others have seen was logged already but for the
effects after the first `logged`. -/
partial def perform (env : Environment) (startedAt logged : Nat) (p : Performance) : IO Unit := do
  let p := p.settle Rehearsal.patience
  writeLog env ((p.seen.reverse.drop logged).filterMap fun e => e.2.toLog?)
  if p.app.hasEnded then
    writeLog env (p.app.summary?.toList.map RunSummary.toLog)
  else
    match p.nextDue? with
    | none => return
    | some due =>
      let passed := (← IO.monoMsNow) - startedAt
      IO.sleep (due - passed).toUInt32
      perform env startedAt p.seen.length (p.moveTo due)

/-- The environment as far as it matters. -/
def readEnvironment : IO Environment := do
  return {
    config? := ← IO.getEnv "OBSYNC_CONFIG"
    logFormat? := ← IO.getEnv "OBSYNC_LOG_FORMAT"
    deployment? := ← IO.getEnv "RUST_ENV"
    logFilter? := ← IO.getEnv "RUST_LOG" }

end LiveBook

open LiveBook in
/-- Runs the program. No output shows the time of an event, so any time will do for events
without one. -/
def main (args : List String) : IO UInt32 := do
  let env ← readEnvironment
  let l ← launch readFile ⟨0, 0⟩ env args
  match l with
  | .stopped .help => IO.print helpText
  | .stopped .version => IO.println ("obsync " ++ version)
  | _ => pure ()
  writeLog env (l.record?.toList.map fun r => r.toLog version)
  IO.eprint l.errorText
  match l with
  | .running _ p => perform env (← IO.monoMsNow) 0 p
  | _ => pure ()
  return l.code.toUInt32
