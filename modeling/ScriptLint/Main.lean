import ScriptLint.CommandLine.Run

/-!
# The program

Reads the files that the arguments name, prints what the run prints, and exits with its code.
-/

namespace ScriptLint.CommandLine

/-- What is shown when the arguments do not describe a run. -/
def usage : String :=
  "Usage: script-lint [OPTIONS] <FILE>...\n\n" ++
  "Options:\n" ++
  "  -c, --config <FILE>        JSON with the members options and globals\n" ++
  "  -o, --option <KEY=VALUE>   Override one option\n" ++
  "  -r, --reporter <REPORTER>  text or json\n" ++
  "  -v, --verbose              Ask for more detail\n" ++
  "  -h, --help                 Print help\n" ++
  "  -V, --version              Print version"

/-- What is wrong with the arguments. -/
def Refusal.message : Refusal → String
  | missingFile => "error: no file was given"
  | badValue => "error: the value of an option is missing or not allowed"
  | unknownOption => "error: an option is not known"
  | repeatedOption => "error: an option was given twice"
  | excessValue => "error: an option takes no value"
  | help => "Single-pass JavaScript linter"
  | version => "script-lint 0.1.0"

/-- Reads a file from disk. -/
def readFromDisk (name : String) : IO (Except ReadError String) := do
  try
    return .ok (← IO.FS.readFile name)
  catch
    | .noFileOrDirectory .. => return .error .missing
    | e => return .error (.other (toString e))

/-- Reads every file that a run may need. -/
def gatherFiles (i : Invocation) : IO Files := do
  let names := i.config.toList ++ i.files
  let found ← names.mapM fun name => do return (name, ← readFromDisk name)
  return fun name => (found.lookup name).getD (.error .missing)

/-- Carries out a run and returns its exit code. -/
def execute (i : Invocation) : IO Nat := do
  match i.run (← gatherFiles i) with
  | .ok result =>
    IO.print result.output
    return result.exitCode
  | .error failure =>
    IO.eprintln s!"Error: {failure.message}"
    return failureExitCode

/-- Says why there is no run and returns the exit code. -/
def refuse (refusal : Refusal) : IO Nat := do
  match refusal with
  | .help => IO.println (refusal.message ++ "\n\n" ++ usage)
  | .version => IO.println refusal.message
  | _ => IO.eprintln (refusal.message ++ "\n\n" ++ usage)
  return refusal.exitCode

end ScriptLint.CommandLine

/-- The program. -/
def main (args : List String) : IO UInt32 := do
  let code ← match ScriptLint.CommandLine.Invocation.ofArgs args with
    | .ok invocation => ScriptLint.CommandLine.execute invocation
    | .error refusal => ScriptLint.CommandLine.refuse refusal
  return UInt32.ofNat code
