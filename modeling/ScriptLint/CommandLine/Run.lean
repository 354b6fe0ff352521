import ScriptLint.CommandLine.Output
import ScriptLint.Config
import ScriptLint.Lint

/-!
# Runs of the command line

A run reads its configuration, applies the overrides, lints every file and prints the reports. A
file that cannot be read stops it before anything is printed.
-/

namespace ScriptLint.CommandLine

/-- Why a file cannot be read. -/
inductive ReadError where
  | missing
  | other (reason : String)
deriving DecidableEq

/-- The text shown to the user. -/
def ReadError.message : ReadError → String
  | missing => "No such file or directory (os error 2)"
  | other reason => reason

/-- The files that a run can see, by name. -/
abbrev Files := String → Except ReadError String

/-- Why a run fails. Findings in a program are no failure. -/
inductive Failure where
  | unreadable (file : String) (cause : ReadError)
  | badConfig (file : String)
  | badOverride (cause : OverrideError)
deriving DecidableEq

/-- The text shown to the user. -/
def Failure.message : Failure → String
  | unreadable file cause => s!"could not read '{file}': {cause.message}"
  | badConfig file => s!"invalid config '{file}'"
  | badOverride cause => cause.message

/-- Reads a file. -/
def read (files : Files) (name : String) : Except Failure String :=
  (files name).mapError (.unreadable name)

/-- Reads a configuration. -/
def loadConfig (files : Files) (name : String) : Except Failure Config := do
  let text ← read files name
  match Config.parse? text with
  | some config => return config
  | none => throw (.badConfig name)

/-- Lints a file. -/
def lintFile (files : Files) (config : Config) (name : String) : Except Failure FileReport := do
  let text ← read files name
  return { file := name, report := lint text config.options config.globals }

/-- What a run prints and whether it found something. -/
structure Result where
  output : String
  clean : Bool

/-- The exit code of a run that did not fail: one if something was found. -/
def Result.exitCode (r : Result) : Nat := if r.clean then 0 else 1

/-- The exit code of a run that failed. -/
def failureExitCode : Nat := 2

namespace Invocation

/-- The configuration in force: the one loaded, if one is named, with the overrides on top. -/
def effectiveConfig (i : Invocation) (files : Files) : Except Failure Config := do
  let base ← match i.config with
    | some name => loadConfig files name
    | none => pure {}
  (base.overrideAll i.overrides).mapError .badOverride

/-- How the reports are printed: as text unless something else is asked for. -/
def reporterOrDefault (i : Invocation) : Reporter := i.reporter.getD .text

/-- Lints the files under a configuration. -/
def runWith (i : Invocation) (files : Files) (config : Config) : Except Failure Result := do
  let reports ← i.files.mapM (lintFile files config)
  return {
    output := i.reporterOrDefault.output reports
    clean := reports.all (·.report.success) }

/-- Carries out the run. -/
def run (i : Invocation) (files : Files) : Except Failure Result := do
  i.runWith files (← i.effectiveConfig files)

end Invocation

end ScriptLint.CommandLine
