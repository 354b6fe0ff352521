import ScriptLint.Grammar.Statement
import ScriptLint.Report.Basic

/-!
# Linting a source

Linting never fails. Whatever is wrong with the source or the options comes back as a diagnostic of
the report; a run that stops early reports what it knows by then.
-/

namespace ScriptLint

/-- The lengths of the lines of a source, without carriage returns at their ends. -/
def measureLines (source : String) : List Nat :=
  (source.toList.splitOnP (· == '\n')).map fun line =>
    (line.reverse.dropWhile (· == '\r')).length

/-- The names predefined for a run: the language's own, those of the environments switched on, and
the caller's edits, which have the last word. -/
def predefinedTable (layers : Setting.Layers) (globals : Option Predefined.Globals) :
    Predefined.Table :=
  let sets := layers.enabledSettings.filterMap Predefined.environment?
  let changes := (globals.map Predefined.Globals.changes).getD []
  (sets.foldl Predefined.Table.addSet .standard).applyAll changes

/-- The session before the first token is read. -/
def Session.start (source : String) (options : Options) (globals : Option Predefined.Globals) :
    Session :=
  let layers := (Setting.Layers.ofOptions options).1
  { stream := .ofSource source
    sourceLength := source.length
    uncheckedLines := measureLines source
    layers
    scopes := { predefined := predefinedTable layers globals }
    journal := { ignoredCodes := options.ignoredCodes } }

namespace Parse

/-- A whole program over parsers for its statements. Rejected options are reported first, at a place
before the source. -/
def programOver (inner : Nested) (problems : List Setting.Problem) : Parse Unit := do
  reportProblems problems 0 0
  advance
  Grammar.prologue
  discard (Grammar.statementList inner .program)

/-- A whole program. -/
def program (problems : List Setting.Problem) : Parse Unit :=
  programOver (Grammar.levels maxNesting) problems

/-- What is left to do at the end of a run: the names are settled and the last lines checked. -/
def finish : Parse Scope.Outcome := do
  let s ← get
  let (result, scopes) := s.scopes.finish s.layers
  set { s with scopes }
  discard <| outcome do
    checkLinesBefore (s.checkedLines + s.uncheckedLines.length + 1)
    flushScopes
  return result

/-- A run: a program, and the end of the run whatever became of it. -/
def run (problems : List Setting.Problem) : Parse Scope.Outcome := do
  discard (outcome (program problems))
  finish

end Parse

/-- The report of a session that has ended. -/
def Session.report (s : Session) (names : Scope.Outcome) : Report where
  diagnostics := s.journal.diagnostics
  implied := names.implied
  unused := names.unused
  globals := names.globals
  functions := s.metrics.finished

/-- Lints a source under options and the caller's globals. -/
def lint (source : String) (options : Options) (globals : Option Predefined.Globals) : Report :=
  match Parse.run (Setting.Layers.ofOptions options).2 (.start source options globals) with
  | .ok names s => s.report names
  | .error _ s => s.report {}

end ScriptLint
