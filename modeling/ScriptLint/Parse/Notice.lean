import ScriptLint.Parse.Session
import ScriptLint.Text.Shape

/-!
# Giving notice of findings

Every diagnostic goes through `emit`. With `passfail` on, the first one that is kept stops the run.
-/

namespace ScriptLint.Parse

/-- Records a diagnostic; if it is kept and `passfail` is on, the run stops here. -/
def emit (d : Diagnostic) : Parse Unit := fun s =>
  let recorded := { s with journal := s.journal.record d }
  if s.journal.keeps d && s.layers.enabled .passfail then
    let last := (Finding.stopping s.percent).diagnostic d.line d.column
    .error .halt { recorded with journal := recorded.journal.halt last }
  else .ok () recorded

/-- Stops the run because the program is nested too deeply. -/
def tooDeep {α : Type} : Parse α := fun s =>
  let last := (Finding.unrecoverable s.percent).diagnostic s.token.line s.token.column
  .error .halt { s with journal := s.journal.halt last }

/-- Records a finding at a place. -/
def warnAt (f : Finding) (line column : Nat) : Parse Unit :=
  emit (f.diagnostic line column)

/-- Records a finding at a token. -/
def warn (f : Finding) (t : Token) : Parse Unit :=
  warnAt f t.line t.column

/-- Records a finding at the current token. -/
def warnHere (f : Finding) : Parse Unit := do
  warn f (← get).token

/-- Records an error at a token and gives up on the statement. -/
def failAt {α : Type} (f : Finding) (t : Token) : Parse α := do
  warn f t
  throw .badSyntax

/-- Records an error at the current token and gives up on the statement. -/
def failHere {α : Type} (f : Finding) : Parse α := do
  failAt f (← get).token

/-- The current token is not the one that was expected. -/
def failExpected {α : Type} (expected : String) : Parse α := do
  failHere (.expectedToken expected (← get).token.describe)

/-- The current token is not the identifier that was expected. -/
def failIdentifier {α : Type} : Parse α := do
  failHere (.expectedIdentifier (← get).token.describe)

/-- Whether a setting is on at the current place. -/
def enabled (s : Setting) : Parse Bool := do
  return (← get).layers.enabled s

/-- Records a finding at a place, unless a setting tolerates it. -/
def warnUnless (s : Setting) (f : Finding) (line column : Nat) : Parse Unit := do
  if !(← enabled s) then warnAt f line column

/-- Records a finding at a place, if a setting asks for it. -/
def warnIf (s : Setting) (f : Finding) (line column : Nat) : Parse Unit := do
  if ← enabled s then warnAt f line column

/-- Records a rejected configuration entry. -/
def reportProblem (p : Setting.Problem) (line column : Nat) : Parse Unit :=
  emit { line, column, code := p.code, message := p.message, phase := .configuration }

/-- Records rejected configuration entries in order. -/
def reportProblems (ps : List Setting.Problem) (line column : Nat) : Parse Unit :=
  ps.forM fun p => reportProblem p line column

/-- Records a lexing error. -/
def reportLexError (e : LexError) : Parse Unit :=
  emit {
    line := e.place.line
    column := e.place.column
    code := e.problem.code
    message := e.problem.message
    phase := .lexical }

/-! ## Names -/

/-- Changes the scopes. -/
def modifyScopes (f : Scope.Tracker → Setting.Layers → Scope.Tracker) : Parse Unit :=
  modify fun s => { s with scopes := f s.scopes s.layers }

/-- Changes the metrics. -/
def modifyMetrics (f : Metrics → Metrics) : Parse Unit :=
  modify fun s => { s with metrics := f s.metrics }

/-- Records what the scopes found since the last time. -/
def flushScopes : Parse Unit := do
  let findings := (← get).scopes.findings
  modifyScopes fun t _ => { t with findings := [] }
  findings.forM fun f => warnAt f.finding f.line f.column

/-- Checks the spelling of a declared name. -/
def checkCamelCase (name : String) (line column : Nat) : Parse Unit := do
  if Text.breaksCamelCase name then warnIf .camelcase (.notCamelCase name) line column

/-- Declares a name. -/
def declare (name : String) (kind : Scope.BindingKind) (line column : Nat) : Parse Unit := do
  if kind ≠ .exception && kind ≠ .functionName then checkCamelCase name line column
  modifyScopes fun t layers => t.declare name kind line column layers
  flushScopes

/-- Reads a name. -/
def reference (name : String) (line column : Nat) : Parse Unit := do
  modifyScopes fun t layers => t.reference name line column layers
  flushScopes

/-- Writes to a name. -/
def assign (name : String) (line column : Nat) : Parse Unit := do
  modifyScopes fun t layers => t.assign name line column layers
  flushScopes

end ScriptLint.Parse
