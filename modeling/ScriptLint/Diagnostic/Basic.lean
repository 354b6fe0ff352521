/-!
# Diagnostics

A diagnostic has a place, a stable code, a text and the phase of analysis that found it. Its
severity is the first letter of its code.
-/

namespace ScriptLint

/-- How serious a diagnostic is. -/
inductive Severity where
  | error
  | warning
  | info
deriving DecidableEq

namespace Severity

/-- The severity of a code: `E` for errors, `I` for remarks, anything else for warnings. -/
def ofCode (code : String) : Severity :=
  match code.toList with
  | 'E' :: _ => error
  | 'I' :: _ => info
  | _ => warning

/-- The name in reports. -/
def name : Severity → String
  | error => "error"
  | warning => "warning"
  | info => "info"

end Severity

/-- The phase of analysis that a diagnostic comes from. -/
inductive Phase where
  | lexical
  | syntactic
  | semantic
  | configuration
deriving DecidableEq

namespace Phase

/-- The name in reports. -/
def name : Phase → String
  | lexical => "lex"
  | syntactic => "syntax"
  | semantic => "semantic"
  | configuration => "configuration"

/-- Finds a phase by its name. -/
def ofName? (word : String) : Option Phase :=
  [lexical, syntactic, semantic, configuration].find? (·.name == word)

/-- Whether a finding of the phase makes the parser give up on its statement. -/
def abandonsStatement : Phase → Bool
  | syntactic => true
  | _ => false

end Phase

/-- One reported finding. -/
structure Diagnostic where
  line : Nat
  column : Nat
  code : String
  message : String
  phase : Phase
deriving DecidableEq

namespace Diagnostic

/-- The severity that the code implies. -/
def severity (d : Diagnostic) : Severity := .ofCode d.code

/-- The diagnostic in one line. -/
def render (d : Diagnostic) : String :=
  s!"line {d.line}, col {d.column}, {d.message} ({d.code})"

end Diagnostic

end ScriptLint
