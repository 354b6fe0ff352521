import ScriptLint.Grammar.Pattern
import ScriptLint.Grammar.StatementList

/-!
# Functions

Opening a function opens a frame, a context, counters and, with its body, an overlay of settings.
They are closed again before the closing brace is consumed, whatever became of the body, so that a
directive after the function is not applied inside it.
-/

namespace ScriptLint.Grammar

open Parse

/-- How a function is written: as a statement, as a value without or with a name of its own, with an
arrow, or as a method. -/
inductive FunctionKind where
  | declaration
  | anonymous
  | named
  | arrow
  | method
deriving DecidableEq

/-! ## Directive prologues -/

/-- Whether the token is the string `use strict`, written without escapes. -/
def isUseStrict (t : Token) : Bool :=
  match t.kind with
  | .string literal =>
    literal.value == "use strict" && (t.raw.toList.drop 1).dropLast == "use strict".toList
  | _ => false

/-- Whether the token is a string. -/
def isString (t : Token) : Bool :=
  match t.kind with
  | .string _ => true
  | _ => false

/-- Whether a statement that consists of a string ends before the token. -/
def endsPrologueString (next : Token) : Bool :=
  next.newlineBefore || next.isEnd || next.isPunctuator .semicolon || next.isPunctuator .rightBrace

/-- Marks the innermost function as strict. -/
def makeStrict : Parse Unit :=
  modify fun s => { s with contexts := s.contexts.modifyTop ({ · with strict := true }) }

/-- Switches strict mode on at the current token. -/
def enterStrict : Parse Unit := do
  let s ← get
  if s.context.strict then warnHere (.unnecessaryDirective "use strict")
  else
    makeStrict
    if s.inGlobalCode && !s.layers.enabled .globalstrict && !s.layers.enabled .node then
      warnHere .globalUseStrict

/-- A string at the token that is a statement of its own. -/
def prologueStatement (t : Token) : Parse Unit := do
  modifyMetrics Metrics.addStatement
  if isUseStrict t then enterStrict
  advance
  consumeSemicolon

/-- One statement of a prologue. -/
def prologueRound (_ : Unit) : Parse (Round Unit) := do
  let t ← current
  if !isString t then return .done ()
  else if !((← peek 0).all endsPrologueString) then return .done ()
  else
    prologueStatement t
    return .again ()

/-- The statements at the start of a program or a function body that consist of a string. -/
def prologue : Parse Unit := loop prologueRound ()

/-! ## Parameters -/

/-- One parameter, up to the comma after it. -/
def parameter (inner : Nested) (count : Nat) : Parse (Round Nat) := do
  if ← sees .rightParen then return .done count
  else
    discard (eat .spread)
    inner.binding .param
    inner.defaultValue
    if ← eat .comma then return .again (count + 1) else return .done (count + 1)

/-- Parameters in parentheses; returns how many there are. -/
def parameterList (inner : Nested) : Parse Nat := do
  let opener ← current
  expect .leftParen
  let count ← loop (parameter inner) 0
  expectClosing .rightParen opener
  return count

/-- The parameters of a function; an arrow function may have a single one without parentheses. -/
def parameters (inner : Nested) (kind : FunctionKind) : Parse Nat := do
  if kind = .arrow && !(← sees .leftParen) then
    let (name, t) ← expectIdentifier
    declare name .param t.line t.column
    return 1
  else parameterList inner

/-! ## Bodies -/

/-- Opens the overlay of a function body. -/
def openOverlay : Parse Unit :=
  modify fun s => { s with
    layers := s.layers.push
    contexts := s.contexts.modifyTop ({ · with overlayOpen := true }) }

/-- The body of a function after its opening brace. -/
def functionBody (inner : Nested) (kind : FunctionKind) : Parse Unit := do
  prologue
  let s ← get
  if kind ≠ .arrow && s.layers.enabled .strict && !s.context.strict then
    warnHere .missingUseStrict
  discard (statementList inner .brace)

/-- A body in braces, up to the closing one. -/
def bracedBody (inner : Nested) (kind : FunctionKind) : Parse Unit := do
  if ← sees .leftBrace then
    -- a directive right after the brace belongs to this function
    openOverlay
    advance
    withNoIn false (functionBody inner kind)
  else failExpected "\x7b"

/-- What follows the parameters, up to the closing brace; returns whether there are braces. -/
def functionTail (inner : Nested) (kind : FunctionKind) : Parse Bool := do
  if kind = .arrow then expect .arrow
  if kind = .arrow && !(← sees .leftBrace) then
    openOverlay
    discard (withNoIn false inner.assignment)
    return false
  else
    bracedBody inner kind
    return true

/-- Parameters and body, up to the closing brace; returns whether the body has braces. -/
def functionParts (inner : Nested) (kind : FunctionKind) (name : Option String)
    (line column : Nat) : Parse Bool := do
  match kind, name with
  | .named, some name => declare name .functionName line column
  | _, _ => pure ()
  let count ← parameters inner kind
  modifyMetrics (·.setParameters count)
  functionTail inner kind

/-! ## Opening and closing -/

/-- What the limits in force say about the counts of a function. -/
def metricFindings (layers : Setting.Layers) (m : FunctionMetrics) : List Finding :=
  let exceeded (s : Setting) (count : Nat) (f : Finding) : List Finding :=
    if (layers.limit? s).any (· < count) then [f] else []
  exceeded .maxstatements m.statements (.tooManyStatements m.statements)
    ++ exceeded .maxparams m.parameters (.tooManyParameters m.parameters)
    ++ exceeded .maxcomplexity m.complexity (.tooComplex m.complexity)

/-- The session inside a function: its frame, its counters and its context are open. -/
def withFunction (s : Session) (kind : FunctionKind) (name : Option String)
    (line column : Nat) : Session :=
  { s with
    metrics := s.metrics.openFunction (name.getD "(anonymous)") line column
    scopes := s.scopes.enter .function
    contexts := s.contexts.push {
      strict := s.context.strict
      name
      isDeclaration := kind = .declaration
      isArrow := kind = .arrow } }

/-- The session after a function: what it opened is closed, its overlay included. -/
def withoutFunction (s : Session) : Session :=
  { s with
    scopes := s.scopes.exit s.layers
    layers := if s.context.overlayOpen then s.layers.pop else s.layers
    metrics := s.metrics.closeFunction
    contexts := s.contexts.pop }

/-- Closes a function and reports what its counts and its names give rise to. The limits are those
of the function itself. -/
def closeFunction (line column : Nat) : Parse Unit := do
  let s ← get
  let findings := metricFindings s.layers s.metrics.current
  set (withoutFunction s)
  findings.forM fun f => warnAt f line column
  flushScopes

/-- Runs a parser inside a function. The function is closed whatever became of it; what the parser
gave up on counts for more than what the closing reports. -/
def insideFunction {α : Type} (kind : FunctionKind) (name : Option String) (line column : Nat)
    (parts : Parse α) : Parse α := do
  modify fun s => withFunction s kind name line column
  let result ← outcome parts
  let closed ← outcome (closeFunction line column)
  let a ← resume result
  resume closed
  return a

/-- Consumes the closing brace of a function. A slash after a declaration starts a regular
expression. -/
def closingBrace (kind : FunctionKind) : Parse Unit := do
  if kind = .declaration && (← sees .rightBrace) then advanceToStatement
  else expect .rightBrace

/-- Parses the parameters and the body of a function that was declared at the place given. The
current token is the opening parenthesis, or the only parameter of an arrow function. -/
def function (inner : Nested) (kind : FunctionKind) (name : Option String) (line column : Nat) :
    Parse Unit := do
  if (← get).context.loopDepth > 0 then warnUnless .loopfunc .loopFunction line column
  let braced ← insideFunction kind name line column (functionParts inner kind name line column)
  if braced then closingBrace kind

end ScriptLint.Grammar
