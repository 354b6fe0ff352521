import ScriptLint.Grammar.Expression

/-!
# Blocks, bodies and conditions

The parts that several statements share.
-/

namespace ScriptLint.Grammar

open Parse

/-- Runs a parser in a new frame, which is left whatever its outcome. -/
def withFrame {α : Type} (kind : Scope.FrameKind) (p : Parse α) : Parse α := do
  modifyScopes fun scopes _ => scopes.enter kind
  p.ensuring fun s => { s with scopes := s.scopes.exit s.layers }

/-- The depth of the first blocks beyond the limit, added in 32 bits: the largest limit is followed
by zero. -/
def depthBeyond (limit : Nat) : Nat := (UInt32.ofNat limit + 1).toNat

/-- Enters a block that opens at the token and reports the first one beyond the limit. -/
def enterBlock (opener : Token) : Parse Unit := do
  modifyMetrics Metrics.enterBlock
  let s ← get
  let depth := s.metrics.depth
  if (s.layers.limit? .maxdepth).any (depth == depthBeyond ·) then
    warn (.nestedTooDeeply depth) opener

/-- Runs a parser inside a block that opens at the token, in a frame of its own. -/
def insideBlock {α : Type} (opener : Token) (p : Parse α) : Parse α := do
  enterBlock opener
  (withFrame .block p).ensuring fun s => { s with metrics := s.metrics.exitBlock }

/-- A block in braces. -/
def block (inner : Nested) : Parse Unit := do
  let opener ← current
  advance
  let count ← insideBlock opener (statementList inner .brace)
  flushScopes
  if count = 0 then warnIf .noempty .emptyBlock opener.line opener.column
  expectStatementClosing .rightBrace opener

/-- A block where nothing else is allowed. -/
def expectBlock (inner : Nested) : Parse Unit := do
  if ← sees .leftBrace then block inner else failExpected "\x7b"

/-- The body of a statement: a block, or a statement without braces. -/
def body (inner : Nested) : Parse Unit := do
  let t ← current
  if t.isPunctuator .leftBrace then block inner
  else
    warnIf .curly (.expectedInstead "\x7b" t.describe) t.line t.column
    discard inner.statement

/-- The session with the loops around the current place counted anew. -/
def withLoops (f : Nat → Nat) (s : Session) : Session :=
  { s with contexts := s.contexts.modifyTop fun c => { c with loopDepth := f c.loopDepth } }

/-- Runs a parser inside a loop. -/
def insideLoop {α : Type} (p : Parse α) : Parse α := do
  modify (withLoops (· + 1))
  p.ensuring (withLoops (· - 1))

/-- The body of a loop. -/
def loopBody (inner : Nested) : Parse Unit := insideLoop (body inner)

/-- Checks a condition: a plain assignment is likely a comparison misspelled. -/
def checkCondition (condition : Summary) : Parse Unit := do
  if condition.form.isPlainAssignment then
    warnUnless .boss .assignInCondition condition.line condition.column

/-- A condition in parentheses. -/
def condition (inner : Nested) : Parse Unit := do
  let opener ← current
  expect .leftParen
  checkCondition (← inner.wholeExpression)
  expectStatementClosing .rightParen opener

end ScriptLint.Grammar
