import ScriptLint.Grammar.Loop

/-!
# Statements
-/

namespace ScriptLint.Grammar

open Parse

/-! ## Expressions -/

/-- Checks an expression that is a statement: evaluating it for itself should make sense. -/
def checkExpressionStatement (e : Summary) : Parse Unit := do
  match e.form, e.parenthesized with
  | .construction, false => warnIf .nonew .newSideEffects e.line e.column
  | form, _ => if !form.hasEffect then warnUnless .expr .expressionStatement e.line e.column

/-- An expression as a statement. -/
def expressionStatement (inner : Nested) : Parse Unit := do
  checkExpressionStatement (← inner.wholeExpression)
  consumeSemicolon

/-! ## Decisions -/

/-- One `if` of a chain, with what follows its `else`. -/
def ifRound (inner : Nested) (_ : Unit) : Parse (Round Unit) := do
  advance
  modifyMetrics Metrics.addBranch
  condition inner
  body inner
  if !(← seesWord .elseWord) then return .done ()
  else
    advance
    if ← seesWord .ifWord then
      modifyMetrics Metrics.addStatement
      return .again ()
    else
      body inner
      return .done ()

/-- An `if` statement. A chain of `else if` stays at one level of nesting. -/
def ifStatement (inner : Nested) : Parse Unit := loop (ifRound inner) ()

/-- What follows the label of a case. -/
def caseBody (inner : Nested) : Parse Unit := do
  expect .colon
  discard (statementList inner .switchCase)

/-- One case of a `switch`. -/
def switchRound (inner : Nested) (_ : Unit) : Parse (Round Unit) := do
  if ← seesWord .caseWord then
    advance
    modifyMetrics Metrics.addBranch
    discard inner.wholeExpression
    caseBody inner
    return .again ()
  else if ← seesWord .defaultWord then
    advance
    caseBody inner
    return .again ()
  else return .done ()

/-- A `switch` statement. -/
def switchStatement (inner : Nested) : Parse Unit := do
  advance
  let openParen ← current
  expect .leftParen
  discard inner.wholeExpression
  expectClosing .rightParen openParen
  let opener ← current
  expect .leftBrace
  loop (switchRound inner) ()
  expectStatementClosing .rightBrace opener

/-! ## Exceptions -/

/-- What follows the word `catch`. -/
def catchClause (inner : Nested) : Parse Unit := do
  let opener ← current
  if opener.isPunctuator .leftParen then
    advance
    inner.binding .exception
    expectClosing .rightParen opener
  expectBlock inner

/-- The clause that catches, if there is one; returns whether there is. -/
def catchPart (inner : Nested) : Parse Bool := do
  if ← seesWord .catchWord then
    advance
    withFrame .catchClause (catchClause inner)
    flushScopes
    return true
  else return false

/-- The clause that always runs, if there is one; returns whether there is. -/
def finallyPart (inner : Nested) : Parse Bool := do
  if ← seesWord .finallyWord then
    advance
    expectBlock inner
    return true
  else return false

/-- A `try` statement; one of the two clauses must be there. -/
def tryStatement (inner : Nested) : Parse Unit := do
  advance
  expectBlock inner
  let caught ← catchPart inner
  let cleaned ← finallyPart inner
  if !(caught || cleaned) then failExpected "catch"

/-! ## Jumps and labels -/

/-- Whether a statement whose operand must stand on the same line ends before the token. -/
def endsRestricted (t : Token) : Bool :=
  t.newlineBefore || t.isEnd || t.isPunctuator .semicolon || t.isPunctuator .rightBrace

/-- A `return` statement. -/
def returnStatement (inner : Nested) : Parse Unit := do
  advance
  if !endsRestricted (← current) then
    let value ← inner.wholeExpression
    if value.form.isPlainAssignment then
      warnUnless .boss .returnAssignment value.line value.column
  consumeSemicolon

/-- A `throw` statement. -/
def throwStatement (inner : Nested) : Parse Unit := do
  advance
  discard inner.wholeExpression
  consumeSemicolon

/-- The label after `break` or `continue`, if there is one. -/
def jumpLabel : Parse Unit := do
  let s ← get
  if !endsRestricted s.token then
    match s.token.identifier? with
    | some label =>
      if !s.scopes.hasLabel label then warnHere (.notALabel label)
      advance
    | none => pure ()

/-- A `break` or `continue` statement. -/
def jumpStatement : Parse Unit := do
  advance
  jumpLabel
  consumeSemicolon

/-- A statement with a label. -/
def labeledStatement (inner : Nested) : Parse Unit := do
  let (label, _) ← expectIdentifier
  expect .colon
  withFrame .label do
    modifyScopes fun scopes _ => scopes.addLabel label
    discard inner.statement
  flushScopes

/-! ## Others -/

/-- A `with` statement. -/
def withStatement (inner : Nested) : Parse Unit := do
  let t ← current
  warnUnless .withstmt .withStatement t.line t.column
  advance
  let opener ← current
  expect .leftParen
  discard inner.wholeExpression
  expectStatementClosing .rightParen opener
  body inner

/-- A `debugger` statement. -/
def debuggerStatement : Parse Unit := do
  let t ← current
  warnUnless .debug .debuggerStatement t.line t.column
  advance
  consumeSemicolon

/-- A statement without content. -/
def emptyStatement : Parse Unit := do
  warnHere .unnecessarySemicolon
  advance

/-- A statement that starts with an identifier: a function after `async`, or an expression. -/
def identifierStatement (inner : Nested) (name : String) : Parse Unit := do
  if name == "async" then
    if ← peekIs fun next => next.isKeyword .functionWord && !next.newlineBefore then
      advance
      functionDeclaration inner
    else expressionStatement inner
  else expressionStatement inner

/-! ## Any statement -/

/-- A statement after which control goes on. -/
def plainStatement (inner : Nested) (t : Token) : Parse Unit :=
  match t.kind with
  | .punctuator .leftBrace => block inner
  | .punctuator .semicolon => emptyStatement
  | .identifier name => identifierStatement inner name
  | .keyword .varWord => variableStatement inner .var
  | .keyword .letWord => variableStatement inner .lexical
  | .keyword .constWord => variableStatement inner .constant
  | .keyword .functionWord => functionDeclaration inner
  | .keyword .classWord => classForm inner (heritage inner) true
  | .keyword .ifWord => ifStatement inner
  | .keyword .forWord => forStatement inner
  | .keyword .whileWord => whileStatement inner
  | .keyword .doWord => doStatement inner
  | .keyword .switchWord => switchStatement inner
  | .keyword .tryWord => tryStatement inner
  | .keyword .withWord => withStatement inner
  | .keyword .debuggerWord => debuggerStatement
  | _ => expressionStatement inner

/-- A statement without a label. -/
def unlabeledStatement (inner : Nested) (t : Token) : Parse Flow := do
  modifyMetrics Metrics.addStatement
  match t.kind with
  | .keyword .returnWord =>
    returnStatement inner
    return .jump .returns
  | .keyword .throwWord =>
    throwStatement inner
    return .jump .throws
  | .keyword .breakWord =>
    jumpStatement
    return .jump .breaks
  | .keyword .continueWord =>
    jumpStatement
    return .jump .continues
  | _ =>
    plainStatement inner t
    return .normal

/-- A statement. A label and the statement it labels count as one. -/
def statement (inner : Nested) : Parse Flow := do
  let t ← current
  if t.identifier?.isSome then
    if ← peekIs (·.isPunctuator .colon) then
      labeledStatement inner
      return .normal
    else unlabeledStatement inner t
  else unlabeledStatement inner t

/-! ## All levels -/

/-- The parsers of the grammar, from those for what is nested in it. -/
def forms (inner : Nested) : Nested where
  statement := statement inner
  expression := operators inner
  binding := bindingTarget inner
  construction := construction inner

/-- The parsers of a level, from those one level deeper. -/
def level (inner : Nested) : Nested := (forms inner).deeper

/-- The parsers whose recursion is unfolded the given number of times. Since no level lies below the
deepest one allowed, more levels than that make no difference. -/
def levels : (count : Nat) → Nested
  | 0 => .exhausted
  | count + 1 => level (levels count)

end ScriptLint.Grammar
