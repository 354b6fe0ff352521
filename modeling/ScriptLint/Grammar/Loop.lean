import ScriptLint.Grammar.Declaration

/-!
# Loops

In the head of a `for` loop the word `in` is no operator. A declaration of block scope in the head
opens a frame around the whole loop.
-/

namespace ScriptLint.Grammar

open Parse

/-- A `while` statement. -/
def whileStatement (inner : Nested) : Parse Unit := do
  advance
  modifyMetrics Metrics.addBranch
  condition inner
  loopBody inner

/-- A `do` statement. A semicolon may be inserted after it anywhere. -/
def doStatement (inner : Nested) : Parse Unit := do
  advance
  modifyMetrics Metrics.addBranch
  loopBody inner
  expectWord .whileWord
  condition inner
  finishStatement true

/-! ## For loops -/

/-- What comes first in the head of a `for` loop: declarations, an expression or nothing. -/
def forStart (inner : Nested) : Parse Unit := do
  let t ← current
  match declaredKind? t with
  | some kind => declarations inner kind
  | none => if !t.isPunctuator .semicolon then discard inner.wholeExpression

/-- Whether the body that starts at the current token begins with an `if`. -/
def bodyStartsWithIf : Parse Bool := do
  let t ← current
  if t.isKeyword .ifWord then return true
  else if t.isPunctuator .leftBrace then peekIs (·.isKeyword .ifWord)
  else return false

/-- Checks that the body of a loop over the keys of an object, whose `for` is at the token, leaves
out unwanted keys. -/
def checkFiltered (t : Token) : Parse Unit := do
  if ← enabled .forin then
    if !(← bodyStartsWithIf) then warn .unfilteredForIn t

/-- The rest of a loop over the keys or the values of something. -/
def forEachRest (inner : Nested) (t opener : Token) : Parse Unit := do
  let overKeys ← seesWord .inWord
  advance
  discard inner.wholeExpression
  expectStatementClosing .rightParen opener
  if overKeys then checkFiltered t
  loopBody inner

/-- The rest of a loop with a condition and a step, either of which may be missing. -/
def forConditionRest (inner : Nested) (opener : Token) : Parse Unit := do
  expect .semicolon
  if !(← sees .semicolon) then checkCondition (← inner.wholeExpression)
  expect .semicolon
  if !(← sees .rightParen) then discard inner.wholeExpression
  expectStatementClosing .rightParen opener
  loopBody inner

/-- A `for` loop from behind its opening parenthesis. -/
def forRest (inner : Nested) (t opener : Token) : Parse Unit := do
  withNoIn true (forStart inner)
  let next ← current
  if next.isKeyword .inWord || next.identifier? == some "of" then forEachRest inner t opener
  else forConditionRest inner opener

/-- A `for` loop. -/
def forStatement (inner : Nested) : Parse Unit := do
  let t ← current
  advance
  modifyMetrics Metrics.addBranch
  let opener ← current
  expect .leftParen
  if (declaredKind? (← current)).any Scope.BindingKind.isLexical then
    withFrame .block (forRest inner t opener)
  else forRest inner t opener
  flushScopes

end ScriptLint.Grammar
