import ScriptLint.Grammar.Primary

/-!
# Operators

An expression is an operand with the operators before it, followed by operators that bind strongly
enough. The operands on the right are expressions one level deeper, limited by the operator's power.
-/

namespace ScriptLint.Grammar

open Parse

/-! ## Checks -/

/-- Reports an operator on bits, if that is asked for. -/
def checkBitwise (op : Punctuator) (t : Token) : Parse Unit := do
  if op.isBitwise then warnIf .bitwise (.unexpectedUse op.spelling) t.line t.column

/-- Checks an increment or a decrement. -/
def checkUpdate (target : Summary) (op : Punctuator) (t : Token) : Parse Unit := do
  if target.form.isSimpleTarget then
    warnIf .plusplus (.unexpectedUse op.spelling) t.line t.column
  else failAt .badAssignment t

/-- The comparison without conversions that should replace a loose one. -/
def strictComparison? : Punctuator → Option String
  | .equal => some "==="
  | .notEqual => some "!=="
  | _ => none

/-- What is wrong with a loose comparison under the settings in force. -/
def looseFinding? (layers : Setting.Layers) (left right : Form) (op : Punctuator)
    (strictOp : String) : Option Finding :=
  if layers.enabled .eqeqeq then
    if layers.enabled .eqnull && (left.isNull || right.isNull) then none
    else some (.expectedInstead strictOp op.spelling)
  else
    match left.looseLiteral?.or right.looseLiteral? with
    | some value =>
      if layers.enabled .eqnull && value == "null" then none
      else some (.useStrictCompare strictOp value)
    | none => none

/-- What is wrong with a comparison under the settings in force. -/
def comparisonFinding? (layers : Setting.Layers) (left right : Form) (op : Punctuator) :
    Option Finding :=
  if left.isNaN || right.isNaN then some .nanComparison
  else (strictComparison? op).bind (looseFinding? layers left right op)

/-- Checks a comparison whose operator stands at the token. -/
def checkComparison (left right : Summary) (op : Punctuator) (t : Token) : Parse Unit := do
  match comparisonFinding? (← get).layers left.form right.form op with
  | some finding => warn finding t
  | none => pure ()

/-- Whether the text is an address that runs a script. -/
def isJavascriptUrl (text : String) : Bool :=
  "javascript:".toList.isPrefixOf ((Text.trimLeft text.toList).map Char.toLower)

/-! ## Operators before an operand -/

/-- Whether the token can begin the operand of `await` or `yield`, which stands on the same line. -/
def startsOperand (t : Token) : Bool :=
  !t.newlineBefore && match t.kind with
    | .identifier _ | .string _ | .number _ | .regexp _ _ => true
    | .template .whole _ | .template .head _ => true
    | .keyword word => [Keyword.thisWord, .functionWord, .newWord, .trueWord, .falseWord, .nullWord,
        .typeofWord, .voidWord, .deleteWord, .classWord, .superWord].contains word
    | .punctuator p => [Punctuator.leftParen, .leftBracket, .leftBrace, .not, .bitNot, .minus,
        .plus, .increment, .decrement, .times].contains p
    | _ => false

/-- Whether the token continues the name before it, so that the name is not a whole operand. -/
def continuesName (t : Token) : Bool :=
  match t.kind with
  | .punctuator p =>
    [Punctuator.dot, .optionalChain, .leftBracket, .leftParen, .arrow].contains p
  | .template _ _ => true
  | _ => false

/-- The operand of `typeof`. A name that stands alone may be undefined. -/
def typeofOperand (inner : Nested) : Parse Unit := do
  let t ← current
  match t.identifier? with
  | none => discard (inner.expression Power.unary)
  | some name =>
    if ← peekIs continuesName then discard (inner.expression Power.unary)
    else
      advance
      modifyScopes fun scopes _ => scopes.referenceGuarded name t.line

/-- A sign, a negation or `void` at a token. -/
def signed (inner : Nested) (t : Token) : Parse Summary := do
  advance
  let e ← inner.expression Power.unary
  return .startingAt t (.unary e.form.isCall)

/-- An increment or a decrement before its operand. -/
def updated (inner : Nested) (op : Punctuator) (t : Token) : Parse Summary := do
  advance
  let e ← inner.expression Power.unary
  checkUpdate e op t
  return .startingAt t .update

/-- A `delete` expression. -/
def deletion (inner : Nested) (t : Token) : Parse Summary := do
  advance
  let e ← inner.expression Power.unary
  match e.form with
  | .name _ => warnAt .deleteVariable e.line e.column
  | _ => pure ()
  return .startingAt t .deletion

/-- The word `await` or `yield`, with its operand if one follows. -/
def awaiting (inner : Nested) (power : Nat) (t : Token) : Parse Summary := do
  let hasOperand ← peekIs startsOperand
  advance
  if hasOperand then
    discard (eat .times)
    discard (inner.expression power)
  return .startingAt t .awaiting

/-- An operand with the operators before it and what follows it without an operator. -/
def unary (inner : Nested) : Parse Summary := do
  let t ← current
  match t.kind with
  | .punctuator .not | .punctuator .plus | .punctuator .minus | .keyword .voidWord => signed inner t
  | .punctuator .bitNot =>
    checkBitwise .bitNot t
    signed inner t
  | .punctuator .increment => updated inner .increment t
  | .punctuator .decrement => updated inner .decrement t
  | .keyword .typeofWord =>
    advance
    typeofOperand inner
    return .startingAt t (.unary false)
  | .keyword .deleteWord => deletion inner t
  | .identifier "await" => awaiting inner Power.unary t
  | .identifier "yield" => awaiting inner Power.assignment t
  | _ => chain inner true (← operand inner)

/-! ## Operators after an operand -/

/-- What follows the question mark of a conditional. -/
def conditionalRest (inner : Nested) : Parse Unit := do
  advance
  modifyMetrics Metrics.addBranch
  discard (withNoIn false inner.assignment)
  expect .colon
  discard inner.assignment

/-- The right-hand side of an assignment; a function there takes the name of the target. -/
def assignmentRest (inner : Nested) (left : Summary) (op : Punctuator) (t : Token) :
    Parse Unit := do
  if !left.isAssignable op then failAt .badAssignment t
  checkBitwise op t
  advance
  if op = .assign && (← seesWord .functionWord) then setHint left.form.hint?
  discard (clearingHint inner.assignment)

/-- The sum of two summaries. Strings are joined, since their sum is a string again. -/
def sum (left right : Summary) : Parse Summary := do
  match left.form, right.form with
  | .text a, .text b =>
    if isJavascriptUrl (a ++ b) then
      warnUnless .scripturl .javascriptUrl left.line left.column
    return left.within (.text (a ++ b))
  | _, _ => return left.within (.binary .plus)

/-- Consumes an operator and the operand on its right. -/
def rightOperand (inner : Nested) (power : Nat) : Parse Summary := do
  advance
  inner.expression power

/-- An operator that stands at the token, applied to what is on its left. -/
def operatorStep (inner : Nested) (left : Summary) (op : Punctuator) (power : Nat) (t : Token) :
    Parse Summary := do
  match op with
  | .comma =>
    let right ← rightOperand inner power
    return left.within (.sequence (left.form.hasEffect && right.form.hasEffect))
  | .question =>
    conditionalRest inner
    return left.within .conditional
  | .increment | .decrement =>
    checkUpdate left op t
    advance
    return left.within .update
  | .and | .or =>
    advance
    modifyMetrics Metrics.addBranch
    discard (inner.expression power)
    return left.within .logical
  | .coalesce =>
    discard (rightOperand inner power)
    return left.within .logical
  | .equal | .notEqual | .identical | .notIdentical | .less | .greater | .atMost | .atLeast =>
    let right ← rightOperand inner power
    checkComparison left right op t
    return left.within (.binary op)
  | .plus => sum left (← rightOperand inner power)
  | _ =>
    if op.isAssignment then
      assignmentRest inner left op t
      return left.within (.assignment op)
    else
      checkBitwise op t
      discard (rightOperand inner power)
      return left.within (.binary op)

/-- One round of operators. An increment or a decrement on a new line belongs to what follows. -/
def operatorRound (inner : Nested) (least : Nat) (left : Summary) : Parse (Round Summary) := do
  let s ← get
  match Power.ofToken? s.token s.noIn with
  | none => return .done left
  | some (leftPower, rightPower) =>
    if leftPower < least then return .done left
    else match s.token.kind with
      | .punctuator op =>
        if op.isUpdate && s.token.newlineBefore then return .done left
        else return .again (← operatorStep inner left op rightPower s.token)
      | _ =>
        discard (rightOperand inner rightPower)
        return .again (left.within .other)

/-- An expression whose operators bind at least as strongly as `least`. -/
def operators (inner : Nested) (least : Nat) : Parse Summary := do
  loop (operatorRound inner least) (← unary inner)

end ScriptLint.Grammar
