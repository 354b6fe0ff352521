import ScriptLint.Grammar.Literal
import ScriptLint.Grammar.Member
import ScriptLint.Text.Lowercase

/-!
# Operands

Names, literals, functions, classes, `new` expressions and parentheses.
-/

namespace ScriptLint.Grammar

open Parse

/-! ## Names -/

/-- Whether the token modifies the name before it: an assignment, or an update on the same line. -/
def modifiesName (t : Token) : Bool :=
  match t.kind with
  | .punctuator p => p.isAssignment || (p.isUpdate && !t.newlineBefore)
  | _ => false

/-- A name that is read or, before a plain assignment, written. -/
def nameUse (name : String) (t : Token) : Parse Summary := do
  advance
  let s ← get
  if modifiesName s.token && s.context.strict && (name == "eval" || name == "arguments") then
    warn .strictViolation t
  if s.token.isPunctuator .assign then assign name t.line t.column
  else reference name t.line t.column
  return .startingAt t (.name name)

/-- An arrow function that starts at a token. -/
def arrowFunction (inner : Nested) (t : Token) : Parse Summary := do
  function inner .arrow none t.line t.column
  return .startingAt t .function

/-- A function as a value. A name of its own takes precedence over the name it is assigned to. -/
def functionExpression (inner : Nested) : Parse Summary := do
  let t ← current
  expectWord .functionWord
  discard (eat .times)
  let hint := (← get).nameHint
  setHint none
  match (← current).identifier? with
  | some name =>
    advance
    function inner .named (some name) t.line t.column
  | none => function inner .anonymous hint t.line t.column
  return .startingAt t .function

/-- What the word `async` starts at a token, if it starts something: a function, an arrow function,
or a call of a function of that name. -/
def asyncForm (inner : Nested) (t : Token) : Parse (Option Summary) := do
  if ← peekIs (·.newlineBefore) then return none
  else if ← peekIs (·.isKeyword .functionWord) then
    advance
    return some (← functionExpression inner)
  else if ← peekIs (·.identifier?.isSome) then
    if ← peekArrowAfterNext then
      advance
      return some (← arrowFunction inner t)
    else return none
  else if ← peekIs (·.isPunctuator .leftParen) then
    advance
    if ← startsArrow then return some (← arrowFunction inner t)
    else
      reference "async" t.line t.column
      return some (.startingAt t (.name "async"))
  else return none

/-- An operand that starts with an identifier. -/
def identifierForm (inner : Nested) (name : String) (t : Token) : Parse Summary := do
  if ← peekIs (·.isPunctuator .arrow) then arrowFunction inner t
  else if name == "async" then
    match ← asyncForm inner t with
    | some e => return e
    | none => nameUse name t
  else nameUse name t

/-! ## The word `this` -/

/-- Whether the name of a function declaration starts in lower case. -/
def isPlainFunction (c : Context) : Bool :=
  c.isDeclaration && (c.name.bind (·.toList.head?)).any Text.isLowercase

/-- Checks the use of `this` in strict code: outside a method or a constructor it has no value. -/
def checkThis (t : Token) : Parse Unit := do
  let s ← get
  if s.context.strict && s.thisContext?.all isPlainFunction then
    warnUnless .validthis .possibleStrictViolation t.line t.column

/-! ## Parentheses -/

/-- An expression in parentheses. -/
def parenthesized (inner : Nested) : Parse Summary := do
  let opener ← current
  advance
  let e ← withNoIn false inner.wholeExpression
  expectClosing .rightParen opener
  return { e with parenthesized := true }

/-! ## Operands -/

/-- An operand that is neither a class nor what only its parser's caller can handle. -/
def simpleOperand (inner : Nested) : Parse Summary := do
  let t ← current
  match t.kind with
  | .identifier name => identifierForm inner name t
  | .keyword .thisWord =>
    checkThis t
    advance
    return .startingAt t .this
  | .keyword .superWord =>
    advance
    return .startingAt t .this
  | .keyword .functionWord => functionExpression inner
  | .keyword .newWord => inner.construction
  | .keyword .trueWord =>
    advance
    return .startingAt t (.boolean true)
  | .keyword .falseWord =>
    advance
    return .startingAt t (.boolean false)
  | .keyword .nullWord =>
    advance
    return .startingAt t .null
  | .keyword .importWord =>
    advance
    return .startingAt t .other
  | .number literal =>
    advance
    return .startingAt t (.number literal.value)
  | .string literal =>
    advance
    return .startingAt t (.text literal.value)
  | .regexp _ _ =>
    advance
    return .startingAt t .regexp
  | .template .head _ =>
    template inner
    return .startingAt t .template
  | .template .whole _ =>
    advance
    return .startingAt t .template
  | .punctuator .leftParen =>
    if ← startsArrow then arrowFunction inner t else parenthesized inner
  | .punctuator .leftBracket => arrayLiteral inner
  | .punctuator .leftBrace => objectLiteral inner
  | _ => failIdentifier

/-- What a class extends, given the parser of operands. -/
def heritageOf (inner : Nested) (operand : Parse Summary) : Parse Unit := do
  let base ← operand
  discard (chain inner true base)

/-- An operand, given the parser of the operands in it that lie at the same level of nesting: a
class may extend a class that extends a class and so on. -/
def operandForm (inner : Nested) (operand : Parse Summary) : Parse Summary := do
  let t ← current
  if t.isKeyword .classWord then
    classForm inner (heritageOf inner operand) false
    return .startingAt t .function
  else simpleOperand inner

/-- An operand. -/
def operand (inner : Nested) : Parse Summary := recursive (operandForm inner)

/-- What a class extends. -/
def heritage (inner : Nested) : Parse Unit := heritageOf inner (operand inner)

/-! ## Constructions -/

/-- Built-ins that are not meant to be constructed. -/
def notConstructors : List String := ["Boolean", "JSON", "Math", "Number", "String"]

/-- Checks what is constructed; `new` and the constructor stand at the tokens given. -/
def checkConstructor (name : String) (newToken callee : Token) : Parse Unit := do
  if name == "Function" then
    warnUnless .evil .functionConstructor newToken.line newToken.column
  else if notConstructors.contains name then warn (.notAConstructor name) callee
  else
    let known := (← get).scopes.predefined.contains name
    if name.toList.head?.any (!·.isUpper) && !known then
      warnIf .newcap .lowercaseConstructor callee.line callee.column

/-- A `new` expression. -/
def construction (inner : Nested) : Parse Summary := do
  let newToken ← current
  advance
  if ← eat .dot then
    discard expectIdentifier
    return .startingAt newToken (.member (some "target"))
  else
    let calleeToken ← current
    if calleeToken.isKeyword .functionWord then
      warnUnless .supernew .weirdNew newToken.line newToken.column
    let callee ← chain inner false (← operand inner)
    match callee.form with
    | .name name => checkConstructor name newToken calleeToken
    | _ => pure ()
    if ← sees .leftParen then discard (arguments inner)
    return .startingAt newToken .construction

end ScriptLint.Grammar
