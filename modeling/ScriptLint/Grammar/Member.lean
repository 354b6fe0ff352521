import ScriptLint.Grammar.Nested

/-!
# Properties, arguments and calls

What can follow an operand without an operator: property accesses, subscripts, arguments and
template literals.
-/

namespace ScriptLint.Grammar

open Parse

/-! ## Checks -/

/-- Checks the use of a property of an expression. -/
def checkProperty (object : Summary) (key : String) (place : Token) : Parse Unit := do
  if key == "__proto__" || key == "__iterator__" then
    warnUnless .proto (.deprecated key) place.line place.column
  match object.form with
  | .name "arguments" =>
    if key == "callee" || key == "caller" then
      warnIf .noarg (.avoidArguments key) place.line place.column
  | _ => pure ()

/-- Checks a subscript that is a string. -/
def checkSubscript (key : String) (subscript : Summary) : Parse Unit := do
  if Text.isIdentifierName key && (Keyword.ofWord? key).isNone then
    warnUnless .sub (.dotNotation key) subscript.line subscript.column

/-- Checks a string where a function is expected. -/
def checkImpliedEval (first : Option Summary) : Parse Unit := do
  match first with
  | some argument =>
    match argument.form with
    | .text _ => warnUnless .evil .impliedEval argument.line argument.column
    | _ => pure ()
  | none => pure ()

/-- Constructors that may be called without `new`. -/
def callableConstructors : List String :=
  ["Array", "Boolean", "Date", "Error", "Number", "Object", "String", "Symbol"]

/-- Whether a call of the name lacks `new`. -/
def lacksNew (name : String) : Bool :=
  Text.looksLikeConstructor name && !callableConstructors.contains name

/-- Checks a call of a name. -/
def checkNamedCall (name : String) (callee : Summary) (first : Option Summary) : Parse Unit := do
  if name == "eval" then warnUnless .evil .evalHarmful callee.line callee.column
  else if name == "setTimeout" || name == "setInterval" then checkImpliedEval first
  else if name == "Math" || name == "JSON" then
    warnAt (.notAFunction name) callee.line callee.column
  else if lacksNew name then warnIf .newcap .missingNew callee.line callee.column

/-- Checks a call. -/
def checkCall (callee : Summary) (first : Option Summary) : Parse Unit :=
  match callee.form with
  | .name name => checkNamedCall name callee first
  | .member (some "setTimeout") | .member (some "setInterval") => checkImpliedEval first
  | _ => pure ()

/-! ## Arguments and templates -/

/-- One argument, up to the comma after it. -/
def argument (inner : Nested) (first : Option Summary) : Parse (Round (Option Summary)) := do
  if ← sees .rightParen then return .done first
  else
    discard (eat .spread)
    let value ← inner.assignment
    let first := first.or (some value)
    if ← eat .comma then return .again first else return .done first

/-- Arguments in parentheses; returns the first of them. -/
def arguments (inner : Nested) : Parse (Option Summary) := do
  let opener ← current
  advance
  let first ← withNoIn false (loop (argument inner) none)
  expectClosing .rightParen opener
  return first

/-- One substitution of a template and the piece after it. -/
def substitution (inner : Nested) (_ : Unit) : Parse (Round Unit) := do
  discard (withNoIn false inner.wholeExpression)
  match (← current).kind with
  | .template .middle _ =>
    advance
    return .again ()
  | .template .tail _ =>
    advance
    return .done ()
  | _ => failExpected "\x7d"

/-- A template with substitutions. -/
def template (inner : Nested) : Parse Unit := do
  advance
  loop (substitution inner) ()

/-! ## Chains -/

/-- A property after a dot; after the dot of an optional access, a bracket may come instead. -/
def dottedProperty (left : Summary) (optional : Bool) : Parse Summary := do
  advance
  let property ← current
  if optional && (property.isPunctuator .leftParen || property.isPunctuator .leftBracket) then
    return left
  else match property.propertyName? with
    | some key =>
      advance
      checkProperty left key property
      return left.within (.member (some key))
    | none => failIdentifier

/-- A subscript in brackets. -/
def subscript (inner : Nested) (left : Summary) : Parse Summary := do
  let opener ← current
  advance
  let key ← withNoIn false inner.wholeExpression
  expectClosing .rightBracket opener
  match key.form with
  | .text name =>
    checkSubscript name key
    checkProperty left name opener
    return left.within (.member (some name))
  | _ => return left.within (.member none)

/-- One link of a chain. The later pieces of a template end an enclosing substitution. -/
def chainLink (inner : Nested) (allowCall : Bool) (left : Summary) : Parse (Round Summary) := do
  match (← current).kind with
  | .punctuator .dot => return .again (← dottedProperty left false)
  | .punctuator .optionalChain => return .again (← dottedProperty left true)
  | .punctuator .leftBracket => return .again (← subscript inner left)
  | .punctuator .leftParen =>
    if allowCall then
      let first ← arguments inner
      checkCall left first
      return .again (left.within .call)
    else return .done left
  | .template .head _ =>
    template inner
    return .again (left.within .call)
  | .template .whole _ =>
    advance
    return .again (left.within .call)
  | _ => return .done left

/-- What follows an operand: properties, subscripts, templates and, if allowed, calls. -/
def chain (inner : Nested) (allowCall : Bool) (left : Summary) : Parse Summary :=
  loop (chainLink inner allowCall) left

end ScriptLint.Grammar
