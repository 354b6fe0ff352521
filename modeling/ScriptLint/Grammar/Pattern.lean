import ScriptLint.Grammar.Nested

/-!
# Names and patterns in declarations

A declaration binds a name, or takes an array or an object apart with a pattern.
-/

namespace ScriptLint.Grammar

open Parse

/-- One element of an array pattern, up to the comma after it. -/
def arrayPatternElement (inner : Nested) (kind : Scope.BindingKind) (_ : Unit) :
    Parse (Round Unit) := do
  if ← sees .rightBracket then return .done ()
  else if ← eat .comma then return .again ()
  else
    discard (eat .spread)
    inner.binding kind
    inner.defaultValue
    if ← eat .comma then return .again () else return .done ()

/-- An array pattern. -/
def arrayPattern (inner : Nested) (kind : Scope.BindingKind) : Parse Unit := do
  let opener ← current
  advance
  loop (arrayPatternElement inner kind) ()
  expectClosing .rightBracket opener

/-- The key of a property in an object pattern. -/
def patternKey (inner : Nested) : Parse Unit := do
  let key ← current
  match key.kind with
  | .identifier _ | .keyword _ | .string _ | .number _ => advance
  | .punctuator .leftBracket =>
    advance
    discard inner.assignment
    expectClosing .rightBracket key
  | _ => failIdentifier

/-- One property of an object pattern: a key with a pattern, or a name that is key and binding. -/
def patternProperty (inner : Nested) (kind : Scope.BindingKind) : Parse Unit := do
  let key ← current
  patternKey inner
  if ← eat .colon then inner.binding kind
  else match key.identifier? with
    | some name => declare name kind key.line key.column
    | none => failExpected ":"

/-- One element of an object pattern, up to the comma after it. -/
def objectPatternElement (inner : Nested) (kind : Scope.BindingKind) (_ : Unit) :
    Parse (Round Unit) := do
  if ← sees .rightBrace then return .done ()
  else
    if ← eat .spread then inner.binding kind else patternProperty inner kind
    inner.defaultValue
    if ← eat .comma then return .again () else return .done ()

/-- An object pattern. -/
def objectPattern (inner : Nested) (kind : Scope.BindingKind) : Parse Unit := do
  let opener ← current
  advance
  loop (objectPatternElement inner kind) ()
  expectClosing .rightBrace opener

/-- A name or a pattern to be declared. -/
def bindingTarget (inner : Nested) (kind : Scope.BindingKind) : Parse Unit := do
  let t ← current
  match t.kind with
  | .identifier name =>
    advance
    declare name kind t.line t.column
  | .punctuator .leftBracket => arrayPattern inner kind
  | .punctuator .leftBrace => objectPattern inner kind
  | _ => failIdentifier

end ScriptLint.Grammar
