import ScriptLint.Grammar.Function

/-!
# Array and object literals

Keys of objects and members of classes are written alike and share a parser.
-/

namespace ScriptLint.Grammar

open Parse

/-! ## Arrays -/

/-- One element of an array, up to the comma after it. -/
def arrayElement (inner : Nested) (_ : Unit) : Parse (Round Unit) := do
  if ← sees .rightBracket then return .done ()
  else if ← eat .comma then return .again ()
  else
    discard (eat .spread)
    discard inner.assignment
    if ← eat .comma then return .again () else return .done ()

/-- An array literal. -/
def arrayLiteral (inner : Nested) : Parse Summary := do
  let opener ← current
  advance
  withNoIn false (loop (arrayElement inner) ())
  expectClosing .rightBracket opener
  return .startingAt opener .array

/-! ## Keys -/

/-- Whether the token can begin a key. -/
def startsKey (t : Token) : Bool :=
  match t.kind with
  | .identifier _ | .keyword _ | .string _ | .number _ => true
  | .punctuator .leftBracket | .punctuator .times => true
  | _ => false

/-- Whether the token can stand before a key to modify it. -/
def isModifier (t : Token) : Bool :=
  match t.identifier? with
  | some name => name == "get" || name == "set" || name == "async"
  | none => false

/-- One modifier before a key. A word modifies only if a key follows on the same line. -/
def keyModifier (_ : Unit) : Parse (Round Unit) := do
  if ← eat .times then return .again ()
  else if !isModifier (← current) then return .done ()
  else if ← peekIs fun next => startsKey next && !next.newlineBefore then
    advance
    return .again ()
  else return .done ()

/-- A key with its modifiers; returns its name unless it is computed. -/
def propertyKey (inner : Nested) : Parse (Option String) := do
  loop keyModifier ()
  let t ← current
  match t.kind with
  | .identifier name =>
    advance
    return some name
  | .keyword word =>
    advance
    return some word.spelling
  | .string literal =>
    advance
    return some literal.value
  | .number _ =>
    advance
    return some t.raw
  | .punctuator .leftBracket =>
    advance
    discard inner.assignment
    expectClosing .rightBracket t
    return none
  | _ => failIdentifier

/-! ## Objects -/

/-- The value after a colon; a function there takes the name of the key. -/
def propertyValue (inner : Nested) (key : Option String) : Parse Unit := do
  if ← seesWord .functionWord then setHint key
  discard (clearingHint inner.assignment)

/-- One property of an object: a method, a key with a value, or a name that is key and value. -/
def objectProperty (inner : Nested) : Parse Unit := do
  let start ← current
  let key ← propertyKey inner
  let bare := (← get).previous.offset == start.offset
  if ← sees .leftParen then function inner .method key start.line start.column
  else if ← eat .colon then propertyValue inner key
  else match start.identifier?, bare with
    | some name, true =>
      reference name start.line start.column
      inner.defaultValue
    | _, _ => failExpected ":"

/-- One property of an object, up to the comma after it. -/
def objectElement (inner : Nested) (_ : Unit) : Parse (Round Unit) := do
  if ← sees .rightBrace then return .done ()
  else
    if ← eat .spread then discard inner.assignment else objectProperty inner
    if ← eat .comma then return .again () else return .done ()

/-- An object literal. -/
def objectLiteral (inner : Nested) : Parse Summary := do
  let opener ← current
  advance
  withNoIn false (loop (objectElement inner) ())
  expectClosing .rightBrace opener
  return .startingAt opener .object

/-! ## Classes -/

/-- One member of a class. -/
def classMember (inner : Nested) : Parse Unit := do
  let start ← current
  let key ← propertyKey inner
  if ← sees .leftParen then function inner .method key start.line start.column
  else
    inner.defaultValue
    consumeSemicolon

/-- One step through the body of a class. -/
def classElement (inner : Nested) (_ : Unit) : Parse (Round Unit) := do
  let t ← current
  if t.isPunctuator .rightBrace || t.isEnd then return .done ()
  else if ← eat .semicolon then return .again ()
  else
    if ← seesName "static" then
      if !(← peekIs (·.isPunctuator .leftParen)) then advance
    classMember inner
    return .again ()

/-- The name of a class. Only a declaration binds it, and needs it. -/
def className (declaration : Bool) : Parse Unit := do
  let t ← current
  match t.identifier? with
  | some name =>
    advance
    if declaration then declare name .lexical t.line t.column
  | none => if declaration then failIdentifier

/-- A class; `heritage` parses what it extends. -/
def classForm (inner : Nested) (heritage : Parse Unit) (declaration : Bool) : Parse Unit := do
  expectWord .classWord
  className declaration
  if ← seesWord .extendsWord then
    advance
    heritage
  let opener ← current
  expect .leftBrace
  loop (classElement inner) ()
  if declaration then expectStatementClosing .rightBrace opener
  else expectClosing .rightBrace opener

end ScriptLint.Grammar
