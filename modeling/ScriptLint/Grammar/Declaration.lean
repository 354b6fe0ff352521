import ScriptLint.Grammar.Block

/-!
# Declarations
-/

namespace ScriptLint.Grammar

open Parse

/-- The kind of binding that the token's word declares. -/
def declaredKind? (t : Token) : Option Scope.BindingKind :=
  match t.kind with
  | .keyword .varWord => some .var
  | .keyword .letWord => some .lexical
  | .keyword .constWord => some .constant
  | _ => none

/-- Whether the summary is the name `undefined`. -/
def isUndefined (e : Summary) : Bool :=
  match e.form with
  | .name "undefined" => true
  | _ => false

/-- The initial value of what is declared at the token, after the equals sign. A function there
takes the name declared. -/
def initialValue (inner : Nested) (kind : Scope.BindingKind) (target : Token) : Parse Unit := do
  advance
  if ← seesWord .functionWord then setHint target.identifier?
  let value ← clearingHint inner.assignment
  match target.identifier? with
  | some name => if isUndefined value && kind ≠ .constant then warn (.initUndefined name) target
  | none => pure ()

/-- One declaration of a list, up to the comma after it. -/
def declaration (inner : Nested) (kind : Scope.BindingKind) (_ : Unit) : Parse (Round Unit) := do
  let target ← current
  inner.binding kind
  if ← sees .assign then initialValue inner kind target
  if ← eat .comma then return .again () else return .done ()

/-- Declarations after their word, divided by commas. -/
def declarations (inner : Nested) (kind : Scope.BindingKind) : Parse Unit := do
  advance
  loop (declaration inner kind) ()

/-- A statement that declares variables or constants. -/
def variableStatement (inner : Nested) (kind : Scope.BindingKind) : Parse Unit := do
  declarations inner kind
  consumeSemicolon

/-- A function declaration. -/
def functionDeclaration (inner : Nested) : Parse Unit := do
  let t ← current
  expectWord .functionWord
  discard (eat .times)
  let (name, place) ← expectIdentifier
  declare name .function place.line place.column
  function inner .declaration (some name) t.line t.column

end ScriptLint.Grammar
