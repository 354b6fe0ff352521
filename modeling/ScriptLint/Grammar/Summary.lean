import ScriptLint.Token.Basic

/-!
# What expressions turn out to be

No syntax tree is built. A parsed expression leaves a summary behind, which the operator or the
statement around it looks at.
-/

namespace ScriptLint

/-- The outermost form of an expression. -/
inductive Form where
  | name (word : String)
  | number (value : Float)
  | text (value : String)
  | boolean (value : Bool)
  | null
  | regexp
  | template
  | this
  | array
  | object
  | function
  /-- A property; its name if the program text fixes it. -/
  | member (key : Option String)
  | call
  | construction
  | unary (ofCall : Bool)
  | deletion
  | awaiting
  | update
  | binary (operator : Punctuator)
  | logical
  | conditional
  | assignment (operator : Punctuator)
  /-- Expressions joined by commas; whether each of them does something. -/
  | sequence (effects : Bool)
  | other

namespace Form

/-- Whether evaluating the expression for itself makes sense. -/
def hasEffect : Form → Bool
  | assignment _ | call | construction | deletion | update | awaiting => true
  | unary ofCall => ofCall
  | sequence effects => effects
  | _ => false

/-- Whether the expression is a call. -/
def isCall : Form → Bool
  | call => true
  | _ => false

/-- Whether the expression is the literal `null`. -/
def isNull : Form → Bool
  | null => true
  | _ => false

/-- Whether the expression is a plain assignment. -/
def isPlainAssignment : Form → Bool
  | assignment .assign => true
  | _ => false

/-- Whether the expression can be incremented. -/
def isSimpleTarget : Form → Bool
  | name _ | member _ => true
  | _ => false

/-- Whether the expression names the number that differs from itself. -/
def isNaN : Form → Bool
  | name word => word == "NaN"
  | member (some key) => key == "NaN"
  | _ => false

/-- The text of a value that a loose comparison converts in a surprising way. -/
def looseLiteral? : Form → Option String
  | null => some "null"
  | number value => if value == 0.0 then some "0" else none
  | text value => if value.isEmpty then some "" else none
  | boolean value => some (if value then "true" else "false")
  | name word => if word == "undefined" then some word else none
  | _ => none

/-- The name that a function assigned to the expression gets. -/
def hint? : Form → Option String
  | name word => some word
  | member key => key
  | _ => none

end Form

/-- A parsed expression: its form, where it starts, and whether it stands in parentheses. -/
structure Summary where
  form : Form
  line : Nat
  column : Nat
  parenthesized : Bool := false

namespace Summary

/-- An expression that starts at a token. -/
def startingAt (t : Token) (form : Form) : Summary :=
  { form, line := t.line, column := t.column }

/-- A larger expression that starts where this one does. -/
def within (e : Summary) (form : Form) : Summary :=
  { form, line := e.line, column := e.column }

/-- Whether the expression can be assigned to with the operator. A literal array or object is a
pattern for plain assignments, unless it stands in parentheses. -/
def isAssignable (e : Summary) (operator : Punctuator) : Bool :=
  match e.form with
  | .name _ | .member _ => true
  | .array | .object => operator = .assign && !e.parenthesized
  | _ => false

end Summary

/-! ## Binding powers

How strongly operators bind, loosest first. -/

namespace Power

/-- The comma. -/
def comma : Nat := 1

/-- Assignments. -/
def assignment : Nat := 20

/-- The conditional. -/
def conditional : Nat := 30

/-- Operators before or after a single operand. -/
def unary : Nat := 150

/-- The powers of a punctuator towards its left and its right operand. -/
def ofPunctuator? : Punctuator → Option (Nat × Nat)
  | .comma => some (comma, comma + 1)
  | .question => some (conditional, conditional)
  | .or | .coalesce => some (40, 41)
  | .and => some (50, 51)
  | .bitOr => some (60, 61)
  | .bitXor => some (70, 71)
  | .bitAnd => some (80, 81)
  | .equal | .notEqual | .identical | .notIdentical => some (90, 91)
  | .less | .greater | .atMost | .atLeast => some (100, 101)
  | .shiftLeft | .shiftRight | .shiftRightZero => some (110, 111)
  | .plus | .minus => some (120, 121)
  | .times | .divide | .remainder => some (130, 131)
  | .power => some (140, 140)
  | .increment | .decrement => some (unary, unary)
  | p => if p.isAssignment then some (assignment, assignment) else none

/-- The powers of a token that can follow an operand. -/
def ofToken? (t : Token) (noIn : Bool) : Option (Nat × Nat) :=
  match t.kind with
  | .punctuator p => ofPunctuator? p
  | .keyword .inWord => if noIn then none else some (100, 101)
  | .keyword .instanceofWord => some (100, 101)
  | _ => none

end Power

/-! ## How a statement ends -/

/-- The statements after which control does not go on. -/
inductive Jump where
  | returns
  | throws
  | breaks
  | continues
deriving DecidableEq

/-- The word that starts the statement. -/
def Jump.word : Jump → String
  | returns => "return"
  | throws => "throw"
  | breaks => "break"
  | continues => "continue"

/-- How control leaves a statement. -/
inductive Flow where
  | normal
  | jump (j : Jump)
deriving DecidableEq

end ScriptLint
