import ScriptLint.Directive
import ScriptLint.Position
import ScriptLint.Token.Keyword
import ScriptLint.Token.Punctuator

/-!
# Tokens

A token keeps its exact text, where it starts, the column where it ends, and whether a line ended
since the previous significant token. Comments are tokens too; they are trivia, as directives are.
-/

namespace ScriptLint

/-- A string literal with its escapes decoded. -/
structure StringLiteral where
  value : String := ""
  quote : Char
  /-- A backslash at the end of a line continued the string. -/
  continued : Bool := false
  /-- A legacy octal escape occurred. -/
  octal : Bool := false

/-- A numeric literal; a malformed one has the value zero. -/
structure NumberLiteral where
  value : Float := 0.0
  /-- Written with a leading zero and octal digits only. -/
  legacyOctal : Bool := false

/-- Which piece of a template literal a token is: all of it, up to the first substitution, between
two substitutions, or after the last one. -/
inductive TemplatePart where
  | whole
  | head
  | middle
  | tail
deriving DecidableEq

/-- What a token is. -/
inductive TokenKind where
  | identifier (name : String)
  | keyword (word : Keyword)
  | punctuator (p : Punctuator)
  | string (literal : StringLiteral)
  | number (literal : NumberLiteral)
  | regexp (pattern flags : String)
  | template (part : TemplatePart) (cooked : String)
  | comment (body : String)
  | directive (d : Directive)
  | endOfInput

namespace TokenKind

/-- Comments and directives. -/
def isTrivia : TokenKind → Bool
  | comment _ | directive _ => true
  | _ => false

/-- Whether a slash after the token divides. -/
def endsValue : TokenKind → Bool
  | identifier _ | string _ | number _ | regexp _ _ => true
  | keyword word => word.isValue
  | punctuator .rightParen | punctuator .rightBracket | punctuator .rightBrace => true
  | template .whole _ | template .tail _ => true
  | _ => false

end TokenKind

/-- A token and its place in the source. -/
structure Token where
  kind : TokenKind
  raw : String
  start : Position
  /-- The column just past the last character, on the token's last line. -/
  endColumn : Nat
  /-- A line ended since the previous significant token. -/
  newlineBefore : Bool := false

namespace Token

/-- What stands for the current token before the first one is read. -/
def origin : Token where
  kind := .endOfInput
  raw := ""
  start := .start
  endColumn := 1

/-- Line of the first character. -/
def line (t : Token) : Nat := t.start.line

/-- Column of the first character. -/
def column (t : Token) : Nat := t.start.column

/-- Offset of the first character. -/
def offset (t : Token) : Nat := t.start.offset

/-- Whether the token is the punctuator. -/
def isPunctuator (t : Token) (p : Punctuator) : Bool :=
  match t.kind with
  | .punctuator q => q = p
  | _ => false

/-- Whether the token is the reserved word. -/
def isKeyword (t : Token) (word : Keyword) : Bool :=
  match t.kind with
  | .keyword other => other = word
  | _ => false

/-- Whether the input ends here. -/
def isEnd (t : Token) : Bool :=
  match t.kind with
  | .endOfInput => true
  | _ => false

/-- Whether the token is a comment or a directive. -/
def isTrivia (t : Token) : Bool := t.kind.isTrivia

/-- The name, if the token is an identifier. -/
def identifier? (t : Token) : Option String :=
  match t.kind with
  | .identifier name => some name
  | _ => none

/-- The name that the token is after a dot or as a key; reserved words are allowed there. -/
def propertyName? (t : Token) : Option String :=
  match t.kind with
  | .identifier name => some name
  | .keyword word => some word.spelling
  | _ => none

/-- How messages call the token. -/
def describe (t : Token) : String :=
  match t.kind with
  | .endOfInput => "(end)"
  | .identifier name => name
  | _ => t.raw

end Token

/-! ## Lexing errors -/

/-- What is wrong with a piece of source text. -/
inductive LexProblem where
  | unclosedString
  | unclosedTemplate
  | badEscape
  | badNumber (raw : String)
  | unclosedComment
  | unclosedRegexp
  | strayCharacter (c : Char)
deriving DecidableEq

namespace LexProblem

/-- The text shown to the user. -/
def message : LexProblem → String
  | unclosedString => "Unclosed string."
  | unclosedTemplate => "Unclosed template literal."
  | badEscape => "Bad or unnecessary escaping."
  | badNumber raw => s!"Bad number '{raw}'."
  | unclosedComment => "Unclosed comment."
  | unclosedRegexp => "Unclosed regular expression."
  | strayCharacter c => s!"Unexpected '{c}'."

/-- The stable code. -/
def code : LexProblem → String
  | unclosedString | unclosedTemplate => "E029"
  | badEscape => "W044"
  | badNumber _ => "W045"
  | unclosedComment => "E017"
  | unclosedRegexp => "E015"
  | strayCharacter _ => "E024"

end LexProblem

/-- A lexing error and the token to continue with, if there is one. -/
structure LexError where
  problem : LexProblem
  place : Position
  recovered : Option Token := none

namespace LexError

/-- The error with its place. -/
def message (e : LexError) : String :=
  s!"line {e.place.line}, col {e.place.column}: {e.problem.message}"

end LexError

end ScriptLint
