import ScriptLint.Lexer.Escape
import ScriptLint.Token.Basic

/-!
# Strings, templates and regular expressions

Each scanner walks the characters after the opening delimiter once. Where an escape stands for
several characters, the walk skips those that the escape has accounted for.
-/

namespace ScriptLint.Lexer

/-! ## String literals -/

/-- What is known of a string literal while it is scanned. -/
structure StringScan where
  literal : StringLiteral
  /-- Characters read, the opening quote included. -/
  length : Nat := 1
  /-- Where the first malformed escape begins, after its backslash. -/
  badEscape : Option Nat := none
  closed : Bool := false

namespace StringScan

/-- Takes in an ordinary character. -/
def push (s : StringScan) (c : Char) : StringScan :=
  { s with
    literal := { s.literal with value := s.literal.value.push c }
    length := s.length + 1 }

/-- Takes in a backslash and the escape after it. -/
def pushEscape (s : StringScan) (e : Escape) : StringScan :=
  { s with
    literal := { s.literal with
      value := e.text.foldl String.push s.literal.value
      continued := s.literal.continued || e.continued
      octal := s.literal.octal || e.octal }
    length := s.length + 1 + e.length
    badEscape := s.badEscape.or (if e.bad then some (s.length + 1) else none) }

/-- Takes in the closing quote. -/
def close (s : StringScan) : StringScan :=
  { s with length := s.length + 1, closed := true }

end StringScan

/-- Walks the body of a string up to its quote. The string ends unclosed where the line or the input
ends; `skip` characters belong to an escape that was read already. -/
def stringBody (quote : Char) : (skip : Nat) → List Char → StringScan → StringScan
  | _, [], s => s
  | skip + 1, _ :: rest, s => stringBody quote skip rest s
  | 0, c :: rest, s =>
    if Text.isLineTerminator c then s
    else if c == quote then s.close
    else if c == '\x5c' then
      let e := Escape.read rest
      stringBody quote e.length rest (s.pushEscape e)
    else stringBody quote 0 rest (s.push c)

/-! ## Template literals -/

/-- How a piece of a template ends: at the closing mark, at a substitution, or not at all. -/
inductive TemplateEnd where
  | closed
  | substitution
  | missing
deriving DecidableEq

/-- A scanned piece of a template. -/
structure TemplateScan where
  cooked : String := ""
  /-- Characters read, the opening delimiter included. -/
  length : Nat := 1
  /-- A line ended inside the piece, other than after a backslash. -/
  newline : Bool := false
  ending : TemplateEnd := .missing

/-- Walks template text up to the closing mark or the next substitution. -/
def templateBody : List Char → TemplateScan → TemplateScan
  | [], s => s
  | '\x60' :: _, s => { s with length := s.length + 1, ending := .closed }
  | '$' :: '\x7b' :: _, s => { s with length := s.length + 2, ending := .substitution }
  | '\x5c' :: c :: rest, s =>
    templateBody rest { s with cooked := s.cooked.push c, length := s.length + 2 }
  | c :: rest, s =>
    templateBody rest { s with
      cooked := s.cooked.push c
      length := s.length + 1
      newline := s.newline || Text.isLineTerminator c }

/-! ## Regular expressions -/

/-- A scanned regular expression body. -/
structure RegexpScan where
  pattern : String := ""
  /-- Characters read, both slashes included. -/
  length : Nat := 1
  closed : Bool := false

/-- Walks a regular expression up to the slash outside a class. A backslash keeps the character
after it from having a meaning, but not the end of the line. -/
def regexpBody (inClass : Bool) : List Char → RegexpScan → RegexpScan
  | [], s => s
  | '\x5c' :: c :: rest, s =>
    if Text.isLineTerminator c then
      { s with pattern := s.pattern.push '\x5c', length := s.length + 1 }
    else regexpBody inClass rest
      { s with pattern := (s.pattern.push '\x5c').push c, length := s.length + 2 }
  | c :: rest, s =>
    if Text.isLineTerminator c then s
    else if c == '/' && !inClass then { s with length := s.length + 1, closed := true }
    else
      regexpBody (if c == '[' then true else if c == ']' then false else inClass) rest
        { s with pattern := s.pattern.push c, length := s.length + 1 }

/-! ## Comments -/

/-- A scanned block comment. -/
structure CommentScan where
  /-- Characters of the body. -/
  length : Nat := 0
  newline : Bool := false
  closed : Bool := false

/-- Walks a block comment up to its closing mark. -/
def commentBody : List Char → CommentScan → CommentScan
  | [], s => s
  | '*' :: '/' :: _, s => { s with closed := true }
  | c :: rest, s =>
    commentBody rest { s with
      length := s.length + 1
      newline := s.newline || Text.isLineTerminator c }

/-- The token that a comment with the given body is. -/
def commentKind (body : List Char) : TokenKind :=
  let text := String.ofList body
  match Directive.ofComment? text with
  | some d => .directive d
  | none => .comment text

end ScriptLint.Lexer
