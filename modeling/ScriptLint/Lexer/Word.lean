import ScriptLint.Lexer.Escape
import ScriptLint.Text.Numeric
import ScriptLint.Token.Basic

/-!
# Identifiers and reserved words

A name starts with a letter of any script, an underscore or a dollar sign, and may be written with
Unicode escapes. A word with an escape in it is never a reserved word.
-/

namespace ScriptLint.Lexer

/-- Whether a name can start with the character. -/
def isNameStart (c : Char) : Bool :=
  c == '_' || c == '$' || Text.isAlphabetic c

/-- Whether a name can go on with the character. -/
def isNamePart (c : Char) : Bool :=
  isNameStart c || Text.isAlphanumeric c || c == '\u200c' || c == '\u200d'

/-- What is known of a word while it is scanned. -/
structure WordScan where
  name : String := ""
  escaped : Bool := false
  length : Nat := 0
  /-- Where the backslash of a malformed escape stands; the word ends there. -/
  badEscape : Option Nat := none

/-- What follows a backslash in a name: only Unicode escapes are allowed. -/
def nameEscape : List Char → Decoded
  | 'u' :: rest =>
    let decoded := unicodeEscape rest
    ⟨decoded.char, decoded.length + 1⟩
  | _ => ⟨none, 0⟩

/-- Walks a word; `skip` characters belong to an escape that was read already. -/
def wordBody : (skip : Nat) → List Char → WordScan → WordScan
  | _, [], s => s
  | skip + 1, _ :: rest, s => wordBody skip rest s
  | 0, c :: rest, s =>
    if c == '\x5c' then
      let decoded := nameEscape rest
      let length := s.length + 1 + decoded.length
      match decoded.char with
      | some letter =>
        wordBody decoded.length rest
          { s with name := s.name.push letter, escaped := true, length }
      | none => { s with length, badEscape := some s.length }
    else if isNamePart c then
      wordBody 0 rest { s with name := s.name.push c, length := s.length + 1 }
    else s

/-- The token that a well-formed word is. -/
def WordScan.kind (s : WordScan) : TokenKind :=
  match Keyword.ofWord? s.name with
  | some word => if s.escaped then .identifier s.name else .keyword word
  | none => .identifier s.name

end ScriptLint.Lexer
