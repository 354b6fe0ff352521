import ScriptLint.Text.Blank
import ScriptLint.Text.Digit

/-!
# Escape sequences

Each reader looks at the characters after the backslash, says how many of them belong to the escape
and what they stand for. A malformed escape stands for nothing and ends before the first character
that does not fit.
-/

namespace ScriptLint.Lexer

/-- A character written by its code, and how many characters wrote it. -/
structure Decoded where
  char : Option Char
  length : Nat

/-- Exactly `count` hexadecimal digits. -/
def hexDigits : (count : Nat) → (code : Nat) → List Char → Decoded
  | 0, code, _ => ⟨Text.scalar? code, 0⟩
  | _ + 1, _, [] => ⟨none, 0⟩
  | count + 1, code, c :: rest =>
    match Text.hexValue? c with
    | none => ⟨none, 0⟩
    | some digit =>
      let decoded := hexDigits count (code * 16 + digit) rest
      ⟨decoded.char, decoded.length + 1⟩

/-- Hexadecimal digits up to a closing brace, at least one; `any` says whether one was read. A code
that would not fit 32 bits ends the escape before the digit that makes it too large. -/
def bracedDigits (code : Nat) (any : Bool) : List Char → Decoded
  | [] => ⟨none, 0⟩
  | c :: rest =>
    match Text.hexValue? c with
    | some digit =>
      if code * 16 < 4294967296 then
        let decoded := bracedDigits (code * 16 + digit) true rest
        ⟨decoded.char, decoded.length + 1⟩
      else ⟨none, 0⟩
    | none => if any && c == '\x7d' then ⟨Text.scalar? code, 1⟩ else ⟨none, 0⟩

/-- What follows the letter of a Unicode escape: four digits, or digits in braces. -/
def unicodeEscape : List Char → Decoded
  | '\x7b' :: rest =>
    let decoded := bracedDigits 0 false rest
    ⟨decoded.char, decoded.length + 1⟩
  | cs => hexDigits 4 0 cs

/-- Further octal digits as long as the code stays below 32 before them: the code and how many
digits were read. -/
def octalDigits (code : Nat) : List Char → Nat × Nat
  | [] => (code, 0)
  | c :: rest =>
    match Text.octalValue? c with
    | some digit =>
      if code < 32 then
        let (total, length) := octalDigits (code * 8 + digit) rest
        (total, length + 1)
      else (code, 0)
    | none => (code, 0)

/-- An escape in a string literal: how many characters after the backslash it takes, the text it
stands for, and what was unusual about it. -/
structure Escape where
  length : Nat
  text : List Char := []
  continued : Bool := false
  octal : Bool := false
  bad : Bool := false

namespace Escape

/-- An escape that decodes a character by its code. -/
def ofDecoded (decoded : Decoded) : Escape :=
  match decoded.char with
  | some c => { length := decoded.length + 1, text := [c] }
  | none => { length := decoded.length + 1, bad := true }

/-- Reads what follows a backslash in a string literal. -/
def read : List Char → Escape
  | [] => { length := 0 }
  | 'n' :: _ => { length := 1, text := ['\n'] }
  | 't' :: _ => { length := 1, text := ['\t'] }
  | 'r' :: _ => { length := 1, text := ['\r'] }
  | 'b' :: _ => { length := 1, text := ['\x08'] }
  | 'f' :: _ => { length := 1, text := ['\x0c'] }
  | 'v' :: _ => { length := 1, text := ['\x0b'] }
  | 'x' :: rest => ofDecoded (hexDigits 2 0 rest)
  | 'u' :: rest => ofDecoded (unicodeEscape rest)
  | '\r' :: '\n' :: _ => { length := 2, continued := true }
  | c :: rest =>
    if Text.isLineTerminator c then { length := 1, continued := true }
    else if c == '0' && !(rest.head?.any Char.isDigit) then { length := 1, text := ['\x00'] }
    else match Text.octalValue? c with
      | some digit =>
        let (code, length) := octalDigits digit rest
        { length := length + 1, text := (Text.scalar? code).toList, octal := true }
      | none => { length := 1, text := [c] }

end Escape

end ScriptLint.Lexer
