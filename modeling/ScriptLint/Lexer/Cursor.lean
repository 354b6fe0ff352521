import ScriptLint.Position
import ScriptLint.Text.Blank

/-!
# Cursors

A cursor is what is left of the source and the position of its first character. A carriage return
right before a line feed does not end the line; the line feed does.
-/

namespace ScriptLint

/-- The characters still to be read and where the first of them stands. -/
structure Cursor where
  rest : List Char
  position : Position := .start

namespace Cursor

/-- The position after reading `c`, given the character that follows it. -/
def step (p : Position) (c : Char) (following : Option Char) : Position :=
  if Text.isLineTerminator c && !(c == '\r' && following == some '\n') then
    ⟨p.line + 1, 1, p.offset + 1⟩
  else ⟨p.line, p.column + 1, p.offset + 1⟩

/-- Reads one character; at the end nothing happens. -/
def next (cursor : Cursor) : Cursor :=
  match cursor.rest with
  | [] => cursor
  | c :: rest => ⟨rest, step cursor.position c rest.head?⟩

/-- Reads `count` characters. -/
def advance (cursor : Cursor) : (count : Nat) → Cursor
  | 0 => cursor
  | count + 1 => cursor.next.advance count

/-- Characters read so far. -/
def offset (cursor : Cursor) : Nat := cursor.position.offset

/-- Reading on drops characters from the rest. -/
theorem rest_advance (cursor : Cursor) (count : Nat) :
    (cursor.advance count).rest = cursor.rest.drop count := by
  induction count generalizing cursor with
  | zero => rfl
  | succ count ih =>
    rw [advance, ih]
    cases h : cursor.rest with
    | nil => simp [next, h]
    | cons c rest => simp [next, h]

end Cursor

end ScriptLint
