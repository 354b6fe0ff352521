import ScriptLint.Text.Ranges

/-!
# White space

The White_Space property, the line terminators of the language, and trimming by white space.
-/

namespace ScriptLint.Text

/-- White space beyond ASCII. -/
def blankRanges : List (Nat × Nat) := [
  (0x85, 0x85), (0xA0, 0xA0), (0x1680, 0x1680), (0x2000, 0x200A), (0x2028, 0x2029),
  (0x202F, 0x202F), (0x205F, 0x205F), (0x3000, 0x3000)]

/-- Whether the character has the White_Space property: tab to carriage return, the space, and the
table. The byte order mark and the zero width space are not white. -/
def isBlank (c : Char) : Bool :=
  if c.toNat < 0x80 then (9 ≤ c.toNat && c.toNat ≤ 13) || c.toNat == 32
  else inRanges c.toNat blankRanges

/-- Line feed, carriage return, line separator and paragraph separator end a line. -/
def isLineTerminator (c : Char) : Bool :=
  c == '\n' || c == '\r' || c == '\u2028' || c == '\u2029'

/-- The characters without white space at the front. -/
def trimLeft (cs : List Char) : List Char :=
  cs.dropWhile isBlank

/-- The characters without white space at either end. -/
def trim (cs : List Char) : List Char :=
  ((trimLeft cs).reverse.dropWhile isBlank).reverse

/-- The text without white space at either end. -/
def trimText (s : String) : String :=
  String.ofList (trim s.toList)

end ScriptLint.Text
