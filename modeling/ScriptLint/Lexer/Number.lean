import ScriptLint.Lexer.Word

/-!
# Numeric literals

Decimal, hexadecimal, octal and binary literals with underscores between digits, legacy octals, and
the suffix of big integers. A literal is malformed when digits are missing where some are needed, or
when a name follows it without a break.
-/

namespace ScriptLint.Lexer

/-- A run of digits and underscores: the digits without the underscores, the length of the run, and
what follows it. -/
structure DigitRun where
  digits : List Char
  length : Nat
  rest : List Char

/-- The longest run of accepted digits and underscores. -/
def digitRun (accept : Char → Bool) (cs : List Char) : DigitRun :=
  let inRun (c : Char) := accept c || c == '_'
  let run := cs.takeWhile inRun
  ⟨run.filter (· != '_'), run.length, cs.dropWhile inRun⟩

/-- The number that decimal digits write. -/
def decimalNat (digits : List Char) : Nat :=
  digits.foldl (fun sum c => sum * 10 + (c.toNat - '0'.toNat)) 0

/-- The double nearest to the digits times a power of ten. Magnitudes far outside the range of
doubles are decided without computing the power: too large is infinite, too small is zero. -/
def decimalValue (digits : List Char) (exponent : Int) : Float :=
  let significant := digits.dropWhile (· == '0')
  let magnitude : Int := significant.length + exponent
  if significant.isEmpty || magnitude < -400 then 0.0
  else if magnitude > 400 then Float.ofScientific 1 false 400
  else Float.ofScientific (decimalNat significant) (exponent < 0) exponent.natAbs

/-- The double that digits in a radix write, rounded after every digit. -/
def radixValue (radix : Nat) (digits : List Char) : Float :=
  (digits.filterMap Text.hexValue?).foldl
    (fun sum digit => sum * Float.ofNat radix + Float.ofNat digit) 0.0

/-- A scanned numeric literal. -/
structure NumberScan where
  literal : NumberLiteral
  length : Nat
  malformed : Bool := false
  /-- What follows the literal. -/
  rest : List Char

/-- The radix that a leading zero and a letter announce. -/
def radix? : List Char → Option Nat
  | '0' :: c :: _ =>
    if c == 'x' || c == 'X' then some 16
    else if c == 'o' || c == 'O' then some 8
    else if c == 'b' || c == 'B' then some 2
    else none
  | _ => none

/-- Whether the character is a digit in the radix. -/
def isRadixDigit (radix : Nat) (c : Char) : Bool :=
  (Text.hexValue? c).any (· < radix)

/-- A literal with a radix letter. -/
def radixLiteral (radix : Nat) (cs : List Char) : NumberScan :=
  let run := digitRun (isRadixDigit radix) (cs.drop 2)
  { literal := { value := radixValue radix run.digits }
    length := run.length + 2
    malformed := run.digits.isEmpty
    rest := run.rest }

/-- A literal with a leading zero: octal if it has octal digits only, decimal otherwise. -/
def leadingZeroLiteral (cs : List Char) : NumberScan :=
  let run := digitRun Char.isDigit cs
  let octal := run.digits.all (isRadixDigit 8)
  { literal :=
      if octal then { value := radixValue 8 run.digits, legacyOctal := true }
      else { value := decimalValue run.digits 0 }
    length := run.length
    rest := run.rest }

/-- The exponent of a decimal literal. -/
structure Exponent where
  value : Int := 0
  length : Nat := 0
  missing : Bool := false
  rest : List Char

/-- Reads the exponent, if there is one. -/
def readExponent : List Char → Exponent
  | [] => { rest := [] }
  | c :: rest =>
    if c == 'e' || c == 'E' then
      let negative := rest.head? == some '-'
      let signed := negative || rest.head? == some '+'
      let run := digitRun Char.isDigit (if signed then rest.drop 1 else rest)
      let size : Int := decimalNat run.digits
      { value := if negative then -size else size
        length := 1 + (if signed then 1 else 0) + run.length
        missing := run.digits.isEmpty
        rest := run.rest }
    else { rest := c :: rest }

/-- Reads the fraction, if there is one; its length counts the point. -/
def readFraction : List Char → DigitRun
  | '.' :: rest =>
    let run := digitRun Char.isDigit rest
    { run with length := run.length + 1 }
  | rest => ⟨[], 0, rest⟩

/-- A decimal literal: digits, an optional fraction and an optional exponent. -/
def decimalLiteral (cs : List Char) : NumberScan :=
  let whole := digitRun Char.isDigit cs
  let fraction := readFraction whole.rest
  let exponent := readExponent fraction.rest
  { literal := {
      value := decimalValue (whole.digits ++ fraction.digits)
        (exponent.value - fraction.digits.length) }
    length := whole.length + fraction.length + exponent.length
    malformed := exponent.missing
    rest := exponent.rest }

/-- The literal before its suffix is looked at. -/
def bareLiteral (cs : List Char) : NumberScan :=
  match radix? cs with
  | some radix => radixLiteral radix cs
  | none =>
    if cs.head? == some '0' && (cs.drop 1).head?.any Char.isDigit then leadingZeroLiteral cs
    else decimalLiteral cs

/-- Takes in the suffix of a big integer, and a name that wrongly follows. -/
def NumberScan.finish (s : NumberScan) : NumberScan :=
  let suffix := s.rest.head? == some 'n' && !s.literal.legacyOctal
  let rest := if suffix then s.rest.drop 1 else s.rest
  let length := if suffix then s.length + 1 else s.length
  if rest.head?.any isNameStart then
    { s with
      length := length + (rest.takeWhile isNamePart).length
      malformed := true
      rest := rest.dropWhile isNamePart }
  else { s with length, rest }

/-- Scans the numeric literal at the front; a malformed one has the value zero. -/
def scanNumber (cs : List Char) : NumberScan :=
  let s := (bareLiteral cs).finish
  if s.malformed then { s with literal := { s.literal with value := 0.0 } } else s

end ScriptLint.Lexer
