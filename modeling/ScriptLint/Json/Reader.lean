import ScriptLint.Json.Value
import ScriptLint.Text.Digit

/-!
# Reading JSON

The reader accepts exactly the texts of the format: no comments, no trailing commas, no leading
zeros, no bare control characters and no lone surrogates.
-/

namespace ScriptLint.Json

/-- The four characters that may stand between tokens. -/
def isSpace (c : Char) : Bool :=
  c == ' ' || c == '\t' || c == '\n' || c == '\r'

/-- The characters without leading space. -/
def skipSpace (cs : List Char) : List Char := cs.dropWhile isSpace

/-! ## Strings -/

/-- The code unit that four hexadecimal digits write. -/
def codeUnit? : List Char → Option Nat
  | [a, b, c, d] =>
    [a, b, c, d].foldlM (fun code digit => (Text.hexValue? digit).map (code * 16 + ·)) 0
  | _ => none

/-- The character that an escape after `\u` stands for and how many characters wrote it: one code
unit, or a pair of surrogates. -/
def unicode? (cs : List Char) : Option (Char × Nat) :=
  match codeUnit? (cs.take 4) with
  | none => none
  | some high =>
    if 0xD800 ≤ high ∧ high ≤ 0xDBFF then
      match cs.drop 4 with
      | '\x5c' :: 'u' :: more =>
        match codeUnit? (more.take 4) with
        | some low =>
          if 0xDC00 ≤ low ∧ low ≤ 0xDFFF then
            some (Char.ofNat (0x10000 + (high - 0xD800) * 0x400 + (low - 0xDC00)), 10)
          else none
        | none => none
      | _ => none
    else (Text.scalar? high).map (·, 4)

/-- The character that an escape other than `\u` stands for. -/
def simpleEscape? (c : Char) : Option Char :=
  if c == '\x22' || c == '\x5c' || c == '/' then some c
  else if c == 'b' then some '\x08'
  else if c == 'f' then some '\x0c'
  else if c == 'n' then some '\n'
  else if c == 'r' then some '\r'
  else if c == 't' then some '\t'
  else none

/-- Reads a string after its opening quote; `skip` characters belong to an escape that was read
already. -/
def readString : (skip : Nat) → List Char → String → Option (String × List Char)
  | _, [], _ => none
  | skip + 1, _ :: rest, text => readString skip rest text
  | 0, c :: rest, text =>
    if c == '\x22' then some (text, rest)
    else if c == '\x5c' then
      match rest with
      | 'u' :: more =>
        match unicode? more with
        | some (decoded, length) => readString (length + 1) rest (text.push decoded)
        | none => none
      | letter :: _ =>
        match simpleEscape? letter with
        | some decoded => readString 1 rest (text.push decoded)
        | none => none
      | [] => none
    else if c.toNat < 0x20 then none
    else readString 0 rest (text.push c)

/-! ## Numbers -/

/-- Splits off the digits at the front. -/
def digits (cs : List Char) : List Char × List Char :=
  (cs.takeWhile Char.isDigit, cs.dropWhile Char.isDigit)

/-- The fraction at the front, if there is one; a dot without digits is refused. -/
def readFraction (cs : List Char) : Option (List Char × List Char) :=
  match cs with
  | '.' :: rest =>
    let (run, after) := digits rest
    if run.isEmpty then none else some ('.' :: run, after)
  | _ => some ([], cs)

/-- The exponent at the front, if there is one; a mark without digits is refused. -/
def readExponent (cs : List Char) : Option (List Char × List Char) :=
  match cs with
  | mark :: rest =>
    if mark == 'e' || mark == 'E' then
      let sign := rest.takeWhile fun c => c == '+' || c == '-'
      let (run, after) := digits (rest.drop sign.length)
      if run.isEmpty || sign.length > 1 then none else some (mark :: sign ++ run, after)
    else some ([], cs)
  | [] => some ([], [])

/-- Reads a number. -/
def readNumber (cs : List Char) : Option (Json × List Char) :=
  let (sign, unsigned) := match cs with
    | '-' :: rest => (['-'], rest)
    | _ => ([], cs)
  let (whole, rest) := digits unsigned
  if whole.isEmpty || (whole.head? == some '0' && whole.length > 1) then none
  else match readFraction rest with
    | none => none
    | some (fraction, rest) => match readExponent rest with
      | none => none
      | some (exponent, rest) =>
        if sign.isEmpty && fraction.isEmpty && exponent.isEmpty then
          some (.natural (whole.foldl (fun n c => n * 10 + (c.toNat - '0'.toNat)) 0), rest)
        else some (.number (String.ofList (sign ++ whole ++ fraction ++ exponent)), rest)

/-- Reads one of the three words of the format. -/
def readWord (cs : List Char) : Option (Json × List Char) :=
  if "true".toList.isPrefixOf cs then some (.bool true, cs.drop 4)
  else if "false".toList.isPrefixOf cs then some (.bool false, cs.drop 5)
  else if "null".toList.isPrefixOf cs then some (.null, cs.drop 4)
  else none

/-! ## Values -/

mutual

/-- Reads a value; `depth` bounds the recursion. -/
def readValue : (depth : Nat) → List Char → Option (Json × List Char)
  | 0, _ => none
  | depth + 1, cs =>
    match skipSpace cs with
    | '\x22' :: rest => (readString 0 rest "").map fun (s, rest) => (.string s, rest)
    | '[' :: rest =>
      match skipSpace rest with
      | ']' :: rest => some (.array [], rest)
      | rest => readItems depth rest []
    | '\x7b' :: rest =>
      match skipSpace rest with
      | '\x7d' :: rest => some (.object [], rest)
      | rest => readMembers depth rest []
    | cs =>
      match readWord cs with
      | some found => some found
      | none => readNumber cs

/-- Reads the items of an array up to its closing bracket; `before` holds the items read so far,
last first. -/
def readItems : (depth : Nat) → List Char → (before : List Json) → Option (Json × List Char)
  | 0, _, _ => none
  | depth + 1, cs, before =>
    match readValue depth cs with
    | none => none
    | some (item, rest) =>
      match skipSpace rest with
      | ',' :: rest => readItems depth rest (item :: before)
      | ']' :: rest => some (.array (item :: before).reverse, rest)
      | _ => none

/-- Reads the members of an object up to its closing brace; `before` holds the members read so far,
last first. -/
def readMembers :
    (depth : Nat) → List Char → (before : List (String × Json)) → Option (Json × List Char)
  | 0, _, _ => none
  | depth + 1, cs, before =>
    match skipSpace cs with
    | '\x22' :: rest =>
      match readString 0 rest "" with
      | none => none
      | some (key, rest) =>
        match skipSpace rest with
        | ':' :: rest =>
          match readValue depth rest with
          | none => none
          | some (value, rest) =>
            match skipSpace rest with
            | ',' :: rest => readMembers depth rest ((key, value) :: before)
            | '\x7d' :: rest => some (.object ((key, value) :: before).reverse, rest)
            | _ => none
        | _ => none
    | _ => none

end

/-- The value that the whole text writes, if it writes one. Every second call reads a character, so
twice the length bounds the recursion. -/
def parse? (text : String) : Option Json :=
  let cs := text.toList
  match readValue (2 * cs.length + 2) cs with
  | some (value, rest) => if (skipSpace rest).isEmpty then some value else none
  | none => none

end ScriptLint.Json
