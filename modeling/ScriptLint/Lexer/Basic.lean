import ScriptLint.Lexer.Cursor
import ScriptLint.Lexer.Literal
import ScriptLint.Lexer.Number

/-!
# The lexer

A lexer is a value: a cursor, whether a slash would start a regular expression, whether a line ended
since the last significant token, and the open template substitutions. `scan` recognises the token
at the front of the characters and says how many it takes; `next` skips white space, scans, and
keeps the positions.
-/

namespace ScriptLint

/-- The state of a lexer between two tokens. -/
structure Lexer where
  cursor : Cursor
  /-- A slash starts a regular expression. -/
  regexAllowed : Bool := true
  /-- A line ended since the last significant token. -/
  newlinePending : Bool := false
  /-- For each open substitution, innermost first, the braces open inside it. -/
  templates : List Nat := []

namespace Lexer

/-! ## Recognising one token -/

/-- What the characters at the front are. -/
inductive Scanned where
  | token (kind : TokenKind)
  /-- The problem lies `offset` characters into the token. -/
  | failure (problem : LexProblem) (offset : Nat) (recovered : Option TokenKind)

/-- What was recognised, how many characters it takes, whether a line ended inside a comment or a
template, and the open substitutions afterwards. -/
structure Scan where
  length : Nat
  scanned : Scanned
  newline : Bool := false
  templates : List Nat

/-- A line comment; `body` follows the two slashes. -/
def scanLineComment (templates : List Nat) (body : List Char) : Scan :=
  let text := body.takeWhile (!Text.isLineTerminator ·)
  { length := text.length + 2, scanned := .token (commentKind text), templates }

/-- A block comment; `body` follows the opening mark. -/
def scanBlockComment (templates : List Nat) (body : List Char) : Scan :=
  let s := commentBody body {}
  if s.closed then
    { length := s.length + 4
      scanned := .token (commentKind (body.take s.length))
      newline := s.newline
      templates }
  else
    { length := s.length + 2
      scanned := .failure .unclosedComment 0 none
      newline := s.newline
      templates }

/-- A regular expression; `body` follows the slash. -/
def scanRegexp (templates : List Nat) (body : List Char) : Scan :=
  let s := regexpBody false body {}
  if s.closed then
    let flags := (body.drop (s.length - 1)).takeWhile isNamePart
    { length := s.length + flags.length
      scanned := .token (.regexp s.pattern (String.ofList flags))
      templates }
  else
    { length := s.length
      scanned := .failure .unclosedRegexp 0 (some (.regexp s.pattern ""))
      templates }

/-- A piece of a template; `body` follows its delimiter. It is a `closed` part if the template ends
and an `opened` one if a substitution follows. -/
def scanTemplate (templates : List Nat) (closed opened : TemplatePart) (body : List Char) : Scan :=
  let s := templateBody body {}
  match s.ending with
  | .closed =>
    { length := s.length
      scanned := .token (.template closed s.cooked)
      newline := s.newline
      templates }
  | .substitution =>
    { length := s.length
      scanned := .token (.template opened s.cooked)
      newline := s.newline
      templates := 0 :: templates }
  | .missing =>
    { length := s.length
      scanned := .failure .unclosedTemplate 0 (some (.template closed s.cooked))
      newline := s.newline
      templates }

/-- A string; `body` follows the opening quote. -/
def scanString (templates : List Nat) (quote : Char) (body : List Char) : Scan :=
  let s := stringBody quote 0 body { literal := { quote } }
  let kind := TokenKind.string s.literal
  if !s.closed then
    { length := s.length, scanned := .failure .unclosedString 0 (some kind), templates }
  else match s.badEscape with
    | some offset =>
      { length := s.length, scanned := .failure .badEscape offset (some kind), templates }
    | none => { length := s.length, scanned := .token kind, templates }

/-- A numeric literal. -/
def scanNumeric (templates : List Nat) (cs : List Char) : Scan :=
  let s := scanNumber cs
  let kind := TokenKind.number s.literal
  if s.malformed then
    let raw := String.ofList (cs.take s.length)
    { length := s.length, scanned := .failure (.badNumber raw) 0 (some kind), templates }
  else { length := s.length, scanned := .token kind, templates }

/-- An identifier or a reserved word. -/
def scanWord (templates : List Nat) (cs : List Char) : Scan :=
  let s := wordBody 0 cs {}
  match s.badEscape with
  | some offset =>
    let recovered := if s.name.isEmpty then none else some (TokenKind.identifier s.name)
    { length := s.length, scanned := .failure .badEscape offset recovered, templates }
  | none => { length := s.length, scanned := .token s.kind, templates }

/-- The longest punctuator at the front. A question mark before a dot and a digit stands alone. -/
def longestPunctuator? (cs : List Char) : Option Punctuator :=
  match Punctuator.all.find? (·.spelling.toList.isPrefixOf cs) with
  | some .optionalChain =>
    if (cs.drop 2).head?.any Char.isDigit then some .question else some .optionalChain
  | found => found

/-- Counts braces inside the innermost substitution. -/
def trackBraces (templates : List Nat) (p : Punctuator) : List Nat :=
  match templates, p with
  | depth :: outer, .leftBrace => (depth + 1) :: outer
  | depth :: outer, .rightBrace => (depth - 1) :: outer
  | _, _ => templates

/-- A punctuator, or a character that starts no token. -/
def scanPunctuator (templates : List Nat) (first : Char) (cs : List Char) : Scan :=
  match longestPunctuator? cs with
  | some p =>
    { length := p.spelling.length
      scanned := .token (.punctuator p)
      templates := trackBraces templates p }
  | none => { length := 1, scanned := .failure (.strayCharacter first) 0 none, templates }

/-- Recognises the token that starts with `c`. -/
def scan (regexAllowed : Bool) (templates : List Nat) (c : Char) (rest : List Char) : Scan :=
  if c == '/' && rest.head? == some '/' then scanLineComment templates (rest.drop 1)
  else if c == '/' && rest.head? == some '*' then scanBlockComment templates (rest.drop 1)
  else if c == '/' && regexAllowed then scanRegexp templates rest
  else if c == '\x60' then scanTemplate templates .whole .head rest
  else if c == '\x7d' && templates.head? == some 0 then
    scanTemplate templates.tail .tail .middle rest
  else if c == '\x22' || c == '\x27' then scanString templates c rest
  else if c.isDigit || (c == '.' && rest.head?.any Char.isDigit) then
    scanNumeric templates (c :: rest)
  else if isNameStart c || c == '\x5c' then scanWord templates (c :: rest)
  else scanPunctuator templates c (c :: rest)

/-! ## Reading token after token -/

/-- The token or the error that a lexer reads. -/
abbrev Result := Except LexError Token

/-- White space between tokens: blanks, line ends and the byte order mark. -/
def isSkipped (c : Char) : Bool :=
  Text.isLineTerminator c || Text.isBlank c || c == '\ufeff'

/-- A lexer at the start of the source, after the line that names an interpreter. -/
def ofSource (source : String) : Lexer :=
  let cursor : Cursor := { rest := source.toList }
  match cursor.rest with
  | '#' :: '!' :: _ =>
    { cursor := cursor.advance (cursor.rest.takeWhile (!Text.isLineTerminator ·)).length }
  | _ => { cursor }

/-- Characters read so far. -/
def offset (lexer : Lexer) : Nat := lexer.cursor.offset

/-- Characters still to be read. -/
def remaining (lexer : Lexer) : Nat := lexer.cursor.rest.length

/-- Lets a slash start a regular expression whatever the last token was. -/
def allowRegex (lexer : Lexer) : Lexer := { lexer with regexAllowed := true }

/-- Skips white space. -/
def skipBlank (lexer : Lexer) : Lexer :=
  let run := lexer.cursor.rest.takeWhile isSkipped
  { lexer with
    cursor := lexer.cursor.advance run.length
    newlinePending := lexer.newlinePending || run.any Text.isLineTerminator }

/-- The token from `start` up to the lexer's cursor. A significant token takes the newline flag and
decides how a following slash is read. -/
def finish (lexer : Lexer) (start : Cursor) (kind : TokenKind) : Token × Lexer :=
  let token : Token :=
    { kind
      raw := String.ofList (start.rest.take (lexer.offset - start.offset))
      start := start.position
      endColumn := lexer.cursor.position.column
      newlineBefore := !kind.isTrivia && lexer.newlinePending }
  if kind.isTrivia then (token, lexer)
  else (token, { lexer with newlinePending := false, regexAllowed := !kind.endsValue })

/-- The lexer after reading what was scanned at its cursor. -/
def consume (lexer : Lexer) (s : Scan) : Lexer :=
  { lexer with
    cursor := lexer.cursor.advance s.length
    newlinePending := lexer.newlinePending || s.newline
    templates := s.templates }

/-- Reads what was scanned at the cursor. -/
def read (lexer : Lexer) (s : Scan) : Result × Lexer :=
  match s.scanned with
  | .token kind =>
    let (token, after) := (lexer.consume s).finish lexer.cursor kind
    (.ok token, after)
  | .failure problem offset recovered =>
    let place := (lexer.cursor.advance offset).position
    match recovered with
    | some kind =>
      let (token, after) := (lexer.consume s).finish lexer.cursor kind
      (.error ⟨problem, place, some token⟩, after)
    | none => (.error ⟨problem, place, none⟩, lexer.consume s)

/-- Reads the next token. At the end of the source it reads the end of input again and again. -/
def next (lexer : Lexer) : Result × Lexer :=
  let lexer := lexer.skipBlank
  match lexer.cursor.rest with
  | [] =>
    let (token, after) := lexer.finish lexer.cursor .endOfInput
    (.ok token, after)
  | c :: rest => lexer.read (scan lexer.regexAllowed lexer.templates c rest)

/-- What the lexer reads up to the end of input, which is included. Every step but the last reads at
least one character, so one more step than characters is enough. -/
def results (lexer : Lexer) : List Result :=
  go (lexer.remaining + 1) lexer
where
  /-- At most `steps` results. -/
  go : (steps : Nat) → Lexer → List Result
    | 0, _ => []
    | steps + 1, lexer =>
      match lexer.next with
      | (.ok token, after) =>
        if token.isEnd then [.ok token] else .ok token :: go steps after
      | (.error e, after) => .error e :: go steps after

end Lexer

end ScriptLint
