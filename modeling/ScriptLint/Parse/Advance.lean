import ScriptLint.Parse.Notice

/-!
# Moving through the tokens

A token is checked when it is consumed. Comments are passed over on the way to the next token;
directives take effect there and then, so that they govern what follows them.
-/

namespace ScriptLint.Parse

/-! ## Checks of single tokens and lines -/

/-- Checks the quotation marks of a string against the policy. -/
def checkQuote (quote : Char) (line column : Nat) : Parse Unit := do
  let s ← get
  match s.layers.quotePolicy with
  | .off => pure ()
  | .single => if quote != '\x27' then warnAt .useSingleQuote line column
  | .double => if quote != '\x22' then warnAt .useDoubleQuote line column
  | .consistent =>
    match s.firstQuote with
    | none => set { s with firstQuote := some quote }
    | some first => if first != quote then warnAt .mixedQuotes line column

/-- Checks a string or a number that is being consumed. -/
def checkConsumed : Parse Unit := do
  let s ← get
  let line := s.token.line
  let column := s.token.column
  match s.token.kind with
  | .string literal =>
    checkQuote literal.quote line column
    if literal.octal && s.context.strict then warnAt .strictOctal line column
    if literal.continued then warnUnless .multistr .multilineString line column
    if Text.isScriptUrl literal.value then warnUnless .scripturl .scriptUrl line column
  | .number literal =>
    if literal.legacyOctal && s.context.strict then warnAt .strictOctal line column
  | _ => pure ()

/-- Reports the lines longer than the limit, the first of the lengths being that of `line`. -/
def warnLongLines (limit : Nat) : (line : Nat) → (lengths : List Nat) → Parse Unit
  | _, [] => pure ()
  | line, length :: rest => do
    if length > limit then warnAt .lineTooLong line length
    warnLongLines limit (line + 1) rest

/-- Checks the lines before `line` that were not checked yet. -/
def checkLinesBefore (line : Nat) : Parse Unit := do
  let s ← get
  let (lengths, unchecked) := s.uncheckedLines.splitAt (line - 1 - s.checkedLines)
  set { s with checkedLines := s.checkedLines + lengths.length, uncheckedLines := unchecked }
  match s.layers.limit? .maxlen with
  | some limit => warnLongLines limit (s.checkedLines + 1) lengths
  | none => pure ()

/-! ## Directives -/

/-- Carries out one item of a directive. -/
def applyEntry (entry : Directive.Entry) (atGlobal : Bool) (line column : Nat) : Parse Unit :=
  match entry with
  | .setOption setting value => do
    let s ← get
    match s.layers.set setting value atGlobal with
    | .ok layers =>
      set { s with layers }
      if value.isOn then
        match Predefined.environment? setting with
        | some names => modifyScopes fun t _ => t.addGlobals names
        | none => pure ()
    | .error problem => reportProblem problem line column
  | .ignoreCode code => modify fun s => { s with journal := s.journal.ignoreCode code }
  | .ignore .start => modify fun s => { s with journal := s.journal.startRegion line }
  | .ignore .stop => modify fun s => { s with journal := s.journal.endRegion line }
  | .ignore .line => modify fun s => { s with journal := s.journal.ignoreLine line }
  | .declareGlobal name writable =>
    modifyScopes fun t _ => t.declareGlobal name writable line column
  | .removeGlobal name => modifyScopes fun t _ => t.removeGlobal name
  | .exportName name => modifyScopes fun t _ => t.exportName name

/-- Carries out a directive: its problems are reported, then its items take effect in order. -/
def applyDirective (d : Directive) (line column : Nat) : Parse Unit := do
  reportProblems d.problems line column
  let atGlobal := (← get).inGlobalCode
  d.entries.forM fun entry => applyEntry entry atGlobal line column

/-! ## The next token -/

/-- Takes note of a result: a directive takes effect and a lexing error is reported. -/
def note (result : Lexer.Result) : Parse Unit :=
  match result with
  | .ok token =>
    match token.kind with
    | .directive d => applyDirective d token.line token.column
    | _ => pure ()
  | .error e => reportLexError e

/-- Takes the next significant token off the stream, with note of what is passed on the way. -/
def nextSignificant : Parse Token := do
  let s ← get
  let (results, stream) := s.stream.pullSignificant
  set { s with stream }
  results.forM note
  return (results.getLast?.bind Lexer.significant?).getD .origin

/-- Consumes the current token. -/
def advance : Parse Unit := do
  checkConsumed
  modify fun s => { s with consumed := s.token.offset + s.token.raw.length }
  let next ← nextSignificant
  modify fun s => { s with previous := s.token, token := next }
  checkLinesBefore next.line

/-- The significant token `n` places after the current one. -/
def peek (n : Nat) : Parse (Option Token) := fun s =>
  let (token, stream) := s.stream.peek n
  .ok token { s with stream }

/-- Whether the token after the current one is as described; nothing is consumed. -/
def peekIs (test : Token → Bool) : Parse Bool := do
  return (← peek 0).any test

/-- Whether the second token after the current one is an arrow; nothing is consumed. -/
def peekArrowAfterNext : Parse Bool := do
  return (← peek 1).any (·.isPunctuator .arrow)

/-- Lets a slash after the current token start a regular expression. -/
def allowRegex : Parse Unit :=
  modify fun s => { s with stream := s.stream.allowRegex }

/-- Consumes the current token, which ends the head of a statement or a block, so that a slash after
it starts a regular expression. -/
def advanceToStatement : Parse Unit := do
  allowRegex
  advance

/-- With the current token on an opening bracket, whether an arrow follows its closing one. -/
def startsArrow : Parse Bool := fun s =>
  let (found, stream) := s.stream.closesBeforeArrow
  .ok found { s with stream }

/-! ## Expecting tokens -/

/-- The current token. -/
def current : Parse Token := do
  return (← get).token

/-- Whether the current token is the punctuator. -/
def sees (p : Punctuator) : Parse Bool := do
  return (← get).token.isPunctuator p

/-- Whether the current token is the reserved word. -/
def seesWord (word : Keyword) : Parse Bool := do
  return (← get).token.isKeyword word

/-- Whether the current token is the identifier. -/
def seesName (name : String) : Parse Bool := do
  return (← get).token.identifier? == some name

/-- Consumes the punctuator if it is the current token. -/
def eat (p : Punctuator) : Parse Bool := do
  if ← sees p then
    advance
    return true
  else return false

/-- Consumes the punctuator or fails. -/
def expect (p : Punctuator) : Parse Unit := do
  if ← sees p then advance else failExpected p.spelling

/-- Consumes the reserved word or fails. -/
def expectWord (word : Keyword) : Parse Unit := do
  if ← seesWord word then advance else failExpected word.spelling

/-- Consumes the bracket that closes `opener`. At the end of input the opener is unmatched. -/
def expectClosing (p : Punctuator) (opener : Token) : Parse Unit := do
  if ← sees p then advance
  else if (← current).isEnd then failAt (.unmatched opener.raw) opener
  else failExpected p.spelling

/-- Consumes the bracket that closes the head of a statement or a block, after which a slash starts
a regular expression. -/
def expectStatementClosing (p : Punctuator) (opener : Token) : Parse Unit := do
  if ← sees p then advanceToStatement else expectClosing p opener

/-- Consumes an identifier and returns it with its token, or fails. -/
def expectIdentifier : Parse (String × Token) := do
  let t ← current
  match t.identifier? with
  | some name =>
    advance
    return (name, t)
  | none => failIdentifier

/-- Ends a statement. A semicolon is consumed; otherwise one may be inserted before a line break, a
closing brace or the end of input, or anywhere if `always` says so. -/
def finishStatement (always : Bool) : Parse Unit := do
  if !(← eat .semicolon) then
    let s ← get
    let line := s.previous.line
    let column := s.previous.endColumn
    let closesBlock := s.token.isPunctuator .rightBrace
    if always || s.token.newlineBefore || s.token.isEnd || closesBlock then
      let tolerated := closesBlock && !s.token.newlineBefore && s.layers.enabled .lastsemic
      if !tolerated then warnUnless .asi .missingSemicolon line column
    else warnAt .uninsertableSemicolon line column

/-- Ends a statement where a semicolon belongs. -/
def consumeSemicolon : Parse Unit := finishStatement false

end ScriptLint.Parse
