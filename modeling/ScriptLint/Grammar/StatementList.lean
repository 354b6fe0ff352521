import ScriptLint.Grammar.Nested

/-!
# Lists of statements

A statement that is given up on does not end its list: the tokens up to a plausible boundary are
skipped and the list goes on. Statements after a jump are reported once.
-/

namespace ScriptLint.Grammar

open Parse

/-- Where a list of statements ends: with the input, at a closing brace, or at the next case of a
`switch`. -/
inductive ListEnd where
  | program
  | brace
  | switchCase
deriving DecidableEq

/-- Whether a list ends at the token. -/
def ListEnd.isAt (stop : ListEnd) (t : Token) : Bool :=
  t.isEnd || match stop with
    | .program => false
    | .brace => t.isPunctuator .rightBrace
    | .switchCase =>
      t.isPunctuator .rightBrace || t.isKeyword .caseWord || t.isKeyword .defaultWord

/-- Whether the token is a reserved word that starts a statement on a new line. -/
def startsFreshStatement (t : Token) : Bool :=
  t.newlineBefore && match t.kind with
    | .keyword word => word.startsStatement
    | _ => false

/-- One step of skipping; `moved` says whether a token was skipped or consumed since the statement
that failed began. -/
def skipToken (moved : Bool) : Parse (Round Bool) := do
  let t ← current
  if t.isEnd || t.isPunctuator .rightBrace then return .done moved
  else if t.isPunctuator .semicolon then
    advance
    return .done true
  else if moved && startsFreshStatement t then return .done moved
  else
    advance
    return .again true

/-- Skips to a plausible boundary: past a semicolon, or before a closing brace, the end of input or
a statement word on a new line. At least one token is skipped if the failed statement, which began
at the offset given, consumed none. -/
def resync (start : Nat) : Parse Unit := do
  let moved := (← current).offset ≠ start
  discard (loop skipToken moved)

/-- What a list remembers between its statements. -/
structure ListState where
  /-- Statements parsed, those given up on included. -/
  count : Nat := 0
  /-- The first jump. -/
  jumped : Option Jump := none
  /-- What follows the jump was reported. -/
  reported : Bool := false

/-- Reports the first statement after a jump, unless it is a function. -/
def checkReachable (state : ListState) : Parse ListState := do
  let t ← current
  match state.jumped with
  | some jump =>
    if !state.reported && !t.isKeyword .functionWord then
      warnHere (.unreachable t.describe jump.word)
      return { state with reported := true }
    else return state
  | none => return state

/-- Parses one statement of a list; if it is given up on, skips what is left of it. -/
def listStatement (inner : Nested) (state : ListState) : Parse ListState := do
  let state ← checkReachable state
  let start := (← current).offset
  let flow ← recover inner.statement do
    resync start
    return .normal
  match flow with
  | .jump j => return { state with count := state.count + 1, jumped := state.jumped.or j }
  | .normal => return { state with count := state.count + 1 }

/-- One round of a list. At the top of the program a stray closing brace is reported and skipped. -/
def listRound (inner : Nested) (stop : ListEnd) (state : ListState) : Parse (Round ListState) := do
  let t ← current
  if stop.isAt t then return .done state
  else if stop = .program && t.isPunctuator .rightBrace then
    warnHere (.unexpected t.describe)
    advance
    return .again state
  else return .again (← listStatement inner state)

/-- Parses statements up to the end of their list; returns how many there were. -/
def statementList (inner : Nested) (stop : ListEnd) : Parse Nat := do
  return (← loop (listRound inner stop) {}).count

end ScriptLint.Grammar
