import ScriptLint.Diagnostic.Journal
import ScriptLint.Lexer.TokenStream
import ScriptLint.Metrics
import ScriptLint.Scope.Close
import ScriptLint.Scope.Declare
import ScriptLint.Scope.Use

/-!
# Parsing sessions

A session is the whole state of linting one source. Parsers are functions on sessions that succeed,
give up on the statement they are in, or stop the run; whatever the outcome, the session goes on
from where the parser left it.
-/

namespace ScriptLint

/-- The function being parsed; the bottom entry stands for global code. -/
structure Context where
  /-- Strict mode is in force. -/
  strict : Bool := false
  /-- Declared or inferred name. -/
  name : Option String := none
  /-- Opened by a function declaration. -/
  isDeclaration : Bool := false
  /-- Arrow functions share `this` with what is around them. -/
  isArrow : Bool := false
  /-- Loops around the current place within the function. -/
  loopDepth : Nat := 0
  /-- The overlay of the body is open. -/
  overlayOpen : Bool := false

/-- The state of linting one source. -/
structure Session where
  stream : TokenStream
  /-- The current token. -/
  token : Token := .origin
  /-- The token before the current one. -/
  previous : Token := .origin
  /-- Where the last consumed token ended. -/
  consumed : Nat := 0
  sourceLength : Nat
  /-- The number of lines whose length was checked. -/
  checkedLines : Nat := 0
  /-- The lengths of the lines after those. -/
  uncheckedLines : List Nat
  layers : Setting.Layers
  scopes : Scope.Tracker
  metrics : Metrics := {}
  journal : Journal
  contexts : Stack Context := ⟨{}, []⟩
  /-- The name for a function expression that comes next. -/
  nameHint : Option String := none
  /-- The word `in` ends an expression: the place is at the top of the head of a loop. -/
  noIn : Bool := false
  /-- Levels of statements, expressions and patterns around the current place. -/
  nesting : Nat := 0
  /-- The quotation mark of the first string, once quotes must be consistent. -/
  firstQuote : Option Char := none

namespace Session

/-- How much of the source was consumed, in percent. -/
def percent (s : Session) : Nat := s.consumed * 100 / max s.sourceLength 1

/-- The innermost function context. -/
def context (s : Session) : Context := s.contexts.top

/-- Whether the current place lies outside every function. -/
def inGlobalCode (s : Session) : Bool := s.contexts.isBottom

/-- The innermost function that has a `this` of its own; none in global code. -/
def thisContext? (s : Session) : Option Context :=
  s.contexts.toList.dropLast.find? (!·.isArrow)

/-- A bound on the tokens from the current one to the end of input, with one to spare: each token
but the last starts at an offset of its own. -/
def budget (s : Session) : Nat := s.sourceLength + 2 - s.token.offset

end Session

/-- Why a parser did not succeed: an error in the program was reported and the statement is given
up, or the run stops. -/
inductive Abort where
  | badSyntax
  | halt
deriving DecidableEq

/-- A parser: a function on sessions that may give up or stop. -/
abbrev Parse := EStateM Abort Session

namespace Parse

variable {α β : Type}

/-- Runs a parser and returns its outcome; always succeeds. -/
def outcome (p : Parse α) : Parse (Except Abort α) := fun s =>
  match p s with
  | .ok a s => .ok (.ok a) s
  | .error e s => .ok (.error e) s

/-- Turns an outcome back into what it was. -/
def resume : Except Abort α → Parse α
  | .ok a => pure a
  | .error e => throw e

/-- Runs a parser and then, whatever its outcome, changes the session. -/
def ensuring (p : Parse α) (after : Session → Session) : Parse α := fun s =>
  match p s with
  | .ok a s => .ok a (after s)
  | .error e s => .error e (after s)

/-- Runs a parser; if it gives up on the statement, another one goes on from there. -/
def recover (p other : Parse α) : Parse α := fun s =>
  match p s with
  | .error .badSyntax s => other s
  | result => result

/-- What a round of a loop asks for. -/
inductive Round (α : Type) where
  | again (a : α)
  | done (a : α)

/-- Repeats a step until it is done. A loop that is not done after `count` rounds stops the run. -/
def rounds (step : α → Parse (Round α)) : (count : Nat) → α → Parse α
  | 0, _ => throw .halt
  | count + 1, a => do
    match ← step a with
    | .again a => rounds step count a
    | .done a => pure a

/-- Repeats a step until it is done. A step that asks for another round has consumed a token, so the
tokens left bound the rounds. -/
def loop (step : α → Parse (Round α)) (a : α) : Parse α := do
  rounds step (← get).budget a

/-- Unfolds a parser that contains itself. A parser that contains itself more than `count` times
stops the run. -/
def unfolded (form : Parse α → Parse α) : (count : Nat) → Parse α
  | 0 => throw .halt
  | count + 1 => form (unfolded form count)

/-- Runs a parser that contains itself. It consumes a token before it starts over, so the tokens
left bound how often it does. -/
def recursive (form : Parse α → Parse α) : Parse α := do
  unfolded form (← get).budget

/-- Runs a parser with `in` allowed or not, and goes back to what was before. -/
def withNoIn (noIn : Bool) (p : Parse α) : Parse α := do
  let saved := (← get).noIn
  modify ({ · with noIn })
  p.ensuring ({ · with noIn := saved })

/-- Sets the name for a function expression that comes next. -/
def setHint (name : Option String) : Parse Unit :=
  modify ({ · with nameHint := name })

/-- Runs a parser after which no name is left for a function expression. -/
def clearingHint (p : Parse α) : Parse α :=
  p.ensuring ({ · with nameHint := none })

end Parse

end ScriptLint
