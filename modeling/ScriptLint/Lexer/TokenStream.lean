import ScriptLint.Lexer.Basic

/-!
# Token streams with lookahead

A stream hands out what the lexer reads, one result at a time, and can be looked into without
handing anything out. Results read ahead wait in a queue together with the lexer from before each of
them, so that a slash read as a division can be read again as a regular expression.
-/

namespace ScriptLint

/-- The token that counts for the parser: comments do not, nor do errors without a substitute. -/
def Lexer.significant? : Lexer.Result → Option Token
  | .ok t => if t.isTrivia then none else some t
  | .error e => e.recovered

/-- A result read ahead and the lexer from before it. -/
structure Lookahead where
  before : Lexer
  result : Lexer.Result

namespace Lookahead

/-- The token that counts for the parser, if there is one. -/
def significant? (entry : Lookahead) : Option Token := Lexer.significant? entry.result

/-- Shows the entry to a visit, unless it does not count. -/
def visit {σ β : Type} (entry : Lookahead) (f : σ → Token → σ ⊕ β) (state : σ) : σ ⊕ β :=
  match entry.significant? with
  | some token => f state token
  | none => .inl state

/-- Whether the result is a comment or a directive. -/
def isTrivia (entry : Lookahead) : Bool :=
  match entry.result with
  | .ok t => t.isTrivia
  | .error _ => false

/-- Whether the result is a division or a division with assignment. -/
def isDivision (entry : Lookahead) : Bool :=
  match entry.result with
  | .ok t => t.isPunctuator .divide || t.isPunctuator .divideAssign
  | .error _ => false

end Lookahead

/-- A lexer and what was read ahead of it, oldest first. -/
structure TokenStream where
  lexer : Lexer
  ahead : List Lookahead := []

namespace TokenStream

/-- The stream of a source. -/
def ofSource (source : String) : TokenStream := { lexer := .ofSource source }

/-- The next result. -/
def pull (s : TokenStream) : Lexer.Result × TokenStream :=
  match s.ahead with
  | entry :: rest => (entry.result, { s with ahead := rest })
  | [] =>
    let (result, lexer) := s.lexer.next
    (result, { s with lexer })

/-- Lets the next slash start a regular expression. If the next result other than a comment was read
ahead, it is read again if it is a division and left alone otherwise. -/
def allowRegex (s : TokenStream) : TokenStream :=
  match s.ahead.dropWhile Lookahead.isTrivia with
  | [] => { s with lexer := s.lexer.allowRegex }
  | entry :: _ =>
    if entry.isDivision then
      { lexer := entry.before.allowRegex
        ahead := s.ahead.takeWhile Lookahead.isTrivia }
    else s

/-- Visits the significant tokens that the lexer reads until a visit gives an answer, and reads no
further. `seen` holds the results passed, last first. Each result but the end of input takes a
character, so it is enough that `left` has as many elements as there are characters to be read. -/
def surveyLexer {σ β : Type} (visit : σ → Token → σ ⊕ β) (left : List Char)
    (seen : List Lookahead) (lexer : Lexer) (state : σ) : Option β × TokenStream :=
  let (result, after) := lexer.next
  let entry : Lookahead := ⟨lexer, result⟩
  match entry.visit visit state with
  | .inr answer => (some answer, ⟨after, (entry :: seen).reverse⟩)
  | .inl state =>
    match left with
    | [] => (none, ⟨after, (entry :: seen).reverse⟩)
    | _ :: left => surveyLexer visit left (entry :: seen) after state

/-- Visits the significant tokens of the queue, then those that the lexer reads. -/
def surveyFrom {σ β : Type} (visit : σ → Token → σ ⊕ β) :
    (seen todo : List Lookahead) → Lexer → σ → Option β × TokenStream
  | seen, [], lexer, state => surveyLexer visit lexer.cursor.rest seen lexer state
  | seen, entry :: todo, lexer, state =>
    match entry.visit visit state with
    | .inr answer => (some answer, ⟨lexer, (entry :: seen).reverse ++ todo⟩)
    | .inl state => surveyFrom visit (entry :: seen) todo lexer state

/-- Visits the significant tokens ahead. A visit must answer at the end of input. -/
def survey {σ β : Type} (s : TokenStream) (visit : σ → Token → σ ⊕ β) (state : σ) :
    Option β × TokenStream :=
  surveyFrom visit [] s.ahead s.lexer state

/-- The significant token `n` places ahead, or the end of input if that comes first. -/
def peek (s : TokenStream) (n : Nat) : Option Token × TokenStream :=
  s.survey (fun (left : Nat) t => if left = 0 || t.isEnd then .inr t else .inl (left - 1)) n

/-- The next `count` results. -/
def pulls (s : TokenStream) : (count : Nat) → List Lexer.Result × TokenStream
  | 0 => ([], s)
  | count + 1 =>
    let (result, s) := s.pull
    let (results, s) := s.pulls count
    (result :: results, s)

/-- The results up to the next significant token, that one included. -/
def pullSignificant (s : TokenStream) : List Lexer.Result × TokenStream :=
  let s := (s.peek 0).2
  s.pulls ((s.ahead.takeWhile (·.significant?.isNone)).length + 1)

/-- How far a token changes the number of open brackets. -/
def bracketStep (depth : Nat) (t : Token) : Nat :=
  match t.kind with
  | .punctuator .leftParen | .punctuator .leftBracket | .punctuator .leftBrace => depth + 1
  | .punctuator .rightParen | .punctuator .rightBracket | .punctuator .rightBrace => depth - 1
  | _ => depth

/-- Whether the bracket before the stream, once closed, is followed by an arrow. -/
def closesBeforeArrow (s : TokenStream) : Bool × TokenStream :=
  let (found, s) := s.survey (fun (depth : Nat) t =>
    if depth = 0 then .inr (t.isPunctuator .arrow)
    else if t.isEnd then .inr false
    else .inl (bracketStep depth t)) 1
  (found.getD false, s)

end TokenStream

end ScriptLint
