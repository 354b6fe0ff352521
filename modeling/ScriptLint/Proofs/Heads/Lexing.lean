import ScriptLint.Proofs.Division.Twin
import ScriptLint.Proofs.Lexer.Substitutions
import ScriptLint.Proofs.Log.Stops

/-!
# The same text in a statement and in a head

An expression is read once as a statement, up to the semicolon that ends the source, and once in the
head of a loop, where more follows. Up to that semicolon both lexers read the same tokens, a few
characters apart.

- `Cursor.Parallel`, `Parallel`: cursors and lexers before the same text, in the statement and in
  the head.
- `Token.Moved`, `MovedResult`: the same token at the other place.
- `Shielded`: up to the semicolon no class starts, and `in` stands in brackets only.
- `Front`: where the two lexers are behind a token.
- `Front.leads`: the next significant token of both.
- `Front.arrow_next`, `Front.closing`: what is seen further ahead.
-/

namespace ScriptLint

/-- How many characters more stand before the expression in the head of a loop. -/
def headStart : Nat := 5

/-- What the head has from the semicolon behind the expression on. -/
def headEnd : List Char := [';', ' ', ';', ' ', ')', ' ', '\x7b', ' ', '\x7d']

/-! ## Cursors -/

namespace Cursor

/-- Cursors before the same text; in the first source it ends at the offset `stop`, with a
semicolon. -/
structure Parallel (stop : Nat) (text : List Char) (c c' : Cursor) : Prop where
  rest : c.rest = text ++ [';']
  rest' : c'.rest = text ++ headEnd
  line : c'.position.line = c.position.line
  offset : c'.position.offset = c.position.offset + headStart
  stop : c.position.offset + text.length = stop

variable {stop : Nat} {text : List Char} {c c' : Cursor}

theorem offset_step (p : Position) (ch : Char) (following : Option Char) :
    (step p ch following).offset = p.offset + 1 := by
  unfold step
  split <;> rfl

/-- The line after a character depends on the line before it, whatever the column. -/
theorem line_step {p p' : Position} (h : p'.line = p.line) (ch : Char) (following : Option Char) :
    (step p' ch following).line = (step p ch following).line := by
  unfold step
  split <;> simp only [h]

/-- Parallel cursors step over a character of the common text alike. -/
theorem Parallel.next {ch : Char} (h : Parallel stop (ch :: text) c c') :
    Parallel stop text c.next c'.next := by
  obtain ⟨rest, position⟩ := c
  obtain ⟨rest', position'⟩ := c'
  obtain ⟨hRest, hRest', hLine, hOffset, hStop⟩ := h
  dsimp only at hRest hRest' hLine hOffset hStop
  subst hRest hRest'
  -- whether a carriage return ends the line is decided by the character after it, the semicolon at
  -- the latest
  have hHead : (text ++ headEnd).head? = (text ++ [';']).head? := by cases text <;> rfl
  refine ⟨rfl, rfl, ?_, ?_, ?_⟩
  · show (step position' ch (text ++ headEnd).head?).line =
      (step position ch (text ++ [';']).head?).line
    rw [hHead, line_step hLine]
  · show (step position' ch _).offset = (step position ch _).offset + headStart
    rw [offset_step, offset_step, hOffset, Nat.add_right_comm]
  · show (step position ch _).offset + text.length = stop
    rw [offset_step]
    simp only [List.length_cons] at hStop
    omega

/-- Parallel cursors stay parallel inside the common text. -/
theorem Parallel.advance (h : Parallel stop text c c') {count : Nat}
    (hCount : count ≤ text.length) :
    Parallel stop (text.drop count) (c.advance count) (c'.advance count) := by
  induction count generalizing text c c' with
  | zero => exact h
  | succ count ih =>
    cases text with
    | nil => cases hCount
    | cons ch text => exact ih h.next (Nat.le_of_succ_le_succ hCount)

end Cursor

/-! ## Tokens -/

/-- The same token in the head. Columns may differ in any way. -/
structure Token.Moved (t t' : Token) : Prop where
  kind : t'.kind = t.kind
  line : t'.line = t.line
  newlineBefore : t'.newlineBefore = t.newlineBefore
  offset : t'.offset = t.offset + headStart

namespace Token.Moved

variable {t t' : Token} (h : t.Moved t')
include h

theorem isPunctuator (p : Punctuator) : t'.isPunctuator p = t.isPunctuator p := by
  unfold Token.isPunctuator
  rw [h.kind]

theorem isKeyword (word : Keyword) : t'.isKeyword word = t.isKeyword word := by
  unfold Token.isKeyword
  rw [h.kind]

theorem isEnd : t'.isEnd = t.isEnd := by
  unfold Token.isEnd
  rw [h.kind]

theorem identifier? : t'.identifier? = t.identifier? := by
  unfold Token.identifier?
  rw [h.kind]

theorem propertyName? : t'.propertyName? = t.propertyName? := by
  unfold Token.propertyName?
  rw [h.kind]

end Token.Moved

namespace Lexer

/-- The same result in the head. -/
inductive MovedResult : Result → Result → Prop
  | token {t t' : Token} : t.Moved t' → MovedResult (.ok t) (.ok t')
  | failure {problem : LexProblem} {place place' : Position} : place'.line = place.line →
    MovedResult (.error ⟨problem, place, none⟩) (.error ⟨problem, place', none⟩)
  | recovered {problem : LexProblem} {place place' : Position} {t t' : Token} :
    place'.line = place.line →
    t.Moved t' → MovedResult (.error ⟨problem, place, some t⟩) (.error ⟨problem, place', some t'⟩)

/-- Of a result and its counterpart both count or neither does. -/
theorem MovedResult.significant {r r' : Result} (h : MovedResult r r') :
    (significant? r = none ∧ significant? r' = none) ∨
      ∃ t t', significant? r = some t ∧ significant? r' = some t' ∧ t.Moved t' := by
  cases h with
  | @token t t' h =>
    have hSame : t'.isTrivia = t.isTrivia := by rw [Token.isTrivia, h.kind, Token.isTrivia]
    unfold significant?
    dsimp only
    rw [hSame]
    split
    · exact .inl ⟨rfl, rfl⟩
    · exact .inr ⟨t, t', rfl, rfl, h⟩
  | failure _ => exact .inl ⟨rfl, rfl⟩
  | recovered _ h => exact .inr ⟨_, _, rfl, rfl, h⟩

/-! ## Lexers -/

/-- Lexers before the same text. -/
structure Parallel (stop : Nat) (text : List Char) (l l' : Lexer) : Prop where
  cursor : Cursor.Parallel stop text l.cursor l'.cursor
  regexAllowed : l'.regexAllowed = l.regexAllowed
  pending : l'.newlinePending = l.newlinePending
  templates : l'.templates = l.templates

variable {stop : Nat} {text : List Char} {l l' : Lexer}

/-- Blanks in front of a semicolon end at the semicolon. -/
theorem takeWhile_isSkipped (text tail : List Char) :
    (text ++ ';' :: tail).takeWhile isSkipped = text.takeWhile isSkipped := by
  induction text with
  | nil => rfl
  | cons c text ih =>
    rw [List.cons_append, List.takeWhile_cons, List.takeWhile_cons, ih]

/-- Parallel lexers skip the same blanks. -/
theorem Parallel.skipBlank (h : Parallel stop text l l') :
    Parallel stop (text.dropWhile isSkipped) l.skipBlank l'.skipBlank := by
  have hRun : l.cursor.rest.takeWhile isSkipped = text.takeWhile isSkipped := by
    rw [h.cursor.rest, takeWhile_isSkipped]
  have hRun' : l'.cursor.rest.takeWhile isSkipped = text.takeWhile isSkipped := by
    rw [h.cursor.rest']
    exact takeWhile_isSkipped text _
  have hCursor := h.cursor.advance (List.takeWhile_prefix isSkipped (l := text)).length_le
  rw [drop_takeWhile] at hCursor
  unfold Lexer.skipBlank
  dsimp only
  rw [hRun, hRun']
  exact ⟨hCursor, h.regexAllowed, by dsimp only; rw [h.pending], h.templates⟩

/-- A token that ends where both lexers are starts where both were. -/
theorem Parallel.finish (h : Parallel stop text l l') {start start' : Cursor}
    (hLine : start'.position.line = start.position.line)
    (hOffset : start'.position.offset = start.position.offset + headStart) (kind : TokenKind) :
    (l.finish start kind).1.Moved (l'.finish start' kind).1 ∧
      Parallel stop text (l.finish start kind).2 (l'.finish start' kind).2 := by
  unfold Lexer.finish
  dsimp only
  rw [h.pending]
  split
  · exact ⟨⟨rfl, hLine, rfl, hOffset⟩, h⟩
  · exact ⟨⟨rfl, hLine, rfl, hOffset⟩, h.cursor, rfl, rfl, h.templates⟩

/-- What is scanned within the text is read by both lexers. -/
theorem Parallel.read (h : Parallel stop text l l') {s : Scan} (hLength : s.length ≤ text.length)
    (hPlace : ∀ problem offset recovered, s.scanned = .failure problem offset recovered →
    offset ≤ s.length) : MovedResult (l.read s).1 (l'.read s).1 ∧
      Parallel stop (text.drop s.length) (l.read s).2 (l'.read s).2 := by
  have hConsume : Parallel stop (text.drop s.length) (l.consume s) (l'.consume s) :=
    ⟨h.cursor.advance hLength, h.regexAllowed, by rw [Lexer.consume, Lexer.consume, h.pending], rfl⟩
  unfold Lexer.read
  cases hScanned : s.scanned with
  | token kind =>
    obtain ⟨hToken, hAfter⟩ := hConsume.finish h.cursor.line h.cursor.offset kind
    exact ⟨.token hToken, hAfter⟩
  | failure problem offset recovered =>
    have hThere := h.cursor.advance (Nat.le_trans (hPlace _ _ _ hScanned) hLength)
    cases recovered with
    | none => exact ⟨.failure hThere.line, hConsume⟩
    | some kind =>
      obtain ⟨hToken, hAfter⟩ := hConsume.finish h.cursor.line h.cursor.offset kind
      exact ⟨.recovered hThere.line hToken, hAfter⟩

/-! ## One result of each -/

/-- Both texts go on with a semicolon behind the common part. -/
theorem alike_parallel (text : List Char) :
    Alike false text.length (text ++ [';']) (text ++ headEnd) := by
  induction text with
  | nil => exact .gap rfl rfl _ _
  | cons c text ih => exact .cons c ih

/-- Both lexers read the semicolon behind the text. -/
structure AtStop (stop : Nat) (l l' : Lexer) : Prop where
  token : ∃ t t', l.next.1 = .ok t ∧ l'.next.1 = .ok t' ∧ t.Moved t' ∧ t.kind =
    .punctuator .semicolon ∧ t.offset = stop
  rest : l.next.2.cursor.rest = []
  rest' : l'.next.2.cursor.rest = headEnd.tail

/-- A token of the first source reaches over the semicolon, to the end. -/
structure Overruns (stop : Nat) (l : Lexer) : Prop where
  rest : l.next.2.cursor.rest = []
  offset : stop < l.next.2.cursor.position.offset
  token : ∀ t, significant? l.next.1 = some t → t.offset < stop

/-- Where only white space is left of the text, the semicolon comes next. -/
theorem Parallel.stops (h : Parallel stop text l l') (hText : text.dropWhile isSkipped = []) :
    AtStop stop l l' := by
  have hSkip := h.skipBlank
  rw [hText] at hSkip
  have hFront : l.skipBlank.cursor.rest = ';' :: [] := hSkip.cursor.rest
  have hFront' : l'.skipBlank.cursor.rest = ';' :: headEnd.tail := hSkip.cursor.rest'
  have hNext : l.next = l.skipBlank.read
      { length := 1, scanned := .token (.punctuator .semicolon),
        templates := l.skipBlank.templates } := by
    rw [next_of_cons hFront, scan_semicolon]
  have hNext' : l'.next = l'.skipBlank.read
      { length := 1, scanned := .token (.punctuator .semicolon),
        templates := l'.skipBlank.templates } := by
    rw [next_of_cons hFront', scan_semicolon]
  refine ⟨?_, ?_, ?_⟩
  · rw [hNext, hNext']
    refine ⟨_, _, rfl, rfl, ⟨rfl, hSkip.cursor.line, ?_, hSkip.cursor.offset⟩, rfl,
      hSkip.cursor.stop⟩
    show (l'.skipBlank.newlinePending || false) = (l.skipBlank.newlinePending || false)
    rw [hSkip.pending]
  · rw [hNext, cursor_read, Cursor.rest_advance, hSkip.cursor.rest]
    rfl
  · rw [hNext', cursor_read, Cursor.rest_advance, hSkip.cursor.rest']
    rfl

/-- Both lexers read on inside the text. -/
structure ReadsOn (stop : Nat) (l l' : Lexer) : Prop where
  moved : MovedResult l.next.1 l'.next.1
  parallel : ∃ text', Parallel stop text' l.next.2 l'.next.2
  offset : ∀ t, significant? l.next.1 = some t → t.offset < stop

/-- One result of each lexer, by where it ends. -/
theorem Parallel.step (h : Parallel stop text l l') :
    ReadsOn stop l l' ∨ AtStop stop l l' ∨ Overruns stop l := by
  -- the next thing is the semicolon, or a token that is scanned
  cases hText : text.dropWhile isSkipped with
  | nil => exact .inr (.inl (h.stops hText))
  | cons c rest =>
    have hSkip := h.skipBlank
    rw [hText] at hSkip
    have hFront : l.skipBlank.cursor.rest = c :: (rest ++ [';']) := hSkip.cursor.rest
    have hFront' : l'.skipBlank.cursor.rest = c :: (rest ++ headEnd) := hSkip.cursor.rest'
    have hNext := next_of_cons hFront
    have hNext' := next_of_cons hFront'
    rw [hSkip.regexAllowed, hSkip.templates] at hNext'
    have hNotices := scan_notices l.skipBlank.regexAllowed l.skipBlank.templates
      (unbroken_of_skipBlank hFront) (rest ++ [';'])
    have hStop := hSkip.cursor.stop
    simp only [List.length_cons] at hStop
    have hStart (t : Token) (ht : significant? l.next.1 = some t) : t.offset < stop := by
      rw [hNext] at ht
      rw [Token.offset, (Lexer.read_token _ hNotices.counts ht).start]
      omega
    -- a scan inside the text is the same in both; one that leaves it runs over the semicolon too
    by_cases hLocal :
      (scan l.skipBlank.regexAllowed l.skipBlank.templates c (rest ++ [';'])).length ≤
        rest.length + 1
    · rw [scan_local _ _ (alike_parallel rest) (absurd · Bool.false_ne_true) hLocal] at hNext'
      obtain ⟨hMoved, hAfter⟩ := hSkip.read hLocal fun _ _ _ => scan_failure _ _
      rw [← hNext, ← hNext'] at hMoved hAfter
      exact .inl ⟨hMoved, ⟨_, hAfter⟩, hStart⟩
    · -- only what reaches over the semicolon takes more than the text
      have hWhole : l.skipBlank.cursor.rest.length = rest.length + 2 := by
        rw [hSkip.cursor.rest]
        simp
      refine .inr (.inr ⟨?_, ?_, hStart⟩)
      · rw [hNext, cursor_read, Cursor.rest_advance]
        exact List.drop_eq_nil_of_le (by omega)
      · rw [hNext, cursor_read]
        show stop < (l.skipBlank.cursor.advance _).offset
        rw [Cursor.offset_advance, hWhole, Cursor.offset]
        omega

end Lexer

/-! ## Brackets -/

/-- A bracket that is open. -/
inductive Bracket where
  | paren
  | square
  | brace
  /-- The substitutions of a template. -/
  | substitution
deriving DecidableEq

namespace TokenKind

/-- The bracket that a token opens. The first piece of a template opens one for its
substitutions. -/
def opens? : TokenKind → Option Bracket
  | .punctuator .leftParen => some .paren
  | .punctuator .leftBracket => some .square
  | .punctuator .leftBrace => some .brace
  | .template .head _ => some .substitution
  | _ => none

/-- The bracket that a token closes. -/
def closes? : TokenKind → Option Bracket
  | .punctuator .rightParen => some .paren
  | .punctuator .rightBracket => some .square
  | .punctuator .rightBrace => some .brace
  | .template .tail _ => some .substitution
  | _ => none

/-- The brackets open behind a token, innermost first, unless the token closes another one than the
innermost. -/
def pairs (kind : TokenKind) (brackets : List Bracket) : Option (List Bracket) :=
  match kind.opens?, kind.closes? with
  | some b, _ => some (b :: brackets)
  | none, some b => if brackets.head? = some b then some brackets.tail else none
  | none, none => some brackets

/-- How many brackets are open behind a token. -/
def bracketed (depth : Nat) (kind : TokenKind) : Nat :=
  match kind.opens?, kind.closes? with
  | some _, _ => depth + 1
  | none, some _ => depth - 1
  | none, none => depth

/-- The brackets opened are as many as are counted. -/
theorem length_pairs {kind : TokenKind} {brackets brackets' : List Bracket}
    (h : kind.pairs brackets = some brackets') :
    brackets'.length = kind.bracketed brackets.length := by
  unfold pairs at h
  unfold bracketed
  split at h
  · rw [← Option.some.inj h]
    rfl
  · obtain ⟨-, hTail⟩ := Option.ite_none_right_eq_some.mp h
    rw [← Option.some.inj hTail, List.length_tail]
  · rw [← Option.some.inj h]

end TokenKind

namespace Bracket

/-- The braces open in each open substitution, innermost first. -/
def counters : List Bracket → List Nat
  | [] => []
  | .substitution :: outer => 0 :: counters outer
  | .brace :: outer => Lexer.trackBraces (counters outer) .leftBrace
  | _ :: outer => counters outer

/-- Parentheses and square brackets do not count. -/
theorem counters_other {kind : TokenKind} (hOther : Lexer.isStructural kind = false) {b : Bracket}
    (h : kind.opens? = some b ∨ kind.closes? = some b) (outer : List Bracket) :
    counters (b :: outer) = counters outer := by
  unfold TokenKind.opens? TokenKind.closes? at h
  rcases h with h | h
  · split at h <;> cases h <;> first | rfl | cases hOther
  · split at h <;> cases h <;> first | rfl | cases hOther

/-- A lexer counts the braces in its substitutions as the brackets pair up. -/
theorem counters_pairs {kind : TokenKind} {brackets brackets' : List Bracket} {templates : List Nat}
    (hPairs : kind.pairs brackets = some brackets')
    (hSteers : Lexer.Steers (counters brackets) (some kind) templates) :
    templates = counters brackets' := by
  -- along what steers the lexer: parts of templates, braces, and anything else
  cases hSteers with
  | head cooked =>
    cases hPairs
    rfl
  | middle cooked hOpen =>
    cases hPairs
    exact hOpen.symm
  | tail cooked hOpen =>
    obtain ⟨hHead, hTail⟩ := Option.ite_none_right_eq_some.mp hPairs
    obtain ⟨outer, rfl⟩ := List.head?_eq_some_iff.mp hHead
    cases hTail
    exact (List.cons.inj hOpen).2.symm
  | leftBrace =>
    cases hPairs
    rfl
  | rightBrace =>
    obtain ⟨hHead, hTail⟩ := Option.ite_none_right_eq_some.mp hPairs
    obtain ⟨outer, rfl⟩ := List.head?_eq_some_iff.mp hHead
    cases hTail
    show Lexer.trackBraces (Lexer.trackBraces (counters outer) .leftBrace) .rightBrace =
      counters outer
    cases counters outer <;> rfl
  | other hOther =>
    -- parentheses and square brackets pair up as well, but a lexer does not count them
    have hBracket := fun b => counters_other (b := b) hOther
    unfold TokenKind.pairs at hPairs
    split at hPairs
    · next b hOpens =>
      cases hPairs
      exact (hBracket b (.inl hOpens) brackets).symm
    · next b _ hCloses =>
      obtain ⟨hHead, hTail⟩ := Option.ite_none_right_eq_some.mp hPairs
      obtain ⟨outer, rfl⟩ := List.head?_eq_some_iff.mp hHead
      cases hTail
      exact hBracket b (.inr hCloses) outer
    · cases hPairs
      rfl

end Bracket

/-- One of the tokens starts at the offset; up to there brackets pair up, no class starts, and `in`
stands inside brackets. -/
def Shielded (stop : Nat) : (brackets : List Bracket) → List Token → Bool
  | _, [] => false
  | brackets, t :: rest =>
    if t.offset = stop then brackets.isEmpty
    else !t.isKeyword .classWord && (!t.isKeyword .inWord || !brackets.isEmpty) &&
      (t.kind.pairs brackets).any (Shielded stop · rest)

/-- No class starts at the token, and if it is `in`, it stands inside brackets. -/
structure Token.Apart (depth : Nat) (t : Token) : Prop where
  noClass : t.kind ≠ .keyword .classWord
  bracketed : t.kind = .keyword .inWord → 0 < depth

theorem Token.isKeyword_of_kind {t : Token} {word : Keyword} (h : t.kind = .keyword word) :
    t.isKeyword word = true := by
  rw [Token.isKeyword, h]
  exact decide_eq_true rfl

/-- Keyword tests are about the kind of a token. -/
theorem Token.kind_of_isKeyword {t : Token} {word : Keyword} (h : t.isKeyword word) :
    t.kind = .keyword word := by
  unfold Token.isKeyword at h
  split at h
  · next other hKind => rw [hKind, of_decide_eq_true h]
  · cases h

section

variable {stop : Nat} {t : Token} {rest : List Token} {brackets : List Bracket}

/-- A shielded token leaves the rest shielded. -/
theorem shielded_cons (h : Shielded stop brackets (t :: rest)) (hOffset : t.offset ≠ stop) :
    t.Apart brackets.length ∧ ∃ brackets', t.kind.pairs brackets =
      some brackets' ∧ Shielded stop brackets' rest := by
  rw [Shielded, if_neg hOffset, Bool.and_eq_true, Bool.and_eq_true] at h
  obtain ⟨⟨hClass, hIn⟩, hRest⟩ := h
  obtain ⟨brackets', hPairs, hAfter⟩ := (Option.any_eq_true _ _).mp hRest
  refine ⟨⟨fun hKind => ?_, fun hKind => ?_⟩, brackets', hPairs, hAfter⟩
  · rw [Token.isKeyword_of_kind hKind] at hClass
    cases hClass
  · rw [Token.isKeyword_of_kind hKind] at hIn
    cases brackets with
    | nil => cases hIn
    | cons => exact Nat.succ_pos _

/-- At the stop no bracket is open. -/
theorem shielded_stop (h : Shielded stop brackets (t :: rest)) (hOffset : t.offset = stop) :
    brackets = [] := by
  rw [Shielded, if_pos hOffset] at h
  exact List.isEmpty_iff.mp h

end

namespace Lexer

variable {stop depth : Nat} {text : List Char} {l l' : Lexer}

/-- The significant tokens from a lexer on. -/
def upcoming (l : Lexer) : List Token := l.results.filterMap significant?

/-- More steps than there are characters make no difference. -/
theorem results_go {n : Nat} (h : l.remaining < n) : results.go n l = l.results := by
  unfold results
  -- on the characters left to read
  induction l using read_induction generalizing n with
  | step l ih =>
    obtain ⟨n, rfl⟩ : ∃ m, n = m + 1 := ⟨n - 1, by omega⟩
    have hRest (hGoesOn : ¬∃ t, l.next.1 = .ok t ∧ t.kind = .endOfInput) :
        results.go n l.next.2 = results.go l.remaining l.next.2 := by
      have hLess : l.next.2.remaining < l.remaining := by
        rcases next_progress l with ⟨t, ht, hKind, -⟩ | hLess
        · exact absurd ⟨t, ht, hKind⟩ hGoesOn
        · exact hLess
      rw [ih hGoesOn (by omega), ih hGoesOn hLess]
    rw [results.go, results.go]
    rcases hNext : l.next with ⟨result, after⟩
    rw [hNext] at hRest
    cases result with
    | error e =>
      dsimp only
      rw [hRest (by rintro ⟨_, h, -⟩; cases h)]
    | ok t =>
      dsimp only
      split
      · rfl
      · next hEnd =>
        rw [hRest]
        rintro ⟨u, hu, hKind⟩
        obtain rfl := Except.ok.inj hu
        rw [Token.isEnd, hKind] at hEnd
        exact hEnd rfl

/-- Whether the result is the last one. -/
def endsInput : Result → Bool
  | .ok t => t.isEnd
  | .error _ => false

/-- The end of input is the last result. -/
theorem results_of_end (h : endsInput l.next.1) : l.results = [l.next.1] := by
  rw [results, results.go]
  rcases hNext : l.next with ⟨result, after⟩
  rw [hNext] at h
  cases result with
  | error e => cases h
  | ok t => exact if_pos h

/-- Any other result is followed by the rest. -/
theorem results_of_goesOn (h : endsInput l.next.1 = false) :
    l.results = l.next.1 :: l.next.2.results := by
  have hLess : l.next.2.remaining < l.remaining := by
    rcases next_progress l with ⟨t, ht, hKind, -⟩ | hLess
    · rw [ht, endsInput, Token.isEnd, hKind] at h
      cases h
    · exact hLess
  rw [results, results.go]
  rcases hNext : l.next with ⟨result, after⟩
  rw [hNext] at h hLess
  cases result with
  | error e => exact congrArg _ (results_go hLess)
  | ok t =>
    refine (if_neg ?_).trans (congrArg _ (results_go hLess))
    rw [show t.isEnd = false from h]
    exact Bool.false_ne_true

/-- What is upcoming begins with the next result, if it counts. -/
theorem upcoming_of_goesOn (h : endsInput l.next.1 = false) :
    l.upcoming = (significant? l.next.1).toList ++ l.next.2.upcoming := by
  rw [upcoming, results_of_goesOn h, List.filterMap_cons, upcoming]
  cases significant? l.next.1 <;> rfl

/-- The last token is the end of input, where the source ends. -/
theorem upcoming_of_end {t : Token} (h : l.next.1 = .ok t) (hEnd : t.isEnd) : l.upcoming = [t] := by
  have hCounts : significant? (.ok t) = some t := by
    rw [significant?, Token.isTrivia]
    unfold Token.isEnd at hEnd
    split at hEnd
    · next hKind => rw [hKind]; rfl
    · cases hEnd
  rw [upcoming, results_of_end (h ▸ hEnd), h, List.filterMap_cons, hCounts]
  rfl

/-- Only templates and braces change what the lexer counts. -/
theorem templates_next_of_other (h : (yielded? l.next.1).any isStructural = false) :
    l.next.2.templates = l.templates := by
  have hSteers := next_steers l
  generalize l.next.2.templates = templates at hSteers ⊢
  generalize yielded? l.next.1 = yielded at h hSteers
  cases hSteers with
  | other => rfl
  | _ => cases h

/-- Up to the offset the tokens ahead are shielded, and the lexer counts the braces in its
substitutions. -/
structure Guarded (stop : Nat) (brackets : List Bracket) (l : Lexer) : Prop where
  shielded : Shielded stop brackets l.upcoming
  templates : l.templates = Bracket.counters brackets

variable {brackets : List Bracket} {t : Token}

/-- What does not count leaves the brackets alone. -/
theorem Guarded.pass (h : Guarded stop brackets l) (hNone : significant? l.next.1 = none) :
    Guarded stop brackets l.next.2 := by
  refine ⟨?_, ?_⟩
  · have hShielded := h.shielded
    cases hEnd : endsInput l.next.1 with
    | true =>
      rw [upcoming, results_of_end hEnd, List.filterMap_cons, hNone] at hShielded
      cases hShielded
    | false =>
      rw [upcoming_of_goesOn hEnd, hNone] at hShielded
      exact hShielded
  · exact (templates_next_of_other (by rw [yielded?, hNone]; rfl)).trans h.templates

/-- The tokens ahead are the next one and those behind it. -/
theorem Guarded.shielded_next (h : Guarded stop brackets l) (ht : significant? l.next.1 = some t) :
    ∃ rest, Shielded stop brackets (t :: rest) ∧
      (endsInput l.next.1 = true ∧ rest = [] ∨ rest = l.next.2.upcoming) := by
  have hShielded := h.shielded
  cases hEnd : endsInput l.next.1 with
  | true =>
    rw [upcoming, results_of_end hEnd, List.filterMap_cons, ht] at hShielded
    exact ⟨[], hShielded, .inl ⟨rfl, rfl⟩⟩
  | false =>
    rw [upcoming_of_goesOn hEnd, ht] at hShielded
    exact ⟨_, hShielded, .inr rfl⟩

/-- A token before the stop pairs its brackets and guards the rest. -/
theorem Guarded.read (h : Guarded stop brackets l) (ht : significant? l.next.1 = some t)
    (hOffset : t.offset ≠ stop) : t.Apart brackets.length ∧
      ∃ brackets', brackets'.length = t.kind.bracketed brackets.length ∧
        Guarded stop brackets' l.next.2 := by
  obtain ⟨rest, hShielded, hRest⟩ := h.shielded_next ht
  obtain ⟨hApart, brackets', hPairs, hAfter⟩ := shielded_cons hShielded hOffset
  refine ⟨hApart, brackets', TokenKind.length_pairs hPairs, ?_, ?_⟩
  · rcases hRest with ⟨-, rfl⟩ | rfl
    · cases hAfter
    · exact hAfter
  · have hSteers := next_steers l
    rw [yielded?, ht, h.templates] at hSteers
    exact Bracket.counters_pairs hPairs hSteers

/-- At the offset no bracket is open. -/
theorem Guarded.closed (h : Guarded stop brackets l) (ht : significant? l.next.1 = some t)
    (hOffset : t.offset = stop) : l.templates = [] := by
  obtain ⟨rest, hShielded, -⟩ := h.shielded_next ht
  rw [h.templates, shielded_stop hShielded hOffset]
  rfl

/-- If the semicolon behind the text is read, no token reaches over it. -/
theorem Guarded.not_overruns (h : Guarded stop brackets l) : ¬Overruns stop l := by
  intro ⟨hRest, hOffset, hToken⟩
  obtain ⟨brackets', hAfter⟩ : ∃ brackets', Guarded stop brackets' l.next.2 := by
    cases ht : significant? l.next.1 with
    | none => exact ⟨_, h.pass ht⟩
    | some t =>
      obtain ⟨-, brackets', -, hAfter⟩ := h.read ht (Nat.ne_of_lt (hToken t ht))
      exact ⟨brackets', hAfter⟩
  -- behind it there is only the end of input, which starts further on
  obtain ⟨t, ht, hKind⟩ : ∃ t, l.next.2.next.1 = .ok t ∧ t.kind = .endOfInput := by
    rcases next_progress l.next.2 with ⟨t, ht, hKind, -⟩ | hLess
    · exact ⟨t, ht, hKind⟩
    · rw [remaining, remaining, hRest] at hLess
      cases hLess
  have hCounts : significant? l.next.2.next.1 = some t := significant_of_kind ht hKind rfl
  obtain ⟨-, hStart, -⟩ := (Leads.here hCounts).of_end hRest
  have hShielded := hAfter.shielded
  rw [upcoming_of_end ht (by rw [Token.isEnd, hKind])] at hShielded
  obtain ⟨-, _, -, hNone⟩ :=
    shielded_cons hShielded (by rw [Token.offset, hStart]; exact Nat.ne_of_gt hOffset)
  cases hNone

/-! ## Behind a token -/

/-- Where the two lexers are behind a token with so many brackets open before it: inside the text,
or behind the semicolon after it. -/
inductive Front (stop depth : Nat) (t : Token) (l l' : Lexer) : Prop
  | inside {text : List Char} {brackets : List Bracket} : t.offset ≠ stop → t.Apart depth →
    Parallel stop text l l' → Guarded stop brackets l → brackets.length = t.kind.bracketed depth →
    Front stop depth t l l'
  | last : t.kind = .punctuator .semicolon → l.cursor.rest = [] → l'.cursor.rest = headEnd.tail →
    l'.templates = [] → Front stop depth t l l'

/-- The next significant token of both, by induction on the results before it. -/
theorem Parallel.leads (h : Parallel stop text l l') (hGuarded : Guarded stop brackets l)
    {rs : List Result} {t : Token} {after : Lexer} (hLeads : Leads l rs t after) :
    ∃ rs' t' after', Leads l' rs' t' after' ∧ List.Forall₂ MovedResult rs rs' ∧ t.Moved t' ∧
      Front stop brackets.length t after after' := by
  -- on the results up to the token, which both lexers share until the stop
  induction hLeads generalizing text l' with
  | @here l t ht =>
    rcases h.step with ⟨hMoved, ⟨_, hAfter⟩, hOffset⟩ | hStop | hOver
    · rcases hMoved.significant with ⟨hNone, -⟩ | ⟨u, t', hu, ht', hToken⟩
      · cases ht.symm.trans hNone
      · obtain rfl := Option.some.inj (ht.symm.trans hu)
        have hBefore := Nat.ne_of_lt (hOffset t ht)
        obtain ⟨hApart, _, hLength, hRest⟩ := hGuarded.read ht hBefore
        exact ⟨_, t', _, .here ht', .cons hMoved .nil, hToken,
          .inside hBefore hApart hAfter hRest hLength⟩
    · obtain ⟨⟨u, u', hu, hu', hMoved, hKind, hOffset⟩, hRest, hRest'⟩ := hStop
      have hCounts : significant? l.next.1 = some u := significant_of_kind hu hKind rfl
      have hCounts' : significant? l'.next.1 = some u' :=
        significant_of_kind hu' (hMoved.kind.trans hKind) rfl
      obtain rfl := Option.some.inj (ht.symm.trans hCounts)
      -- no substitution is open at the semicolon
      have hClosed : l'.next.2.templates = [] := by
        have hOther : (yielded? l'.next.1).any isStructural = false := by
          rw [yielded?, hCounts', Option.map_some, hMoved.kind, hKind]
          rfl
        rw [templates_next_of_other hOther, h.templates, hGuarded.closed ht hOffset]
      exact ⟨_, u', _, .here hCounts', .cons (hu ▸ hu' ▸ .token hMoved) .nil, hMoved,
        .last hKind hRest hRest' hClosed⟩
    · exact absurd hOver hGuarded.not_overruns
  | @pass l _ rs t hNone _ ih =>
    rcases h.step with ⟨hMoved, ⟨_, hAfter⟩, -⟩ | ⟨⟨u, u', hu, -, -, hKind, -⟩, -⟩ | hOver
    · obtain ⟨rs', t', after', hLeads, hRest⟩ := ih hAfter (hGuarded.pass hNone)
      have hNone' : significant? l'.next.1 = none := by
        rcases hMoved.significant with ⟨-, hNone'⟩ | ⟨u, _, hu, -⟩
        · exact hNone'
        · cases hNone.symm.trans hu
      exact ⟨_, t', after', .pass hNone' hLeads, .cons hMoved hRest.1, hRest.2⟩
    · cases hNone.symm.trans (significant_of_kind hu hKind rfl)
    · exact absurd hOver hGuarded.not_overruns

/-- Behind a token that is not the semicolon. -/
theorem Front.leads {u : Token} (h : Front stop depth u l l')
    (hKind : u.kind ≠ .punctuator .semicolon)
    {rs : List Result} {t : Token} {after : Lexer} (hLeads : Leads l rs t after) :
    ∃ rs' t' after', Leads l' rs' t' after' ∧ List.Forall₂ MovedResult rs rs' ∧ t.Moved t' ∧
      Front stop (u.kind.bracketed depth) t after after' := by
  cases h with
  | inside _ _ hParallel hGuarded hLength => exact hLength ▸ hParallel.leads hGuarded hLeads
  | last hSemicolon => exact absurd hSemicolon hKind

/-! ## Further ahead -/

/-- A place behind the text, in either source. -/
def Bare (l : Lexer) : Prop := l.cursor.rest <:+ headEnd

/-- Nothing is left. -/
theorem bare_of_nil (h : l.cursor.rest = []) : Bare l := by
  rw [Bare, h]
  exact List.nil_suffix

/-- Only the rest of the head is left. -/
theorem bare_of_tail (h : l.cursor.rest = headEnd.tail) : Bare l := by
  rw [Bare, h]
  exact List.tail_suffix _

/-- Only an equals sign starts an arrow. -/
theorem head_of_arrow {regexAllowed : Bool} {templates : List Nat} {c : Char} {rest : List Char}
    (h : (scan regexAllowed templates c rest).significant? = some (.punctuator .arrow)) :
    c = '=' := by
  have hKind : (scan regexAllowed templates c rest).isPunctuator := by
    rw [Scan.isPunctuator, h]
  rw [(scan_of_isPunctuator _ _ hKind).1, scanPunctuator] at h
  cases hFound : longestPunctuator? (c :: rest) with
  | none =>
    rw [hFound] at h
    cases h
  | some p =>
    rw [hFound] at h
    obtain rfl : p = .arrow := by
      cases h
      rfl
    unfold longestPunctuator? at hFound
    split at hFound
    · split at hFound <;> cases hFound
    · have hHead := head_spelling_of_find hFound
      exact (Option.some.inj hHead).symm

/-- The rest of the head has no arrow in it. -/
theorem Bare.next (h : Bare l) :
    (∀ t, significant? l.next.1 = some t → t.isPunctuator .arrow = false) ∧ Bare l.next.2 := by
  refine ⟨fun t ht => ?_, (rest_next l).trans h⟩
  -- nothing is left, or a character of the end of the head is scanned
  cases hRest : l.skipBlank.cursor.rest with
  | nil =>
    rw [next_of_nil hRest, @significant_finish .endOfInput rfl] at ht
    obtain rfl := Option.some.inj ht
    rw [Token.isPunctuator, kind_finish]
  | cons c rest =>
    have hNotices :=
      scan_notices l.skipBlank.regexAllowed l.skipBlank.templates (unbroken_of_skipBlank hRest) rest
    rw [next_of_cons hRest] at ht
    have hKind := (read_token _ hNotices.counts ht).kind
    unfold Token.isPunctuator
    split
    · next p hp =>
      refine decide_eq_false fun hArrow => ?_
      rw [hp, hArrow] at hKind
      -- what follows the text has no equals sign in it
      have hMem : c ∈ headEnd := by
        refine h.subset ?_
        have hSuffix : c :: rest <:+ l.cursor.rest := by
          rw [← hRest, rest_skipBlank]
          exact List.dropWhile_suffix _
        exact hSuffix.subset (List.mem_cons_self ..)
      rw [head_of_arrow hKind] at hMem
      revert hMem
      decide
    · rfl

/-- So none of its tokens is an arrow. -/
theorem Bare.leads (h : Bare l) {rs : List Result} {t : Token} {after : Lexer}
    (hLeads : Leads l rs t after) : t.isPunctuator .arrow = false := by
  induction hLeads with
  | here ht => exact h.next.1 _ ht
  | pass _ _ ih => exact ih h.next.2

/-- Behind the text no bracket that is closed is followed by an arrow. -/
theorem Bare.closing {d n : Nat} {b : Bool} (h : Bare l)
    (hVisit : Visits TokenStream.closing l d b n) : b = false := by
  induction hVisit with
  | @answer l d b hShown =>
    unfold shown at hShown
    split at hShown
    · next t ht =>
      unfold TokenStream.closing at hShown
      split at hShown
      · exact (Sum.inr.inj hShown).symm.trans (h.next.1 t ht)
      · split at hShown
        · exact (Sum.inr.inj hShown).symm
        · cases hShown
    · cases hShown
  | goOn _ _ ih => exact ih h.next.2

/-- Both lexers read an arrow next, or neither does. -/
theorem Front.arrow_next {u : Token} (h : Front stop depth u l l') {rs : List Result} {t : Token}
    {after : Lexer} (hLeads : Leads l rs t after) : ∃ rs' t' after', Leads l' rs' t' after' ∧
      t'.isPunctuator .arrow = t.isPunctuator .arrow := by
  cases h with
  | inside _ _ hParallel hGuarded =>
    obtain ⟨rs', t', after', hLeads', -, hMoved, -⟩ := hParallel.leads hGuarded hLeads
    exact ⟨rs', t', after', hLeads', hMoved.isPunctuator .arrow⟩
  | last _ hRest hRest' =>
    obtain ⟨rs', t', after', hLeads'⟩ := exists_leads l'
    have hNone := (bare_of_nil hRest).leads hLeads
    exact ⟨rs', t', after', hLeads', ((bare_of_tail hRest').leads hLeads').trans hNone.symm⟩

/-- Only the kind of a token counts for the brackets. -/
theorem closing_of_kind {t t' : Token} (h : t'.kind = t.kind) (d : Nat) :
    TokenStream.closing d t' = TokenStream.closing d t := by
  obtain ⟨kind⟩ := t
  obtain ⟨kind'⟩ := t'
  obtain rfl : kind' = kind := h
  rfl

/-- A token moved counts the same brackets. -/
theorem shown_closing {r r' : Result} (h : MovedResult r r') (d : Nat) :
    shown TokenStream.closing d r' = shown TokenStream.closing d r := by
  rcases h.significant with ⟨hNone, hNone'⟩ | ⟨t, t', ht, ht', hMoved⟩
  · rw [shown, shown, hNone, hNone']
  · rw [shown, shown, ht, ht']
    exact closing_of_kind hMoved.kind d

/-- In the rest of the head the search for an arrow ends without one. -/
theorem Bare.exists_closing (h : Bare l) (d : Nat) :
    ∃ n, Visits TokenStream.closing l d false n := by
  obtain ⟨b, n, hVisit⟩ := exists_visits TokenStream.answersAtEnd_closing l d
  obtain rfl := h.closing hVisit
  exact ⟨n, hVisit⟩

/-- By induction on the results: an arrow behind the closing bracket is the same in both sources. -/
theorem Parallel.closing (h : Parallel stop text l l')
    (hGuarded : Guarded stop brackets l) {d n : Nat}
    {b : Bool} (hVisit : Visits TokenStream.closing l d b n) :
    ∃ n', Visits TokenStream.closing l' d b n' := by
  -- on the tokens the search passes over
  induction hVisit generalizing text l' brackets with
  | @answer l d b hShown =>
    rcases h.step with ⟨hMoved, -⟩ | ⟨⟨t, t', ht, ht', hMoved, -⟩, -⟩ | hOver
    · exact ⟨1, .answer ((shown_closing hMoved d).trans hShown)⟩
    · rw [ht] at hShown
      refine ⟨1, .answer ?_⟩
      rw [ht', shown_closing (.token hMoved), hShown]
    · exact absurd hOver hGuarded.not_overruns
  | @goOn l d d' b n hShown hRest ih =>
    rcases h.step with ⟨hMoved, ⟨_, hAfter⟩, hOffset⟩ | ⟨⟨t, t', ht, ht', hMoved, -⟩, hEnd,
      hEnd'⟩ | hOver
    · obtain ⟨brackets', hNext⟩ : ∃ brackets', Guarded stop brackets' l.next.2 := by
        cases ht : significant? l.next.1 with
        | none => exact ⟨_, hGuarded.pass ht⟩
        | some t =>
          obtain ⟨-, _, -, hRest⟩ := hGuarded.read ht (Nat.ne_of_lt (hOffset t ht))
          exact ⟨_, hRest⟩
      obtain ⟨n', hVisit'⟩ := ih hAfter hNext
      exact ⟨n' + 1, .goOn ((shown_closing hMoved d).trans hShown) hVisit'⟩
    -- behind the semicolon neither search finds an arrow
    · obtain rfl := (bare_of_nil hEnd).closing hRest
      obtain ⟨n', hVisit'⟩ := (bare_of_tail hEnd').exists_closing d'
      rw [ht] at hShown
      refine ⟨n' + 1, .goOn ?_ hVisit'⟩
      rw [ht', shown_closing (.token hMoved), hShown]
    · exact absurd hOver hGuarded.not_overruns

/-- So it does behind the current token. -/
theorem Front.closing {u : Token} (h : Front stop depth u l l') {d n : Nat} {b : Bool}
    (hVisit : Visits TokenStream.closing l d b n) : ∃ n', Visits TokenStream.closing l' d b n' := by
  cases h with
  | inside _ _ hParallel hGuarded => exact hParallel.closing hGuarded hVisit
  | last _ hRest hRest' =>
    obtain rfl := (bare_of_nil hRest).closing hVisit
    exact (bare_of_tail hRest').exists_closing d

end Lexer

end ScriptLint
