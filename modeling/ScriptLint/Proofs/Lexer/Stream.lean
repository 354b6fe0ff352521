import ScriptLint.Proofs.Lexer.Locality

/-!
# What a token stream hands out

A stream is a lexer that is a few results ahead of its reader. What it hands out depends only on the
lexer at its front, the one that would read the next result if nothing had been read ahead.

- `TokenStream.From`: the lexer at the front of a stream.
- `Lexer.Leads`: the next significant token from a lexer, with what is passed on the way.
- `Lexer.Visits`: the answer of a visit to the tokens from a lexer on.
- `pullSignificant_spec`, `survey_spec`, `allowRegex_spec`: pulling, looking ahead and reading again
  in terms of the front.
-/

namespace ScriptLint

namespace Lexer

/-! ## Results -/

/-- Whether the result is a comment or a directive. -/
def passesOver : Result → Bool
  | .ok t => t.isTrivia
  | .error _ => false

/-- Whether the result is a division or a division with assignment. -/
def divides : Result → Bool
  | .ok t => t.isPunctuator .divide || t.isPunctuator .divideAssign
  | .error _ => false

/-- The answer of a visit to a result, or how it goes on. -/
def shown {σ β : Type} (visit : σ → Token → σ ⊕ β) (state : σ) (result : Result) : σ ⊕ β :=
  match significant? result with
  | some t => visit state t
  | none => .inl state

/-! ## Progress -/

/-- Finishing a token does not move the lexer. -/
theorem cursor_finish (lexer : Lexer) (start : Cursor) (kind : TokenKind) :
    (lexer.finish start kind).2.cursor = lexer.cursor := by
  unfold finish
  dsimp only
  split <;> rfl

/-- A token that is read moves the lexer over its scan. -/
theorem cursor_read (lexer : Lexer) (s : Scan) :
    (lexer.read s).2.cursor = lexer.cursor.advance s.length := by
  unfold read
  split
  · exact cursor_finish ..
  · dsimp only
    split
    · exact cursor_finish ..
    · rfl

theorem templates_read (l : Lexer) (s : Scan) : (l.read s).2.templates = s.templates := by
  have hFinish (kind : TokenKind) :
      ((l.consume s).finish l.cursor kind).2.templates = s.templates := by
    unfold finish
    dsimp only
    split <;> rfl
  unfold read
  cases s.scanned with
  | token kind => exact hFinish kind
  | failure problem offset recovered =>
    cases recovered with
    | none => rfl
    | some kind => exact hFinish kind

/-- Nothing is left, so the input ends. -/
theorem next_of_nil {l : Lexer} (h : l.skipBlank.cursor.rest = []) :
    l.next = (.ok (l.skipBlank.finish l.skipBlank.cursor .endOfInput).1,
      (l.skipBlank.finish l.skipBlank.cursor .endOfInput).2) := by
  unfold next
  dsimp only
  rw [h]

/-- A character is left, so a token is scanned. -/
theorem next_of_cons {l : Lexer} {c : Char} {rest : List Char}
    (h : l.skipBlank.cursor.rest = c :: rest) :
    l.next = l.skipBlank.read (scan l.skipBlank.regexAllowed l.skipBlank.templates c rest) := by
  unfold next
  dsimp only
  rw [h]

/-- At the end of the source the end of input is read, and everywhere else at least one
character. -/
theorem next_progress (lexer : Lexer) :
    (∃ t, lexer.next.1 = .ok t ∧ t.kind = .endOfInput ∧ lexer.next.2.cursor.rest = []) ∨
      lexer.next.2.remaining < lexer.remaining := by
  have hSkip : lexer.skipBlank.remaining ≤ lexer.remaining := by
    show lexer.skipBlank.cursor.rest.length ≤ lexer.cursor.rest.length
    rw [rest_skipBlank]
    exact (List.dropWhile_suffix _).length_le
  cases hRest : lexer.skipBlank.cursor.rest with
  | nil =>
    rw [next_of_nil hRest]
    exact .inl ⟨_, rfl, rfl, by rw [cursor_finish, hRest]⟩
  | cons c rest =>
    have hLength := length_scan lexer.skipBlank.regexAllowed lexer.skipBlank.templates c rest
    have hTotal : lexer.skipBlank.remaining = rest.length + 1 := by
      rw [remaining, hRest]
      rfl
    refine .inr ?_
    rw [next_of_cons hRest, remaining, cursor_read, Cursor.rest_advance, List.length_drop, hRest]
    simp only [List.length_cons]
    omega

/-- By induction on the characters left, what holds at the end of input and is passed on from what
is left after a result holds of every lexer. -/
theorem read_induction {motive : Lexer → Prop}
    (step : ∀ l, ((¬∃ t, l.next.1 = .ok t ∧ t.kind = .endOfInput) → motive l.next.2) → motive l)
    (lexer : Lexer) : motive lexer := by
  induction hn : lexer.remaining using Nat.strongRecOn generalizing lexer with
  | ind n ih =>
    refine step lexer fun hGoesOn => ?_
    rcases next_progress lexer with ⟨t, ht, hEnd, -⟩ | hLess
    · exact absurd ⟨t, ht, hEnd⟩ hGoesOn
    · exact ih _ (hn ▸ hLess) _ rfl

/-- The directive that a result is, if it is one. -/
def directive? : Result → Option Directive
  | .ok t =>
    match t.kind with
    | .directive d => some d
    | _ => none
  | .error _ => none

/-! ## The next significant token -/

/-- From a lexer, the results are read, of which the last is the first significant one, and another
lexer goes on from there. -/
inductive Leads : Lexer → List Result → Token → Lexer → Prop
  | here {l : Lexer} {t : Token} : significant? l.next.1 = some t → Leads l [l.next.1] t l.next.2
  | pass {l l' : Lexer} {rs : List Result} {t : Token} : significant? l.next.1 = none →
    Leads l.next.2 rs t l' → Leads l (l.next.1 :: rs) t l'

/-- Every lexer leads to a significant token, the end of input at the latest. -/
theorem exists_leads (lexer : Lexer) : ∃ rs t l', Leads lexer rs t l' := by
  induction lexer using read_induction with
  | step l ih =>
    cases hr : significant? l.next.1 with
    | some t => exact ⟨_, t, _, .here hr⟩
    | none =>
      obtain ⟨rs, t, l', h⟩ := ih (by
        rintro ⟨t, ht, hEnd⟩
        rw [ht, significant?, Token.isTrivia, hEnd] at hr
        cases hr)
      exact ⟨_, t, l', .pass hr h⟩

/-- The token led to is the last result. -/
theorem Leads.last {l l' : Lexer} {rs : List Result} {t : Token} (h : Leads l rs t l') :
    rs.getLast?.bind significant? = some t := by
  induction h with
  | here hr => exact hr
  | @pass l l' rs t _ h ih =>
    cases rs with
    | nil => cases h
    | cons r rs => exact ih

/-! ## Visits -/

/-- Visiting what a lexer reads, from a state on, gives an answer at the `n`th result. -/
inductive Visits {σ β : Type} (visit : σ → Token → σ ⊕ β) : Lexer → σ → β → Nat → Prop
  | answer {l : Lexer} {state : σ} {b : β} :
    shown visit state l.next.1 = .inr b → Visits visit l state b 1
  | goOn {l : Lexer} {state state' : σ} {b : β} {n : Nat} :
    shown visit state l.next.1 = .inl state' → Visits visit l.next.2 state' b n →
      Visits visit l state b (n + 1)

/-- A visit that answers at the end of input. -/
def AnswersAtEnd {σ β : Type} (visit : σ → Token → σ ⊕ β) : Prop :=
  ∀ state t, t.kind = .endOfInput → ∃ b, visit state t = .inr b

variable {σ β : Type} {visit : σ → Token → σ ⊕ β}

/-- A visit that answers at the end of input answers. -/
theorem exists_visits (hEnd : AnswersAtEnd visit) (lexer : Lexer) (state : σ) :
    ∃ b n, Visits visit lexer state b n := by
  induction lexer using read_induction generalizing state with
  | step l ih =>
    cases hr : shown visit state l.next.1 with
    | inr b => exact ⟨b, 1, .answer hr⟩
    | inl state' =>
      obtain ⟨b, n, h⟩ := ih (by
        rintro ⟨t, ht, hKind⟩
        obtain ⟨b, hb⟩ := hEnd state t hKind
        rw [ht, shown, significant?, Token.isTrivia, hKind] at hr
        cases hb.symm.trans hr) state'
      exact ⟨b, n + 1, .goOn hr h⟩

/-- Only the first significant token decides. -/
theorem Leads.visits {l l' : Lexer} {rs : List Result} {t : Token} {state : σ} {b : β}
    (h : Leads l rs t l') (ht : visit state t = .inr b) : Visits visit l state b rs.length := by
  induction h with
  | here hr => exact .answer (by rw [shown, hr]; exact ht)
  | pass hr _ ih => exact .goOn (by rw [shown, hr]) (ih ht)

/-! ## Fronts -/

/-- Reading the entries leads from one lexer to another. Only a division has to remember the lexer
that read it, because only a division is read again. -/
inductive Reads : Lexer → List Lookahead → Lexer → Prop
  | nil (l : Lexer) : Reads l [] l
  | cons {l l' : Lexer} {entry : Lookahead} {rest : List Lookahead} : entry.result = l.next.1 →
    (divides entry.result → entry.before = l) → Reads l.next.2 rest l' → Reads l (entry :: rest) l'

/-- One stretch of results after the other. -/
theorem Reads.append {l l' l'' : Lexer} {es es' : List Lookahead} (h : Reads l es l')
    (h' : Reads l' es' l'') : Reads l (es ++ es') l'' := by
  induction h with
  | nil => exact h'
  | cons hr hb _ ih => exact .cons hr hb (ih h')

/-- One more result is read ahead. -/
theorem Reads.snoc {l l' : Lexer} {seen : List Lookahead} (h : Reads l seen.reverse l') :
    Reads l (⟨l', l'.next.1⟩ :: seen).reverse l'.next.2 := by
  rw [List.reverse_cons]
  exact h.append (.cons rfl (fun _ => rfl) (.nil _))

end Lexer

namespace TokenStream

open Lexer

/-- The stream hands out what the lexer reads. -/
def From (s : TokenStream) (l : Lexer) : Prop := Reads l s.ahead s.lexer

/-- A stream starts at its source. -/
theorem from_ofSource (source : String) : (ofSource source).From (.ofSource source) := .nil _

variable {s : TokenStream} {l : Lexer}

/-- Pulling gives the next result, read ahead or not. -/
theorem pull_spec (h : s.From l) :
    s.pull.1 = l.next.1 ∧ s.pull.2.From l.next.2 ∧ s.pull.2.ahead.length = s.ahead.length - 1 := by
  obtain ⟨lexer, ahead⟩ := s
  cases h with
  | nil => exact ⟨rfl, .nil _, rfl⟩
  | cons hr hb hRest => exact ⟨hr, hRest, rfl⟩

section Survey

variable {σ β : Type} {visit : σ → Token → σ ⊕ β}

/-- By induction on the visit: the lexer reads on until the answer, and what it reads waits in the
queue. -/
theorem surveyLexer_spec (hEnd : AnswersAtEnd visit) {front lexer : Lexer} {state : σ}
    {b : β} {n : Nat}
    {left : List Char} {seen : List Lookahead} (hVisit : Visits visit lexer state b n)
    (hFuel : lexer.remaining ≤ left.length) (hSeen : Reads front seen.reverse lexer) :
    (surveyLexer visit left seen lexer state).1 = some b ∧
      (surveyLexer visit left seen lexer state).2.From front ∧
      (surveyLexer visit left seen lexer state).2.ahead.length = seen.length + n := by
  -- on the visit; the fuel shrinks with what is left to read
  induction hVisit generalizing left seen with
  | @answer lexer state b hb =>
    have hShown : (Lookahead.mk lexer lexer.next.1).visit visit state = .inr b := hb
    unfold surveyLexer
    dsimp only
    rw [hShown]
    exact ⟨rfl, hSeen.snoc, by simp⟩
  | @goOn lexer state state' b n hr hVisit ih =>
    have hShown : (Lookahead.mk lexer lexer.next.1).visit visit state = .inl state' := hr
    have hMore : lexer.next.2.remaining < lexer.remaining := by
      rcases next_progress lexer with ⟨t, ht, hKind, -⟩ | hLess
      · -- the visit would have answered at the end of input
        obtain ⟨b, hb⟩ := hEnd state t hKind
        rw [ht, shown, significant?, Token.isTrivia, hKind] at hr
        cases hb.symm.trans hr
      · exact hLess
    cases left with
    | nil =>
      simp only [List.length_nil] at hFuel
      omega
    | cons c left =>
      unfold surveyLexer
      dsimp only
      rw [hShown]
      simp only [List.length_cons] at hFuel
      have hLeft : lexer.next.2.remaining ≤ left.length := by omega
      obtain ⟨hAnswer, hFrom, hLength⟩ := ih hLeft hSeen.snoc
      refine ⟨hAnswer, hFrom, hLength.trans ?_⟩
      simp only [List.length_cons]
      omega

/-- A survey goes through what was read ahead, and on from there. -/
theorem surveyFrom_spec (hEnd : AnswersAtEnd visit) {front middle lexer : Lexer} {state : σ} {b : β}
    {n : Nat} {seen todo : List Lookahead} (hTodo : Reads middle todo lexer)
    (hSeen : Reads front seen.reverse middle) (hVisit : Visits visit middle state b n) :
    (surveyFrom visit seen todo lexer state).1 = some b ∧
      (surveyFrom visit seen todo lexer state).2.From front ∧
      (surveyFrom visit seen todo lexer state).2.ahead.length =
        max (seen.length + todo.length) (seen.length + n) := by
  -- on what was read ahead
  induction hTodo generalizing seen state n with
  | nil lexer =>
    obtain ⟨hAnswer, hFrom, hLength⟩ := surveyLexer_spec hEnd hVisit (Nat.le_refl _) hSeen
    refine ⟨hAnswer, hFrom, hLength.trans ?_⟩
    simp only [List.length_nil]
    omega
  | @cons middle lexer entry rest hr hb hRest ih =>
    have hPassed : Reads front (entry :: seen).reverse middle.next.2 := by
      rw [List.reverse_cons]
      exact hSeen.append (.cons hr hb (.nil _))
    cases hVisit with
    | answer hShown =>
      have hEntry : entry.visit visit state = .inr b := by
        rw [← hr] at hShown
        exact hShown
      unfold surveyFrom
      rw [hEntry]
      refine ⟨rfl, hPassed.append hRest, ?_⟩
      simp only [List.reverse_cons, List.length_append, List.length_reverse, List.length_cons,
        List.length_nil]
      omega
    | @goOn _ _ state' _ n hShown hVisit =>
      have hEntry : entry.visit visit state = .inl state' := by
        rw [← hr] at hShown
        exact hShown
      unfold surveyFrom
      rw [hEntry]
      obtain ⟨hAnswer, hFrom, hLength⟩ := ih hPassed hVisit
      refine ⟨hAnswer, hFrom, hLength.trans ?_⟩
      simp only [List.length_cons]
      omega

/-- Looking ahead answers as the lexer at the front says, and leaves it there. -/
theorem survey_spec (hEnd : AnswersAtEnd visit) {state : σ} {b : β} {n : Nat} (h : s.From l)
    (hVisit : Visits visit l state b n) :
    (s.survey visit state).1 = some b ∧ (s.survey visit state).2.From l ∧
      (s.survey visit state).2.ahead.length = max s.ahead.length n := by
  have hNothing : Reads l (List.reverse []) l := .nil l
  obtain ⟨hAnswer, hFrom, hLength⟩ := surveyFrom_spec hEnd h hNothing hVisit
  refine ⟨hAnswer, hFrom, hLength.trans ?_⟩
  simp only [List.length_nil, Nat.zero_add]

end Survey

/-! ## Pulling -/

/-- The visit of a peek, which passes over so many tokens. -/
def passing (left : Nat) (t : Token) : Nat ⊕ Token :=
  if left = 0 || t.isEnd then .inr t else .inl (left - 1)

/-- Passing tokens stops at the end of input. -/
theorem answersAtEnd_passing : AnswersAtEnd passing := by
  intro left t ht
  have hEnd : t.isEnd = true := by
    rw [Token.isEnd, ht]
  refine ⟨t, if_pos ?_⟩
  rw [hEnd, Bool.or_true]

/-- Looking ahead shows the token, reads no further and stays in front of it. -/
theorem peek_spec {n count : Nat} {t : Token} (h : s.From l) (hVisit : Visits passing l n t count) :
    (s.peek n).1 = some t ∧ (s.peek n).2.From l ∧
      (s.peek n).2.ahead.length = max s.ahead.length count :=
  survey_spec answersAtEnd_passing h hVisit

theorem from_peek (n : Nat) (h : s.From l) :
    (s.peek n).2.From l := by
  obtain ⟨b, count, hVisit⟩ := exists_visits answersAtEnd_passing l n
  exact (peek_spec h hVisit).2.1

/-- Whether the bracket before the tokens, once closed, is followed by an arrow. -/
def closing (depth : Nat) (t : Token) : Nat ⊕ Bool :=
  if depth = 0 then .inr (t.isPunctuator .arrow)
  else if t.isEnd then .inr false
  else .inl (bracketStep depth t)

theorem answersAtEnd_closing : AnswersAtEnd closing := by
  intro depth t ht
  unfold closing
  split
  · exact ⟨_, rfl⟩
  · rw [Token.isEnd, ht]
    exact ⟨_, rfl⟩

/-- The search for an arrow stays in front of the lexer. -/
theorem from_closesBeforeArrow (h : s.From l) :
    s.closesBeforeArrow.2.From l := by
  obtain ⟨b, count, hVisit⟩ := exists_visits answersAtEnd_closing l 1
  exact (survey_spec answersAtEnd_closing h hVisit).2.1

/-- By induction on the results: so many pulls hand out the results up to the significant one. -/
theorem pulls_spec {rs : List Result} {t : Token} {l' : Lexer} (h : s.From l)
    (hLeads : Leads l rs t l') : (s.pulls rs.length).1 = rs ∧ (s.pulls rs.length).2.From l' ∧
      (s.pulls rs.length).2.ahead.length = s.ahead.length - rs.length := by
  induction hLeads generalizing s with
  | here hr =>
    obtain ⟨hResult, hFrom, hLength⟩ := pull_spec h
    refine ⟨?_, hFrom, hLength⟩
    show [s.pull.1] = _
    rw [hResult]
  | @pass l l' rs t hr hLeads ih =>
    obtain ⟨hResult, hFrom, hLength⟩ := pull_spec h
    obtain ⟨hResults, hAfter, hCount⟩ := ih hFrom
    refine ⟨?_, hAfter, ?_⟩
    · show s.pull.1 :: (s.pull.2.pulls rs.length).1 = _
      rw [hResult, hResults]
    · show (s.pull.2.pulls rs.length).2.ahead.length = _
      rw [hCount, hLength, List.length_cons]
      omega

/-- The queue, if it reaches that far, has the next significant token where the lexer reads it. -/
theorem length_insignificant {rs : List Result} {t : Token} {l' lexer : Lexer}
    {ahead : List Lookahead}
    (h : Reads l ahead lexer) (hLeads : Leads l rs t l') (hLength : rs.length ≤ ahead.length) :
    (ahead.takeWhile (·.significant?.isNone)).length + 1 = rs.length := by
  induction hLeads generalizing ahead with
  | @here l t hr =>
    cases h with
    | nil => cases hLength
    | @cons _ _ entry rest hEntry hb hRest =>
      have hSome : entry.significant? = some t := by
        rw [Lookahead.significant?, hEntry, hr]
      rw [List.takeWhile_cons_of_neg (by rw [hSome]; exact Bool.false_ne_true)]
      rfl
  | @pass l l' rs t hr hLeads ih =>
    cases h with
    | nil => cases hLength
    | @cons _ _ entry rest hEntry hb hRest =>
      have hNone : entry.significant? = none := by
        rw [Lookahead.significant?, hEntry, hr]
      rw [List.takeWhile_cons_of_pos (by rw [hNone]; rfl), List.length_cons, List.length_cons,
        ih hRest (Nat.le_of_succ_le_succ hLength)]

/-- Pulling up to the next significant token. -/
theorem pullSignificant_spec {rs : List Result} {t : Token} {l' : Lexer} (h : s.From l)
    (hLeads : Leads l rs t l') :
    s.pullSignificant.1 = rs ∧ s.pullSignificant.2.From l' ∧
      s.pullSignificant.2.ahead.length = s.ahead.length - rs.length := by
  have hVisit : Visits passing l 0 t rs.length := hLeads.visits rfl
  obtain ⟨-, hFrom, hLength⟩ := peek_spec h hVisit
  have hCount := length_insignificant hFrom hLeads (by omega)
  obtain ⟨hResults, hAfter, hRest⟩ := pulls_spec hFrom hLeads
  unfold pullSignificant
  dsimp only
  rw [hCount]
  refine ⟨hResults, hAfter, hRest.trans ?_⟩
  omega

end TokenStream

/-! ## Reading again -/

namespace Lexer

/-- Only divisions are spelled with a slash first. -/
theorem divide_of_spelling {p : Punctuator} (h : p.spelling.toList.head? = some '/') :
    p = .divide ∨ p = .divideAssign := by
  revert h
  cases p <;> decide

/-- The operator at a slash is a division. -/
theorem longestPunctuator_slash (rest : List Char) :
    ∃ p, longestPunctuator? ('/' :: rest) = some p ∧ (p = .divide ∨ p = .divideAssign) := by
  have hDivide : (Punctuator.all.find? (·.spelling.toList.isPrefixOf ('/' :: rest))).isSome :=
    List.find?_isSome.mpr ⟨.divide, by decide, rfl⟩
  obtain ⟨p, hp⟩ := Option.isSome_iff_exists.mp hDivide
  have hSlash := head_spelling_of_find hp
  refine ⟨p, ?_, divide_of_spelling hSlash⟩
  unfold longestPunctuator?
  rw [hp]
  obtain rfl | rfl := divide_of_spelling hSlash <;> rfl

/-- A slash that starts no comment is a division where it starts no regular expression. -/
theorem scan_allowing (templates : List Nat) (c : Char) (rest : List Char) :
    scan true templates c rest = scan false templates c rest ∨
      ∃ p, (scan false templates c rest).scanned = .token (.punctuator p) ∧
        (p = .divide ∨ p = .divideAssign) := by
  -- only a slash that begins no comment depends on the flag
  by_cases hc : c = '/'
  · subst hc
    cases hLine : rest.head? == some '/' with
    | true =>
      refine .inl ?_
      unfold scan
      rw [hLine]
      rfl
    | false =>
      cases hBlock : rest.head? == some '*' with
      | true =>
        refine .inl ?_
        unfold scan
        rw [hLine, hBlock]
        rfl
      | false =>
        obtain ⟨p, hp, hDivides⟩ := longestPunctuator_slash rest
        refine .inr ⟨p, ?_, hDivides⟩
        have hScan :
            scan false templates '/' rest = scanPunctuator templates '/' ('/' :: rest) := by
          have hName : isNameStart '/' = false := by decide +kernel
          unfold scan
          rw [hLine, hBlock, hName]
          rfl
        rw [hScan, scanPunctuator, hp]
  · refine .inl ?_
    have hSlash : (c == '/') = false := beq_eq_false_iff_ne.mpr hc
    unfold scan
    rw [hSlash]
    rfl

/-- A lexer that has read nothing significant goes on as it was told before. -/
theorem read_allowRegex (l : Lexer) {s : Scan}
    (hCounts : ∀ kind, s.significant? = some kind → kind.isTrivia = false) :
    (l.allowRegex.read s).1 = (l.read s).1 ∧ (l.allowRegex.read s).2 =
      if (significant? (l.read s).1).isSome then (l.read s).2 else (l.read s).2.allowRegex := by
  -- a token that counts decides anew how a slash is read
  have hFinish {kind : TokenKind} (hKind : kind.isTrivia = false) :
      (l.allowRegex.consume s).finish l.cursor kind = (l.consume s).finish l.cursor kind := by
    unfold finish
    rw [hKind]
    rfl
  unfold Scan.significant? at hCounts
  unfold read
  cases hScanned : s.scanned with
  | token kind =>
    cases hTrivia : kind.isTrivia with
    | true =>
      have hToken : (l.allowRegex.consume s).finish l.cursor kind =
          (((l.consume s).finish l.cursor kind).1,
            ((l.consume s).finish l.cursor kind).2.allowRegex) := by
        unfold finish
        rw [hTrivia]
        rfl
      have hPassed : significant? (.ok ((l.consume s).finish l.cursor kind).1) = none := by
        refine if_pos ?_
        rw [Token.isTrivia, kind_finish, hTrivia]
      show (.ok ((l.allowRegex.consume s).finish l.cursor kind).1 : Result) = _ ∧ _
      dsimp only
      rw [hPassed]
      exact ⟨by rw [hToken], congrArg Prod.snd hToken⟩
    | false =>
      show (.ok ((l.allowRegex.consume s).finish l.cursor kind).1 : Result) = _ ∧
        ((l.allowRegex.consume s).finish l.cursor kind).2 = _
      dsimp only
      rw [hFinish hTrivia, significant_finish hTrivia]
      exact ⟨rfl, rfl⟩
  | failure problem offset recovered =>
    rw [hScanned] at hCounts
    cases recovered with
    | some kind =>
      have hSame := hFinish (hCounts kind rfl)
      constructor
      · show (.error ⟨problem, _, some ((l.allowRegex.consume s).finish l.cursor kind).1⟩ :
          Result) = _
        rw [hSame]
        rfl
      · show ((l.allowRegex.consume s).finish l.cursor kind).2 = _
        rw [hSame]
        rfl
    | none => exact ⟨rfl, rfl⟩

/-- Unless a division is read, letting a slash start a regular expression makes no difference to
the next result. -/
theorem next_allowRegex (l : Lexer) (h : divides l.next.1 = false) :
    l.allowRegex.next.1 = l.next.1 ∧ l.allowRegex.next.2 =
      if (significant? l.next.1).isSome then l.next.2 else l.next.2.allowRegex := by
  -- the two lexers skip the same blanks and scan the same text
  cases hRest : l.skipBlank.cursor.rest with
  | nil =>
    have hAllowed : l.allowRegex.skipBlank.cursor.rest = [] := hRest
    rw [next_of_nil hRest, next_of_nil hAllowed]
    exact ⟨rfl, rfl⟩
  | cons c rest =>
    have hAllowed : l.allowRegex.skipBlank.cursor.rest = c :: rest := hRest
    rw [next_of_cons hRest] at h ⊢
    rw [next_of_cons hAllowed]
    show (l.skipBlank.allowRegex.read (scan true l.skipBlank.templates c rest)).1 = _ ∧
      (l.skipBlank.allowRegex.read (scan true l.skipBlank.templates c rest)).2 = _
    have hNotices (flag : Bool) :=
      scan_notices flag l.skipBlank.templates (unbroken_of_skipBlank hRest) rest
    cases hFlag : l.skipBlank.regexAllowed with
    | true => exact read_allowRegex l.skipBlank (hNotices true).counts
    | false =>
      rw [hFlag] at h
      rcases scan_allowing l.skipBlank.templates c rest with hSame | ⟨p, hScanned, hDivides⟩
      · rw [hSame]
        exact read_allowRegex l.skipBlank (hNotices false).counts
      · rw [read, hScanned] at h
        simp only [divides, Token.isPunctuator, kind_finish] at h
        rcases hDivides with rfl | rfl
        · cases h
        · cases h

/-- What is passed over does not count. -/
theorem significant_of_passesOver {r : Result} (h : passesOver r) : significant? r = none := by
  cases r with
  | ok t => exact if_pos h
  | error e => cases h

theorem divides_of_passesOver {r : Result} (h : passesOver r) : divides r = false := by
  cases r with
  | error e => cases h
  | ok t =>
    have hTrivia : t.kind.isTrivia := h
    unfold divides Token.isPunctuator
    cases hKind : t.kind <;> simp_all [TokenKind.isTrivia]

/-- A comment is read alike, and what comes after it is read as if nothing had come between. -/
theorem next_allowRegex_of_passesOver {l : Lexer} (h : passesOver l.next.1) :
    l.allowRegex.next = (l.next.1, l.next.2.allowRegex) := by
  obtain ⟨hResult, hAfter⟩ := next_allowRegex l (divides_of_passesOver h)
  rw [significant_of_passesOver h] at hAfter
  exact Prod.ext hResult hAfter

/-- A token other than a division is reached in the same way if a slash may start a regular
expression. -/
theorem Leads.allowRegex {l l' : Lexer} {rs : List Result} {t : Token} (h : Leads l rs t l')
    (ht : divides (.ok t) = false) : Leads l.allowRegex rs t l' := by
  -- on the results up to the token; none of them divides
  induction h with
  | @here l t hr =>
    have hOther : divides l.next.1 = false := by
      cases hNext : l.next.1 with
      | error e => rfl
      | ok u =>
        rw [hNext] at hr
        obtain rfl := Option.some.inj (Option.ite_none_left_eq_some.mp hr).2
        exact ht
    obtain ⟨hResult, hAfter⟩ := next_allowRegex l hOther
    rw [hr] at hAfter
    have hSame : l.allowRegex.next = l.next := Prod.ext hResult hAfter
    have hLeads : Leads l.allowRegex [l.allowRegex.next.1] t l.allowRegex.next.2 :=
      .here (hSame ▸ hr)
    rw [hSame] at hLeads
    exact hLeads
  | @pass l l' rs t hr hLeads ih =>
    have hOther : divides l.next.1 = false := by
      cases hNext : l.next.1 with
      | error e => rfl
      | ok u =>
        rw [hNext] at hr
        have hTrivia : u.isTrivia = true := by
          cases hu : u.isTrivia with
          | true => rfl
          | false =>
            rw [significant?, hu] at hr
            cases hr
        exact divides_of_passesOver hTrivia
    obtain ⟨hResult, hAfter⟩ := next_allowRegex l hOther
    rw [hr] at hAfter
    have hPassed : Leads l.allowRegex (l.allowRegex.next.1 :: rs) t l' :=
      .pass (hResult ▸ hr) (hAfter ▸ ih ht)
    rw [hResult] at hPassed
    exact hPassed

/-- After so many comments, the lexer reads a result that is none. -/
inductive PassesTo : Lexer → Nat → Result → Prop
  | here {l : Lexer} : passesOver l.next.1 = false → PassesTo l 0 l.next.1
  | pass {l : Lexer} {n : Nat} {r : Result} : passesOver l.next.1 → PassesTo l.next.2 n r →
    PassesTo l (n + 1) r

/-- The next significant token comes after the comments. -/
theorem PassesTo.lt_length {l l' : Lexer} {n : Nat} {r : Result} {rs : List Result} {t : Token}
    (h : PassesTo l n r) (hLeads : Leads l rs t l') : n < rs.length := by
  induction h generalizing rs with
  | here _ =>
    cases hLeads with
    | here => exact Nat.one_pos
    | pass => exact Nat.succ_pos _
  | pass hr _ ih =>
    cases hLeads with
    | here ht => cases (significant_of_passesOver hr).symm.trans ht
    | pass _ hRest => exact Nat.succ_lt_succ (ih hRest)

/-- Behind the comments there is some result. -/
theorem exists_passesTo (lexer : Lexer) : ∃ n r, PassesTo lexer n r := by
  induction lexer using read_induction with
  | step l ih =>
    cases hr : passesOver l.next.1 with
    | false => exact ⟨0, _, .here hr⟩
    | true =>
      obtain ⟨n, r, h⟩ := ih (by
        rintro ⟨t, ht, hEnd⟩
        rw [ht, passesOver, Token.isTrivia, hEnd] at hr
        cases hr)
      exact ⟨n + 1, r, .pass hr h⟩

/-- The queue begins with the comments; if it goes on, it goes on with the result after them. -/
theorem Reads.passesTo {l lexer : Lexer} {ahead : List Lookahead} {n : Nat} {r : Result}
    (h : Reads l ahead lexer) (hPasses : PassesTo l n r) :
    (ahead.length ≤ n → ahead.dropWhile Lookahead.isTrivia = [] ∧
      Reads l.allowRegex ahead lexer.allowRegex) ∧
    (n < ahead.length → ∃ entry rest, ahead.dropWhile Lookahead.isTrivia = entry :: rest ∧
      entry.result = r ∧ (ahead.takeWhile Lookahead.isTrivia).length = n ∧
      (divides r →
        Reads l.allowRegex (ahead.takeWhile Lookahead.isTrivia) entry.before.allowRegex)) := by
  -- on the comments in front of the result, side by side with what was read ahead
  induction hPasses generalizing ahead with
  | @here l hr =>
    cases h with
    | nil => exact ⟨fun _ => ⟨rfl, .nil _⟩, fun hLess => by cases hLess⟩
    | @cons _ _ entry rest hEntry hb hRest =>
      have hTrivia : ¬entry.isTrivia = true := by
        show ¬passesOver entry.result = true
        rw [hEntry, hr]
        exact Bool.false_ne_true
      refine ⟨fun hLess => (Nat.not_succ_le_zero _ hLess).elim,
        fun _ => ⟨entry, rest, ?_, hEntry, ?_, fun hDivides => ?_⟩⟩
      · rw [List.dropWhile_cons_of_neg hTrivia]
      · rw [List.takeWhile_cons_of_neg hTrivia]
        rfl
      · rw [List.takeWhile_cons_of_neg hTrivia, hb (hEntry ▸ hDivides)]
        exact .nil _
  | @pass l n r hr hPasses ih =>
    cases h with
    | nil => exact ⟨fun _ => ⟨rfl, .nil _⟩, fun hLess => by cases hLess⟩
    | @cons _ _ entry rest hEntry hb hRest =>
      have hTrivia : entry.isTrivia = true := by
        show passesOver entry.result = true
        rw [hEntry, hr]
      have hNext := next_allowRegex_of_passesOver hr
      have hNone : divides entry.result = false := by
        rw [hEntry]
        exact divides_of_passesOver hr
      have hRead {es : List Lookahead} {l' : Lexer} (hes : Reads l.next.2.allowRegex es l') :
          Reads l.allowRegex (entry :: es) l' := by
        refine .cons ?_ (fun hYes => ?_) ?_
        · rw [hNext, hEntry]
        · rw [hNone] at hYes
          cases hYes
        · rw [hNext]
          exact hes
      obtain ⟨hShort, hLong⟩ := ih hRest
      constructor
      · intro hLength
        obtain ⟨hDrop, hReads⟩ := hShort (Nat.le_of_succ_le_succ hLength)
        exact ⟨by rw [List.dropWhile_cons_of_pos hTrivia, hDrop], hRead hReads⟩
      · intro hLength
        obtain ⟨found, tail, hDrop, hResult, hTake, hReads⟩ :=
          hLong (Nat.lt_of_succ_lt_succ hLength)
        refine ⟨found, tail, ?_, hResult, ?_, fun hDivides => ?_⟩
        · rw [List.dropWhile_cons_of_pos hTrivia, hDrop]
        · rw [List.takeWhile_cons_of_pos hTrivia, List.length_cons, hTake]
        · rw [List.takeWhile_cons_of_pos hTrivia]
          exact hRead (hReads hDivides)

end Lexer

namespace TokenStream

open Lexer

/-- The next slash is read anew, unless something else was read ahead. -/
theorem allowRegex_spec {s : TokenStream} {l : Lexer} {n : Nat} {r : Result} (h : s.From l)
    (hPasses : PassesTo l n r) :
    (s.ahead.length ≤ n ∨ divides r → s.allowRegex.From l.allowRegex ∧
      s.allowRegex.ahead.length = min s.ahead.length n) ∧
    (n < s.ahead.length → divides r = false → s.allowRegex = s) := by
  obtain ⟨hShort, hLong⟩ := Reads.passesTo h hPasses
  -- the result is behind all that was read ahead, or among it
  by_cases hLength : s.ahead.length ≤ n
  · obtain ⟨hDrop, hReads⟩ := hShort hLength
    have hAllowed : s.allowRegex = { s with lexer := s.lexer.allowRegex } := by
      rw [TokenStream.allowRegex, hDrop]
    rw [hAllowed]
    refine ⟨fun _ => ⟨hReads, ?_⟩, fun hLess => by omega⟩
    exact (Nat.min_eq_left hLength).symm
  · obtain ⟨entry, rest, hDrop, hResult, hTake, hReads⟩ := hLong (by omega)
    have hDivision : entry.isDivision = divides r := by
      rw [← hResult]
      rfl
    cases hDivides : divides r with
    | true =>
      have hAllowed : s.allowRegex =
          { lexer := entry.before.allowRegex, ahead := s.ahead.takeWhile Lookahead.isTrivia } := by
        rw [TokenStream.allowRegex, hDrop]
        dsimp only
        rw [hDivision, hDivides]
        rfl
      rw [hAllowed]
      refine ⟨fun _ => ⟨hReads hDivides, ?_⟩, fun _ hNo => by cases hNo⟩
      dsimp only
      rw [hTake]
      omega
    | false =>
      have hAllowed : s.allowRegex = s := by
        rw [TokenStream.allowRegex, hDrop]
        dsimp only
        rw [hDivision, hDivides]
        rfl
      refine ⟨fun hYes => ?_, fun _ _ => hAllowed⟩
      rcases hYes with hYes | hYes
      · exact absurd hYes hLength
      · cases hYes

/-- The lexer at the front is told about slashes, unless the stream has read past the next token. -/
theorem from_allowRegex {s : TokenStream} {l : Lexer} (h : s.From l) :
    s.allowRegex.From l ∨ s.allowRegex.From l.allowRegex := by
  obtain ⟨n, r, hPasses⟩ := exists_passesTo l
  -- what was read ahead is kept, unless it is a division
  obtain ⟨hAgain, hSame⟩ := allowRegex_spec h hPasses
  by_cases hRead : s.ahead.length ≤ n ∨ divides r
  · exact .inr (hAgain hRead).1
  · rw [not_or, Nat.not_le, Bool.not_eq_true] at hRead
    rw [hSame hRead.1 hRead.2]
    exact .inl h

end TokenStream

end ScriptLint
