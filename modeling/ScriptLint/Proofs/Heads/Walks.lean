import ScriptLint.Proofs.Division.Statement
import ScriptLint.Proofs.Heads.Sessions

/-!
# What stands around the expression

Behind the expression the statement has its semicolon only, and the head the rest of a loop with an
empty body. A run that goes on reporting comes through both and reports no fault there.

- `At`: a run that goes on reporting, at a token.
- `Walk`: a parser that succeeds from such places and reports no fault.
- `walk_forConditionRest`: the rest of the loop.
- `hushed_run`: the rest of the statement.
-/

namespace ScriptLint

open Parse Grammar Lexer

/-! ## Reading fixed text -/

namespace Lexer

variable {l : Lexer} {c : Char} {rest : List Char} {p : Punctuator}

/-- A lexer before the text, with no substitution open. -/
structure Plainly (text : List Char) (l : Lexer) : Prop where
  rest : l.cursor.rest = text
  templates : l.templates = []

/-- From such a lexer a token of the kind is read, and then it is one of the others. -/
def NextIs (F : Lexer → Prop) (kind : TokenKind) (F' : Lexer → Prop) : Prop :=
  ∀ l, F l → ∃ t, l.next.1 = .ok t ∧ t.kind = kind ∧ F' l.next.2

/-- A token is read where one is scanned behind white space. -/
theorem nextIs_scan {text : List Char} {kind : TokenKind} {n : Nat}
    (hFront : text.dropWhile isSkipped = c :: rest)
    (hScan : ∀ regexAllowed, scan regexAllowed [] c rest =
    { length := n, scanned := .token kind, templates := [] }) :
    NextIs (Plainly text) kind (Plainly ((c :: rest).drop n)) := by
  intro l ⟨hRest, hTemplates⟩
  have hSkipped : l.skipBlank.cursor.rest = c :: rest := by rw [rest_skipBlank, hRest, hFront]
  have hHere := hScan l.skipBlank.regexAllowed
  rw [← hTemplates] at hHere
  obtain ⟨t, hNext, hKind, hAfter⟩ := next_token hSkipped hHere rfl
  refine ⟨t, hNext, hKind, hAfter, ?_⟩
  rw [next_of_cons hSkipped, templates_read]
  exact (congrArg Scan.templates hHere).trans hTemplates

/-- A punctuator of one character behind a blank. -/
theorem nextIs_mark (hSkip : isSkipped c = false)
    (hScan : ∀ regexAllowed, scan regexAllowed [] c rest =
      { length := 1, scanned := .token (.punctuator p), templates := [] }) :
    NextIs (Plainly (' ' :: c :: rest)) (.punctuator p) (Plainly rest) := by
  refine nextIs_scan ?_ hScan
  rw [List.dropWhile_cons_of_pos rfl, List.dropWhile_cons_of_neg (by rw [hSkip]; nofun)]

/-- Brackets are scanned by themselves when no substitution is open. -/
theorem scan_bracket (h : (c, p) ∈ [('(', .leftParen), (')', .rightParen), ('\x7b', .leftBrace),
    ('\x7d', Punctuator.rightBrace)]) (regexAllowed : Bool) : scan regexAllowed [] c rest =
      { length := 1, scanned := .token (.punctuator p), templates := [] } := by
  simp only [List.mem_cons, Prod.mk.injEq, List.not_mem_nil, or_false] at h
  have hName : isNameStart c = false := by
    rcases h with ⟨rfl, -⟩ | ⟨rfl, -⟩ | ⟨rfl, -⟩ | ⟨rfl, -⟩ <;> decide +kernel
  unfold scan
  rw [hName]
  rcases h with ⟨rfl, rfl⟩ | ⟨rfl, rfl⟩ | ⟨rfl, rfl⟩ | ⟨rfl, rfl⟩ <;> rfl

/-- What the head has behind the first semicolon. -/
theorem nextIs_headEnd :
    NextIs (Plainly headEnd.tail) (.punctuator .semicolon)
      (Plainly [' ', ')', ' ', '\x7b', ' ', '\x7d']) ∧
    NextIs (Plainly [' ', ')', ' ', '\x7b', ' ', '\x7d']) (.punctuator .rightParen)
      (Plainly [' ', '\x7b', ' ', '\x7d']) ∧
    NextIs (Plainly [' ', '\x7b', ' ', '\x7d']) (.punctuator .leftBrace) (Plainly [' ', '\x7d']) ∧
    NextIs (Plainly [' ', '\x7d']) (.punctuator .rightBrace) (Plainly []) ∧
    NextIs (Plainly []) .endOfInput (Plainly []) := by
  refine ⟨nextIs_mark rfl (scan_semicolon · [] _), nextIs_mark rfl (scan_bracket (by decide)),
    nextIs_mark rfl (scan_bracket (by decide)), nextIs_mark rfl (scan_bracket (by decide)),
    fun l ⟨hRest, hTemplates⟩ => ?_⟩
  obtain ⟨t, hNext, hKind, hAfter⟩ := next_end hRest
  refine ⟨t, hNext, hKind, hAfter, ?_⟩
  have hOther : (yielded? l.next.1).any isStructural = false := by
    rw [yielded?, significant_of_kind hNext hKind rfl, Option.map_some, hKind]
    rfl
  exact (templates_next_of_other hOther).trans hTemplates

end Lexer

namespace Heads

variable {α β : Type} {F F' : Lexer → Prop} {kind kind' : TokenKind} {s t : Session}

/-! ## Consuming a token -/

/-- Consuming a token reports no fault, if the next token follows at once. -/
theorem hush_advance {l : Lexer} {next : Token} (hFrom : s.stream.From l)
    (hNext : l.next.1 = .ok next) (hCounts : next.kind.isTrivia = false) :
    Resolved (fun t => s.Hushed t ∧ Arrives s 1 next l.next.2 t) (hush.Stops s) (advance s) := by
  obtain ⟨hGoes, hArrives⟩ :=
    advance_next (C := hush) hFrom hNext hCounts (hush_of_quiet quiet_lenient.checkConsumed)
    (fun line => hush_of_quiet (quiet_lenient.checkLinesBefore line)) fun _ _ _ _ _ =>
      .silent rfl rfl id rfl
  exact (hGoes.and hArrives).imp (fun _ => id) fun _ => And.left

/-! ## Walks -/

/-- A session that goes on reporting, at a token of the kind, with a lexer as described behind
it. -/
structure At (kind : TokenKind) (F : Lexer → Prop) (s : Session) : Prop where
  lasting : s.Lasting
  aligned : s.Aligned
  token : s.token.kind = kind
  front : ∃ l, s.stream.From l ∧ F l

/-- An aside does not leave the token. -/
theorem At.aside (h : At kind F s) (ht : s.Aside t) : At kind F t := by
  have hBearing := ht.bearing
  simp only [Session.bearing, Prod.mk.injEq] at hBearing
  obtain ⟨hStream, hToken, -, hLength, -⟩ := hBearing
  obtain ⟨text, l, hText, hFollows, hFrom, hEnds⟩ := h.aligned
  exact {
    lasting := ht.lasting h.lasting
    aligned := ⟨text, l, hText.trans hLength.symm, hFollows, hStream ▸ hFrom, hToken ▸ hEnds⟩
    token := hToken ▸ h.token
    front := hStream ▸ h.front }

/-- Where the next token is known, it is consumed without a fault, at the same level. -/
theorem At.advance (hs : At kind F s) (h : NextIs F kind' F') (hCounts : kind'.isTrivia = false) :
    ∃ t, advance s = .ok () t ∧ s.Hushed t ∧ At kind' F' t ∧ t.nesting = s.nesting ∧
      t.sourceLength = s.sourceLength := by
  obtain ⟨l, hFrom, hl⟩ := hs.front
  obtain ⟨next, hNext, hKind, hAfter⟩ := h l hl
  have hGoes := (hush_advance hFrom hNext (by rw [hKind, hCounts])).and (advance_gains hs.aligned)
  obtain ⟨⟨⟩, t, ht, ⟨hHushed, hArrives⟩, hGains, -⟩ :=
    exists_of_resolved hGoes fun t ht => ht.1.2 hs.lasting
  have hSteady := steady_passable.advance s
  rw [ht] at hSteady
  exact ⟨t, ht, hHushed,
    ⟨hHushed.lasting hs.lasting, hGains.aligned, hArrives.token ▸ hKind, _, hArrives.front,
    hAfter⟩, hSteady.nesting, hArrives.sourceLength⟩

/-- From the sessions described the parser succeeds and reports no fault. -/
def Walk (P : Session → Prop) (p : Parse α) (Q : Session → Prop) : Prop :=
  ∀ s, P s → ∃ a t, p s = .ok a t ∧ s.Hushed t ∧ Q t

namespace Walk

variable {P Q R : Session → Prop} {p : Parse α} {f : α → Parse β}

/-- One walk after the other. -/
theorem bind (hp : Walk P p Q) (hf : ∀ a, Walk Q (f a) R) : Walk P (p >>= f) R := by
  intro s hs
  obtain ⟨a, t, ht, hHushed, hThere⟩ := hp s hs
  obtain ⟨b, u, hu, hHushed', hLast⟩ := hf a t hThere
  exact ⟨b, u, (bind_of_ok ht).trans hu, hHushed.trans hHushed', hLast⟩

/-- Where the parser stays, it stays as described. -/
theorem stay (h : Resolves quiet p) : Walk (At kind F) p (At kind F) := by
  intro s hs
  obtain ⟨a, t, ht, hAside⟩ := exists_of_quiet h hs.lasting
  exact ⟨a, t, ht, hAside.hushed, hs.aside hAside⟩

/-- What is done in any outcome is an aside. -/
theorem ensuring {after : Session → Session} (h : Walk P p (At kind F))
    (hAfter : ∀ s : Session, s.Aside (after s)) : Walk P (p.ensuring after) (At kind F) := by
  intro s hs
  obtain ⟨a, t, ht, hHushed, hThere⟩ := h s hs
  exact ⟨a, after t, ensuring_of_ok ht, hHushed.trans (hAfter t).hushed, hThere.aside (hAfter t)⟩

/-- A known token is consumed. -/
theorem advance (h : NextIs F kind' F') (hCounts : kind'.isTrivia = false) :
    Walk (At kind F) Parse.advance (At kind' F') := by
  intro s hs
  obtain ⟨t, ht, hHushed, hThere, -⟩ := hs.advance h hCounts
  exact ⟨(), t, ht, hHushed, hThere⟩

/-- Whether a slash divides makes no difference, since none follows. -/
theorem advanceToStatement {text text' : List Char}
    (h : NextIs (Plainly text) kind' (Plainly text')) (hCounts : kind'.isTrivia = false) :
    Walk (At kind (Plainly text)) Parse.advanceToStatement (At kind' (Plainly text')) := by
  refine .bind (Q := At kind (Plainly text)) (fun s hs => ⟨(), _, rfl, .silent rfl rfl id rfl, ?_⟩)
    fun _ => .advance h hCounts
  obtain ⟨l, hFrom, hl⟩ := hs.front
  refine ⟨⟨hs.lasting.passfail, hs.lasting.calm, hs.lasting.halted⟩,
    (holding_allowRegex s hs.aligned).1, hs.token, ?_⟩
  rcases TokenStream.from_allowRegex hFrom with hSame | hAllowed
  · exact ⟨l, hSame, hl⟩
  · exact ⟨l.allowRegex, hAllowed, hl.rest, hl.templates⟩

/-- The kind of the current token is known. -/
theorem current {f : Token → Parse α} (h : ∀ t, t.kind = kind → Walk (At kind F) (f t) Q) :
    Walk (At kind F) (current >>= f) Q :=
  fun s hs => h s.token hs.token s hs

/-- Whether the token is a punctuator is known. -/
theorem sees {p q : Punctuator} {f : Bool → Parse α}
    (h : Walk (At (.punctuator q) F) (f (decide (q = p))) Q) :
    Walk (At (.punctuator q) F) (sees p >>= f) Q := by
  intro s hs
  have hSees : s.token.isPunctuator p = decide (q = p) := by
    rw [Token.isPunctuator, hs.token]
  rw [← hSees] at h
  exact h s hs

/-- The expected token is there. -/
theorem expect {p : Punctuator} (h : Walk (At (.punctuator p) F) Parse.advance Q) :
    Walk (At (.punctuator p) F) (expect p) Q := by
  refine .sees ?_
  rw [decide_eq_true rfl]
  exact h

theorem expectStatementClosing {p : Punctuator} (opener : Token)
    (h : Walk (At (.punctuator p) F) Parse.advanceToStatement Q) :
    Walk (At (.punctuator p) F) (expectStatementClosing p opener) Q := by
  refine .sees ?_
  rw [decide_eq_true rfl]
  exact h

end Walk

/-! ## The rest of the loop -/

variable (inner : Nested)

/-- At a closing brace a list is over. -/
theorem walk_statementList : Walk (At (.punctuator .rightBrace) F) (statementList inner .brace)
    (At (.punctuator .rightBrace) F) := by
  intro s hs
  obtain ⟨n, hn⟩ := Nat.exists_eq_add_one.mpr hs.aligned.budget_pos
  have hEnd : ListEnd.isAt .brace s.token = true := by
    rw [ListEnd.isAt, Token.isEnd, Token.isPunctuator, hs.token]
    rfl
  have hRound : listRound inner .brace {} s = .ok (.done {}) s := by
    show (if ListEnd.isAt .brace s.token then _ else _ : Parse (Round ListState)) s = _
    rw [hEnd]
    rfl
  have hLoop : loop (listRound inner .brace) {} s = .ok {} s := by
    show rounds (listRound inner .brace) s.budget {} s = _
    rw [hn]
    exact bind_of_ok hRound
  exact ⟨0, s, bind_of_ok hLoop, .refl s, hs⟩

/-- An empty block. -/
theorem walk_insideBlock (opener : Token) : Walk (At (.punctuator .rightBrace) F)
    (insideBlock opener (statementList inner .brace)) (At (.punctuator .rightBrace) F) := by
  have hEnter : Resolves quiet (enterBlock opener) :=
    .bind (.modify fun _ => .silent rfl rfl id rfl) fun _ => .read fun _ =>
      .ite _ (quiet_emit rfl) (.pure ())
  have hFrame : Resolves quiet (modifyScopes fun scopes _ => scopes.enter .block) :=
    .modify fun _ => .silent rfl rfl id rfl
  refine .bind (.stay hEnter) fun _ => .ensuring (.bind (.stay hFrame) fun _ => ?_) fun _ =>
    .silent rfl rfl id rfl
  exact .ensuring (walk_statementList inner) fun s => .silent rfl rfl (·.exit s.layers) rfl

/-- The empty body. -/
theorem walk_block : Walk (At (.punctuator .leftBrace) (Plainly [' ', '\x7d'])) (block inner)
    (At .endOfInput (Plainly [])) := by
  obtain ⟨-, -, -, hBrace, hEnd⟩ := nextIs_headEnd
  refine .current fun opener _ => .bind (.advance hBrace rfl) fun _ => ?_
  refine .bind (walk_insideBlock inner opener) fun count =>
    .bind (.stay quiet_flushScopes) fun _ => ?_
  have hClose :
      Walk (At (.punctuator .rightBrace) (Plainly [])) (expectStatementClosing .rightBrace opener)
      (At .endOfInput (Plainly [])) :=
    .expectStatementClosing opener (.advanceToStatement hEnd rfl)
  by_cases hCount : count = 0
  · rw [if_pos hCount]
    exact .bind (.stay (quiet_lenient.warnIf _ _ _ rfl)) fun _ => hClose
  · rw [if_neg hCount]
    exact hClose

/-- The loop's empty body, up to the end of input. -/
theorem walk_loopBody : Walk (At (.punctuator .leftBrace) (Plainly [' ', '\x7d'])) (loopBody inner)
    (At .endOfInput (Plainly [])) := by
  have hBody : Walk (At (.punctuator .leftBrace) (Plainly [' ', '\x7d'])) (body inner)
      (At .endOfInput (Plainly [])) := by
    refine .current fun t ht => ?_
    have hBrace : t.isPunctuator .leftBrace = true := by
      rw [Token.isPunctuator, ht]
      rfl
    rw [hBrace]
    exact walk_block inner
  have hInside : Resolves quiet (modify (withLoops (· + 1))) :=
    .modify fun _ => .silent rfl rfl id rfl
  exact .bind (.stay hInside) fun _ => .ensuring hBody fun _ => .silent rfl rfl id rfl

/-- A loop without condition and step. -/
theorem walk_forConditionRest (opener : Token) :
    Walk (At (.punctuator .semicolon) (Plainly headEnd.tail)) (forConditionRest inner opener)
      (At .endOfInput (Plainly [])) := by
  obtain ⟨hSecond, hParen, hBrace, -⟩ := nextIs_headEnd
  refine .bind (.expect (.advance hSecond rfl)) fun _ => .sees ?_
  refine .bind (.expect (.advance hParen rfl)) fun _ => .sees ?_
  refine .bind (.expectStatementClosing opener (.advanceToStatement hBrace rfl)) fun _ => ?_
  exact walk_loopBody inner

/-! ## The rest of the statement -/

/-- A run that is stopped does not go on from a session that goes on reporting. -/
theorem hushed_of_stops (h : hush.Stops s t) :
    s.Hushed t := ⟨h.1, fun hs => absurd hs h.2, fun hs => absurd hs h.2⟩

/-- The end of a run reports no fault. -/
theorem hushed_finish (s : Session) : s.Hushed (left (finish s)) := by
  let settled : Session := { s with scopes := (s.scopes.finish s.layers).2 }
  have hSettled : s.Hushed settled := .silent rfl rfl (·.finish s.layers) rfl
  have hLast : Resolves hush (lastChecks s) :=
    .bind (hush_of_quiet (quiet_lenient.checkLinesBefore _)) fun _ =>
      hush_of_quiet quiet_flushScopes
  rw [finish_eq]
  exact hSettled.trans ((hLast settled).imp (fun _ => id) fun _ => hushed_of_stops).settles.left

/-- An aside does not leave the last token. -/
theorem atLast_aside (hs : Division.AtLast s) (h : s.Aside t) : Division.AtLast t := by
  have hBearing := h.bearing
  simp only [Session.bearing, Prod.mk.injEq] at hBearing
  obtain ⟨hStream, hToken, -⟩ := hBearing
  unfold Division.AtLast at hs ⊢
  rw [hToken, hStream]
  exact hs

/-- Behind the first expression, if nothing follows it, a run finishes no function and reports no
fault. -/
theorem hushed_run {l : Lexer} {rest : List Char} (hNesting : s.nesting = 0) (hAligned : s.Aligned)
    (hFrom : s.stream.From l) (hRest : l.cursor.rest = 'x' :: ' ' :: '=' :: ' ' :: rest)
    (h : Division.EndsIn t (firstExpression s)) : t.Hushed (left (run [] s)) := by
  refine Division.of_run hNesting hAligned hFrom hRest h (.refl t) (fun hLast e => ?_)
    (fun u l last hu hNext hToken hKind => ?_) (fun u hu => hu.trans (.silent rfl rfl id rfl))
    fun u hu => hu.trans (hushed_finish u)
  · refine (quiet_lenient.checkExpressionStatement e t).imp (fun u hu => ?_) fun _ =>
      hushed_of_stops
    exact ⟨atLast_aside hLast hu, hu.hushed⟩
  · refine (hush_advance hNext hToken (by rw [hKind]; rfl)).imp (fun v ⟨hHushed, hArrives⟩ => ?_)
      fun _ hv => hu.trans (hushed_of_stops hv)
    refine ⟨hu.trans hHushed, ?_⟩
    rw [hArrives.token, Token.isEnd, hKind]

end Heads

end ScriptLint
