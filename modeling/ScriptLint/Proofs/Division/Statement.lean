import ScriptLint.Proofs.Division.Operators
import ScriptLint.Proofs.Nesting
import ScriptLint.Proofs.Progress.Sessions

/-!
# Dividing what is assigned

An expression is assigned to a name, by itself and divided by another name. If its last token ends a
value, the slash behind it is a division, and nothing about lexing or syntax is reported that was
not reported without it, unless the division brings the program beyond the deepest level. The lexer
decides by the last token alone, so that after an increment the same slash starts a regular
expression.

- `Parse.firstExpression`: a program that starts with a name, up to the end of its first expression.
- `Division.spares_run`: what a run still does behind that expression.
- `Division.IsExpression`, `Division.lastToken?`: what an expression that is assigned ends with.
- `Division.quotient_readable`, `Division.quotient_misread`: a slash after a value, and after other
  tokens.
-/

namespace ScriptLint

/-! ## Tokens -/

namespace Lexer

variable {l : Lexer} {rest : List Char}

/-- The first token is the name assigned to. -/
theorem next_target (h : l.cursor.rest = 'x' :: ' ' :: rest) :
    ∃ t, l.next.1 = .ok t ∧ t.kind = .identifier "x" ∧ l.next.2.cursor.rest = ' ' :: rest := by
  have hRest : l.skipBlank.cursor.rest = 'x' :: ' ' :: rest := by
    rw [rest_skipBlank, h]
    rfl
  have hName : isNameStart 'x' = true := by decide +kernel
  have hScan : scan l.skipBlank.regexAllowed l.skipBlank.templates 'x' (' ' :: rest) =
      scanWord l.skipBlank.templates ('x' :: ' ' :: rest) := by
    unfold scan
    rw [hName]
    rfl
  rw [scanWord_letter (by decide +kernel) (by decide +kernel) (by decide)
    (by decide +kernel)] at hScan
  exact next_token hRest hScan rfl

/-- The second one is the assignment's sign. -/
theorem next_assign (h : l.cursor.rest = ' ' :: '=' :: ' ' :: rest) :
    ∃ t, l.next.1 = .ok t ∧ t.kind = .punctuator .assign := by
  have hRest : l.skipBlank.cursor.rest = '=' :: ' ' :: rest := by
    rw [rest_skipBlank, h]
    rfl
  have hName : isNameStart '=' = false := by decide +kernel
  have hFound : longestPunctuator? ('=' :: ' ' :: rest) = some .assign := rfl
  have hScan : scan l.skipBlank.regexAllowed l.skipBlank.templates '=' (' ' :: rest) =
      scanPunctuator l.skipBlank.templates '=' ('=' :: ' ' :: rest) := by
    unfold scan
    rw [hName]
    rfl
  rw [scanPunctuator, hFound] at hScan
  obtain ⟨t, hNext, hKind, -⟩ := next_token hRest hScan rfl
  exact ⟨t, hNext, hKind⟩

end Lexer

open Grammar

namespace Parse

/-- What is done at the name that starts a program before its first expression is read: the
statement counts, and the name is no label. -/
def enterStatement : Parse Unit := do
  modify fun s => { s with nesting := s.nesting + 1 }
  discard (peekIs (·.isPunctuator .colon))
  modifyMetrics Metrics.addStatement

/-- A program that starts with a name, up to the end of its first expression. -/
def firstExpression : Parse Summary := do
  advance
  enterStatement
  (levels (maxNesting - 1)).wholeExpression

end Parse

namespace Division

open Parse

/-! ## Behind the expression -/

/-- Nothing follows the semicolon at which the run is. -/
def AtLast (s : Session) : Prop :=
  s.token.kind = .punctuator .semicolon ∧ ∃ l, s.stream.From l ∧ l.cursor.rest = []

/-- The expression ends at the last semicolon, or the run stops in it. -/
def EndsIn (t : Session) (r : EStateM.Result Abort Session Summary) : Prop :=
  (∃ e, r = .ok e t ∧ AtLast t) ∨ r = .error .halt t

theorem AtLast.stands {s t : Session} (hs : AtLast s) (h : s.Stands True t) : AtLast t := by
  unfold AtLast at hs ⊢
  rw [h.token, h.stream]
  exact hs

/-- The semicolon that ends the source is consumed, and the end of input follows. -/
theorem consumeSemicolon_last {s : Session} (hs : AtLast s) {goes stops : Session → Prop}
    (h : ∀ l last, s.stream.From l → l.next.1 = .ok last → last.kind = .endOfInput →
      Resolved goes stops (advance s)) : Resolved goes stops (consumeSemicolon s) := by
  obtain ⟨hToken, l, hFrom, hRest⟩ := hs
  obtain ⟨last, hNext, hKind, -⟩ := Lexer.next_end hRest
  have hSees : sees .semicolon s = .ok true s := by
    show EStateM.Result.ok (s.token.isPunctuator .semicolon) s = _
    rw [Token.isPunctuator, hToken]
    rfl
  have hEat : eat .semicolon s = (do advance; return true : Parse Bool) s := by
    show (sees .semicolon >>= _) s = _
    rw [bind_of_ok hSees]
    rfl
  have hAdvance := h l last hFrom hNext hKind
  show Resolved _ _ ((eat .semicolon >>= _) s)
  cases hr : advance s with
  | ok u t =>
    rw [hr] at hAdvance
    rw [bind_of_ok (hEat.trans (bind_of_ok hr))]
    exact hAdvance
  | error e t =>
    rw [hr] at hAdvance
    rw [bind_of_error (hEat.trans (bind_of_error hr))]
    cases e with
    | badSyntax => exact hAdvance
    | halt => exact hAdvance

/-- What holds where the expression ends, at the last semicolon or where the run stops, holds behind
the statement. -/
theorem expressionStatement_last {P : Session → Prop} {inner : Nested} {s t : Session}
    (h : EndsIn t (inner.wholeExpression s)) (hHere : P t)
    (hCheck : AtLast t → ∀ e, Resolved (fun u => AtLast u ∧ P u) P (checkExpressionStatement e t))
    (hConsume : ∀ u l last, P u → u.stream.From l → l.next.1 = .ok last → last.kind = .endOfInput →
      Resolved (fun v => P v ∧ v.token.isEnd = true) P (advance u)) :
    Resolved (fun u => P u ∧ u.token.isEnd = true) P (expressionStatement inner s) := by
  show Resolved _ _ ((inner.wholeExpression >>= _) s)
  rcases h with ⟨e, he, hLast⟩ | hHalt
  · rw [bind_of_ok he]
    refine (hCheck hLast e).bind (fun _ u hu => ?_) fun _ => id
    exact consumeSemicolon_last hu.1 fun l last => hConsume u l last hu.2
  · rw [bind_of_error hHalt]
    exact hHere

/-! ## The first statement -/

/-- The run is at the name with which the program starts. -/
structure Opened (s : Session) : Prop where
  token : s.token.kind = .identifier "x"
  nesting : s.nesting = 0
  aligned : s.Aligned
  front : ∃ l rest, s.stream.From l ∧ l.cursor.rest = ' ' :: '=' :: ' ' :: rest

/-- The first token of the source opens the statement. -/
theorem advance_opens {s : Session} {l : Lexer} {rest : List Char} (hNesting : s.nesting = 0)
    (hAligned : s.Aligned) (hFrom : s.stream.From l)
    (hRest : l.cursor.rest = 'x' :: ' ' :: '=' :: ' ' :: rest) :
    Resolved Opened (fun _ => True) (advance s) := by
  obtain ⟨target, hNext, hKind, hAfter⟩ := Lexer.next_target hRest
  have hLeads : Lexer.Leads l [l.next.1] target l.next.2 :=
    .here (Lexer.significant_of_kind hNext hKind rfl)
  have hSteady := steady_passable.advance s
  have hGoes := (advance_arrives hFrom hLeads).and (advance_gains hAligned)
  cases hr : advance s with
  | ok u t =>
    rw [hr] at hSteady hGoes
    exact ⟨hGoes.1.token ▸ hKind, hSteady.nesting.trans hNesting, hGoes.2.1.aligned, _, rest,
      hGoes.1.front, hAfter⟩
  | error e t =>
    rw [hr] at hGoes
    cases e with
    | badSyntax => exact hGoes
    | halt => exact trivial

/-- At the outermost level a statement is read one level deeper. -/
theorem statement_deeper {s m : Session} (hNesting : s.nesting = 0) {p : Parse Flow}
    (h : Grammar.statement (levels (maxNesting - 1)) { s with nesting := s.nesting + 1 } = p m) :
    (levels maxNesting).statement s =
    p.ensuring (fun s => { s with nesting := s.nesting - 1 }) m := by
  have hBelow : s.nesting < maxNesting := by
    rw [hNesting]
    decide
  show (if s.nesting <
    maxNesting then below (Grammar.statement (levels (maxNesting - 1))) else tooDeep
    : Parse Flow) s = _
  rw [if_pos hBelow]
  show (Grammar.statement (levels (maxNesting - 1))).ensuring _
    { s with nesting := s.nesting + 1 } = _
  rw [ensuring, ensuring, h]

/-- The name that starts the program starts an expression. -/
theorem statement_eq {s : Session} (hs : Opened s) : ∃ m, enterStatement s = .ok () m ∧
    (levels maxNesting).statement s =
      ((do expressionStatement (levels (maxNesting - 1)); return Flow.normal : Parse Flow).ensuring
        fun s => { s with nesting := s.nesting - 1 }) m := by
  -- the name is no label, so the statement is an expression
  obtain ⟨l, rest, hFrom, hRest⟩ := hs.front
  obtain ⟨t, hNext, hKind⟩ := Lexer.next_assign hRest
  let inside : Session := { s with nesting := s.nesting + 1 }
  have hPeek : peekIs (·.isPunctuator .colon) inside =
      .ok (t.isPunctuator .colon) { inside with stream := (s.stream.peek 0).2 } :=
    peekIs_eq hFrom hNext (by rw [hKind]; rfl)
  have hColon : t.isPunctuator .colon = false := by
    rw [Token.isPunctuator, hKind]
    rfl
  rw [hColon] at hPeek
  let counted : Session := { inside with
    stream := (s.stream.peek 0).2, metrics := s.metrics.addStatement }
  have hRun : Grammar.statement (levels (maxNesting - 1)) inside =
      (do expressionStatement (levels (maxNesting - 1)); return Flow.normal : Parse Flow)
        counted := by
    have hName : s.token.identifier?.isSome = true := by
      rw [Token.identifier?, hs.token]
      rfl
    show (if s.token.identifier?.isSome then peekIs (·.isPunctuator .colon) >>= _ else
      _ : Parse Flow) inside = _
    rw [if_pos hName, bind_of_ok hPeek]
    show (unlabeledStatement (levels (maxNesting - 1)) s.token) _ = _
    unfold unlabeledStatement plainStatement
    rw [hs.token]
    rfl
  refine ⟨counted, ?_, statement_deeper hs.nesting hRun⟩
  show (discard (peekIs (·.isPunctuator .colon)) >>= fun _ => modifyMetrics Metrics.addStatement)
    inside = _
  rw [discard_eq_bind, bind_assoc, bind_of_ok hPeek]
  rfl

/-- Only strings belong to a prologue. -/
theorem prologue_eq {s : Session} (hString : isString s.token = false) (hAligned : s.Aligned) :
    prologue s = .ok () s := by
  obtain ⟨n, hn⟩ := Nat.exists_eq_add_one.mpr hAligned.budget_pos
  have hRound : prologueRound () s = .ok (.done ()) s := by
    show (if !isString s.token then _ else _ : Parse (Round Unit)) s = _
    rw [hString]
    rfl
  show rounds prologueRound s.budget () s = _
  rw [hn]
  show (prologueRound () >>= _) s = _
  rw [bind_of_ok hRound]
  rfl

/-- What never gives up need not recover. -/
theorem resolved_recover {α : Type} {p q : Parse α} {s : Session} {goes stops : Session → Prop}
    (h : Resolved goes stops (p s)) : Resolved goes stops (p.recover q s) := by
  cases hr : p s with
  | ok a t =>
    rw [hr] at h
    rw [recover_of_ok hr]
    exact h
  | error e t =>
    rw [hr] at h
    cases e with
    | badSyntax => exact h.elim
    | halt =>
      rw [recover_of_halt hr]
      exact h

/-- The first round of a list reads the statement. -/
theorem listRound_resolved {s : Session} (hStart : s.token.isEnd = false ∧
    s.token.isPunctuator .rightBrace = false)
    {goes stops : Session → Prop} (h : Resolved goes stops ((levels maxNesting).statement s)) :
    Resolved goes stops (listRound (levels maxNesting) .program {} s) := by
  have hStatement : Resolved goes stops (listStatement (levels maxNesting) {} s) := by
    show Resolved _ _ ((recover (levels maxNesting).statement _ >>= _) s)
    refine (resolved_recover h).bind (fun flow t ht => ?_) fun _ => id
    cases flow with
    | normal => exact ht
    | jump j => exact ht
  have hEnd : ListEnd.isAt .program s.token = false := by
    rw [ListEnd.isAt, hStart.1]
    rfl
  show Resolved _ _ ((if ListEnd.isAt .program s.token then _
    else if decide (ListEnd.program = .program) && s.token.isPunctuator .rightBrace then _ else _
    : Parse (Round ListState)) s)
  rw [hEnd, hStart.2]
  exact hStatement.bind (fun _ _ => id) fun _ => id

/-- At the end of input a list ends, or has no rounds left. -/
theorem listRounds_end {t : Session} (ht : t.token.isEnd = true) {P : Session → Prop}
    (h : P t) (n : Nat)
    (state : ListState) :
    Resolved P P (rounds (listRound (levels maxNesting) .program) n state t) := by
  cases n with
  | zero => exact h
  | succ n =>
    have hDone : listRound (levels maxNesting) .program state t = .ok (.done state) t := by
      show (if ListEnd.isAt .program t.token then _ else _ : Parse (Round ListState)) t = _
      rw [ListEnd.isAt, ht]
      rfl
    show Resolved _ _ ((listRound (levels maxNesting) .program state >>= _) t)
    rw [bind_of_ok hDone]
    exact h

/-- After the only statement of a program its list ends. -/
theorem statementList_resolved {s : Session} (hAligned : s.Aligned)
    (hStart : s.token.isEnd = false ∧ s.token.isPunctuator .rightBrace = false) {P : Session → Prop}
    (h : Resolved (fun t => P t ∧ t.token.isEnd = true) P ((levels maxNesting).statement s)) :
    Resolved P P (statementList (levels maxNesting) .program s) := by
  obtain ⟨n, hn⟩ := Nat.exists_eq_add_one.mpr hAligned.budget_pos
  have hLoop : Resolved P P (loop (listRound (levels maxNesting) .program) {} s) := by
    show Resolved _ _ (rounds (listRound (levels maxNesting) .program) s.budget {} s)
    rw [hn]
    refine (listRound_resolved hStart h).bind (fun r t ht => ?_) fun _ => id
    cases r with
    | done state => exact ht.1
    | again state => exact listRounds_end ht.2 ht.1 n state
  exact hLoop.bind (fun _ _ => id) fun _ => id

/-! ## The whole run -/

/-- The end of a run forgets nothing and finds nothing harmful. -/
theorem spares_finish (s : Session) : s.Spares (left (finish s)) := by
  let settled : Session := { s with scopes := (s.scopes.finish s.layers).2 }
  have hSettled : s.Spares settled := ⟨fun _ => id, fun hs => ⟨hs.calm.finish s.layers, hs.clean⟩⟩
  have hLast : Resolves (standing True) (lastChecks s) :=
    .bind (standing_checkLinesBefore _) fun _ => standing_flushScopes
  rw [finish_eq]
  exact hSettled.trans (hLast settled).settles.left.spares

/-- What holds behind the only statement of a program, and is kept by the end of the run, holds
there. -/
theorem run_of_statement {P : Session → Prop} {s m : Session} (hAdvance : advance s = .ok () m)
    (hAligned : m.Aligned) (hString : isString m.token = false)
    (hStart : m.token.isEnd = false ∧ m.token.isPunctuator .rightBrace = false)
    (h : Resolved (fun t => P t ∧ t.token.isEnd = true) P ((levels maxNesting).statement m))
    (hFinish : ∀ u, P u → P (left (finish u))) : P (left (run [] s)) := by
  have hProgram : P (left (program [] s)) := by
    show P (left ((advance >>= _) s))
    rw [bind_of_ok hAdvance]
    show P (left ((prologue >>= _) m))
    rw [bind_of_ok (prologue_eq hString hAligned)]
    have hList := (statementList_resolved hAligned hStart h).bind
      (f := fun _ => (pure () : Parse Unit)) (fun _ _ => id) fun _ => id
    rw [discard_eq_bind]
    exact hList.settles.left
  rw [run_eq]
  exact hFinish _ hProgram

/-- What holds where the first expression ends, if nothing follows it, holds at the end of the run,
provided that the checks of its statement, the step to the end of input and the end of the run keep
it. -/
theorem of_run {P : Session → Prop} {s t : Session} {l : Lexer} {rest : List Char}
    (hNesting : s.nesting = 0) (hAligned : s.Aligned) (hFrom : s.stream.From l)
    (hRest : l.cursor.rest = 'x' :: ' ' :: '=' :: ' ' :: rest) (h : EndsIn t (firstExpression s))
    (hHere : P t)
    (hCheck : AtLast t → ∀ e, Resolved (fun u => AtLast u ∧ P u) P (checkExpressionStatement e t))
    (hConsume : ∀ u l last, P u → u.stream.From l → l.next.1 = .ok last → last.kind = .endOfInput →
      Resolved (fun v => P v ∧ v.token.isEnd = true) P (advance u))
    (hStays : ∀ u, P u → P { u with nesting := u.nesting - 1 })
      (hFinish : ∀ u, P u → P (left (finish u))) :
    P (left (run [] s)) := by
  -- the first token, the statement, and the loop over statements at the end of input
  have hOpens := advance_opens hNesting hAligned hFrom hRest
  have hEnds : EndsIn t ((advance >>= _) s) := h
  cases hr : advance s with
  | error e m =>
    have hProgram : P (left (program [] s)) := by
      show P (left ((advance >>= _) s))
      rw [bind_of_error hr] at hEnds ⊢
      rcases hEnds with ⟨_, hOk, -⟩ | hHalt
      · cases hOk
      · cases hHalt
        exact hHere
    rw [run_eq]
    exact hFinish _ hProgram
  | ok u m =>
    rw [hr] at hOpens
    rw [bind_of_ok hr] at hEnds
    obtain ⟨n, hEnter, hEq⟩ := statement_eq hOpens
    rw [bind_of_ok hEnter] at hEnds
    have hFirst :
        Resolved (fun u => P u ∧ u.token.isEnd = true) P ((levels maxNesting).statement m) := by
      have hWhole := (expressionStatement_last hEnds hHere hCheck hConsume).bind
        (f := fun _ => (pure Flow.normal : Parse Flow)) (fun _ _ => id) fun _ => id
      rw [hEq]
      exact hWhole.ensuring (fun u hu => ⟨hStays u hu.1, hu.2⟩) hStays
    refine run_of_statement hr hOpens.aligned (by rw [isString, hOpens.token]) ?_ hFirst hFinish
    rw [Token.isEnd, Token.isPunctuator, hOpens.token]
    exact ⟨rfl, rfl⟩

/-- Behind the first expression, if nothing follows it, a run forgets nothing and finds nothing
harmful. -/
theorem spares_run {s t : Session} {l : Lexer} {rest : List Char} (hNesting : s.nesting = 0)
    (hAligned : s.Aligned) (hFrom : s.stream.From l)
    (hRest : l.cursor.rest = 'x' :: ' ' :: '=' :: ' ' :: rest) (h : EndsIn t (firstExpression s)) :
    t.Spares (left (run [] s)) := by
  refine of_run hNesting hAligned hFrom hRest h (.refl t) (fun hLast e => ?_)
    (fun u l last hu hNext hToken hKind => ?_)
    (fun u hu => ?_) fun u hu => hu.trans (spares_finish u)
  · exact (standing_lenient.checkExpressionStatement e t).imp
      (fun u hu => ⟨hLast.stands hu, hu.spares⟩) fun _ => Session.Stands.spares
  · refine (advance_spares hNext hToken (by rw [hKind]; rfl)).imp (fun v hv => ⟨hu.trans hv.1, ?_⟩)
      fun _ => hu.trans
    rw [hv.2.token, Token.isEnd, hKind]
  · exact ⟨hu.kept, fun ht => ⟨(hu.unharmed ht).calm, (hu.unharmed ht).clean⟩⟩

/-! ## Both runs -/

/-- The expression of the first statement ends alike in both sources. -/
theorem closes_firstExpression (stop : Nat) :
    Closes stop (Tight 0) firstExpression firstExpression := by
  have hPeek : Lockstep stop (peekIs (·.isPunctuator .colon)) (peekIs (·.isPunctuator .colon)) := by
    refine (lockstep stop).peekIs ?_
    rintro t - (h | h) <;> simp [Token.isPunctuator, h]
  have hEnter : Lockstep stop enterStatement enterStatement := by
    refine .bind (.modify (still_apart fun _ _ _ _ _ => rfl)) fun _ => ?_
    exact .bind ((lockstep stop).discard hPeek) fun _ => .modify (still_apart fun _ _ _ _ _ => rfl)
  exact .prepend .advance fun _ => .prepend hEnter fun _ => (settled_levels stop _).expression 0

/-- The program that assigns the text to a name. -/
def assigning (text : String) : String := "x = " ++ text ++ ";"

/-- The program that assigns the text divided by another name. -/
def assigningQuotient (text : String) : String := "x = " ++ text ++ " / y;"

/-- The session in which the text, read as an expression that is assigned, has come to the semicolon
behind it. -/
def expressionEnd? (text : String) : Option Session :=
  match firstExpression (.start (assigning text) {} none) with
  | .ok _ t =>
    if t.token.isPunctuator .semicolon && t.token.offset == ("x = " ++ text).length then some t
    else none
  | .error _ _ => none

/-- The text is an expression that can be assigned. -/
def IsExpression (text : String) : Prop := (expressionEnd? text).isSome = true

instance (text : String) : Decidable (IsExpression text) :=
  inferInstanceAs (Decidable ((expressionEnd? text).isSome = true))

/-- The last token of an expression. -/
def lastToken? (text : String) : Option Token := (expressionEnd? text).map (·.previous)

theorem exists_of_expressionEnd {text : String} {t : Session} (h : expressionEnd? text = some t) :
    (∃ e, firstExpression (.start (assigning text) {} none) = .ok e t) ∧
      t.token.kind = .punctuator .semicolon ∧ t.token.offset = ("x = " ++ text).length := by
  unfold expressionEnd? at h
  split at h
  · next e u hu =>
    obtain ⟨hPlace, hSame⟩ := Option.ite_none_right_eq_some.mp h
    obtain rfl := Option.some.inj hSame
    obtain ⟨hToken, hOffset⟩ := Bool.and_eq_true_iff.mp hPlace
    refine ⟨⟨e, hu⟩, ?_, beq_iff_eq.mp hOffset⟩
    unfold Token.isPunctuator at hToken
    split at hToken
    · next p hp => rw [hp, of_decide_eq_true hToken]
    · cases hToken
  · cases h

/-- Nothing about lexing or syntax is reported. -/
def Readable (source : String) : Prop :=
  ∀ d ∈ (lint source {} none).diagnostics, d.phase ≠ .lexical ∧ d.phase ≠ .syntactic

instance (source : String) : Decidable (Readable source) :=
  inferInstanceAs
    (Decidable (∀ d ∈ (lint source {} none).diagnostics, d.phase ≠ .lexical ∧ d.phase ≠ .syntactic))

/-- The program is nested too deeply, and nothing else about lexing or syntax is reported. -/
def OnlyTooDeep (source : String) : Prop :=
  NestsBeyond maxNesting source {} none ∧
    ∀ d ∈ (lint source {} none).diagnostics, d.phase = .lexical ∨ d.phase =
      .syntactic → d.code = "E041"

/-- What both programs start with. -/
def shared (text : String) : List Char := 'x' :: ' ' :: '=' :: ' ' :: text.toList

theorem toList_assigning (text : String) : (assigning text).toList = shared text ++ [';'] := by
  rw [assigning, String.toList_append, String.toList_append]
  rfl

theorem toList_assigningQuotient (text : String) :
    (assigningQuotient text).toList = shared text ++ Lexer.division := by
  rw [assigningQuotient, String.toList_append, String.toList_append]
  rfl

/-- The stop stands behind the shared text. -/
theorem length_shared (text : String) : (shared text).length = ("x = " ++ text).length := by
  rw [← String.length_toList, String.toList_append]
  rfl

/-- A source that names no interpreter is read from its start. -/
theorem ofSource_eq {source : String} {c : Char} {rest : List Char} (hc : c ≠ '#')
    (h : source.toList = c :: rest) :
    Lexer.ofSource source = { cursor := { rest := c :: rest } } := by
  unfold Lexer.ofSource
  rw [h]
  dsimp only
  split
  · next hHash => exact absurd (List.cons.inj hHash).1 hc
  · rfl

/-- Before the first token is read, the two runs are abreast. -/
theorem abreast_start {text : String} (hLine : text.toList.any Text.isLineTerminator = false) :
    Abreast ("x = " ++ text).length (.start (assigning text) {} none)
      (.start (assigningQuotient text) {} none) := by
  have hHere := ofSource_eq (by decide) (toList_assigning text)
  have hThere := ofSource_eq (by decide) (toList_assigningQuotient text)
  have hTwin : Lexer.Twin ("x = " ++ text).length (shared text) (.ofSource (assigning text))
      (.ofSource (assigningQuotient text)) := by
    rw [hHere, hThere]
    -- both sources begin with the shared text, on the first line
    refine ⟨rfl, rfl, fun c hc => ?_, rfl, (Nat.zero_add _).trans (length_shared text), rfl⟩
    simp only [shared, List.mem_cons] at hc
    rcases hc with rfl | rfl | rfl | rfl | hc
    · rfl
    · rfl
    · rfl
    · rfl
    · exact Bool.eq_false_iff.mpr (List.any_eq_false.mp hLine c hc)
  obtain ⟨count, hTwins⟩ := hTwin.exists_twins
  have hLonger : (assigning text).length ≤ (assigningQuotient text).length := by
    rw [← String.length_toList, ← String.length_toList, toList_assigning, toList_assigningQuotient,
      List.length_append, List.length_append]
    exact Nat.add_le_add_left (by decide) _
  have hStart : 0 < ("x = " ++ text).length := by
    rw [← length_shared]
    exact Nat.succ_pos _
  refine ⟨hStart, count, _, _, ⟨⟨_, _, _, _, rfl, .refl _⟩, hLonger, fun f hf => ?_,
    TokenStream.from_ofSource _, TokenStream.from_ofSource _, hTwins, .inl rfl⟩, ?_⟩
  · cases hf
  · rw [hHere]
    rfl

/-- A run's diagnostics are those of the final journal. -/
theorem diagnostics_lint (source : String) : (lint source {} none).diagnostics =
    (left (run [] (.start source {} none))).journal.diagnostics := by
  have hNone : (Setting.Layers.ofOptions {}).2 = [] := rfl
  rw [lint, hNone]
  cases run [] (.start source {} none) with
  | ok names s => rfl
  | error e s => rfl

/-- Only a program that is nested too deeply is reported as unrecoverable. -/
theorem nestsBeyond_of_mem {source : String} {options : Options}
    {globals : Option Predefined.Globals}
    {d : Diagnostic} (hd : d ∈ (lint source options globals).diagnostics)
    (hCode : d.code = "E041") : NestsBeyond maxNesting source options globals := by
  obtain ⟨j, hDiagnostics, -, hSound⟩ := lint_diagnostics source options globals
  rcases program_cases source options globals with ⟨-, hRun⟩ | ⟨hNests, -⟩
  · rw [hDiagnostics] at hd
    exact absurd hCode (hSound hRun.left d hd)
  · exact hNests

/-- Behind the expression that a source assigns, if nothing follows it, its run finds nothing
harmful. -/
theorem spares_assignment {source : String} {rest : List Char} {t : Session}
    (hSource : source.toList = 'x' :: ' ' :: '=' :: ' ' :: rest)
    (ht : EndsIn t (firstExpression (.start source {} none))) :
    t.Spares (left (run [] (.start source {} none))) :=
  spares_run rfl (Session.aligned_start source {} none) (TokenStream.from_ofSource source)
    (by rw [ofSource_eq (by decide) hSource]) ht

/-- The run that assigns the expression by itself is over where the expression ends. -/
theorem over_of_expressionEnd {text : String}
    (hLine : text.toList.any Text.isLineTerminator = false) {t : Session}
    (h : expressionEnd? text = some t) : Over ("x = " ++ text).length t := by
  obtain ⟨⟨e, hRun⟩, -, hOffset⟩ := exists_of_expressionEnd h
  have hMeets := (closes_firstExpression _).meets _ _ (abreast_start hLine)
  rw [hRun] at hMeets
  generalize firstExpression (.start (assigningQuotient text) {} none) = r at hMeets
  cases hMeets with
  | ended h => exact h
  | ok h => exact absurd hOffset (Nat.ne_of_lt h.1)

/-- If nothing about lexing or syntax is reported, the run that assigns the expression by itself
stops at the semicolon behind a value, with a clean journal. -/
theorem stopped_of_readable {text : String}
    (hLine : text.toList.any Text.isLineTerminator = false)
    (hLast : ∀ t ∈ lastToken? text, t.kind.endsValue = true) (hReadable : Readable (assigning text))
    {t : Session} (ht : expressionEnd? text = some t) : Stopped ("x = " ++ text).length t := by
  obtain ⟨⟨e, hRun⟩, hToken, hOffset⟩ := exists_of_expressionEnd ht
  have hOver := over_of_expressionEnd hLine ht
  refine ⟨hOver, hToken, hOffset, hLast _ ?_, fun d hd hPhase => ?_⟩
  · rw [lastToken?, ht]
    rfl
  · obtain ⟨l, _, _, _, hFrom, -, -, -, -, hRest, -⟩ := hOver
    have hSpares := spares_assignment (toList_assigning text)
      (.inl ⟨e, hRun, hToken, l, hFrom, hRest hOffset⟩)
    have hMem : d ∈ (lint (assigning text) {} none).diagnostics := by
      rw [diagnostics_lint]
      exact List.mem_reverse.mpr (hSpares.kept d hd)
    exact absurd hPhase (not_or.mpr (hReadable d hMem))

/-- A run whose report is harmless is readable or nested too deeply. -/
theorem readable_or_onlyTooDeep {source : String}
    (h : ∀ d ∈ (lint source {} none).diagnostics, d.Harmless) :
    Readable source ∨ OnlyTooDeep source := by
  by_cases hNests : NestsBeyond maxNesting source {} none
  · exact .inr ⟨hNests, h⟩
  · left
    intro d hd
    constructor
    · intro hPhase
      exact hNests (nestsBeyond_of_mem hd (h d hd (.inl hPhase)))
    · intro hPhase
      exact hNests (nestsBeyond_of_mem hd (h d hd (.inr hPhase)))

/-- An expression on one line whose last token ends a value can be divided: if nothing about lexing
or syntax is reported where it is assigned, then so it is with the quotient, unless that brings the
program beyond the deepest level. -/
theorem quotient_readable (text : String) (hLine : text.toList.any Text.isLineTerminator = false)
    (hExpression : IsExpression text) (hLast : ∀ t ∈ lastToken? text, t.kind.endsValue = true)
    (hReadable : Readable (assigning text)) :
    Readable (assigningQuotient text) ∨ OnlyTooDeep (assigningQuotient text) := by
  obtain ⟨t, ht⟩ := Option.isSome_iff_exists.mp hExpression
  obtain ⟨⟨e, hRun⟩, -⟩ := exists_of_expressionEnd ht
  have hStopped := stopped_of_readable hLine hLast hReadable ht
  -- the second run has taken the division, or it was stopped
  obtain ⟨u, hu, hUnharmed⟩ :
    ∃ u, EndsIn u (firstExpression (.start (assigningQuotient text) {} none)) ∧
      u.Unharmed := by
    have hClosing := (closes_firstExpression _).trails _ _ (abreast_start hLine) e t hRun hStopped
    generalize firstExpression (.start (assigningQuotient text) {} none) = r at hClosing
    cases hClosing with
    | held hTight => exact absurd hTight (by decide)
    | past _ h => exact ⟨_, .inl ⟨_, rfl, h.token, h.front⟩, h.toUnharmed⟩
    | stopped h => exact ⟨_, .inr rfl, h⟩
  have hFinal := (spares_assignment (toList_assigningQuotient text) hu).unharmed hUnharmed
  refine readable_or_onlyTooDeep fun d hd => ?_
  rw [diagnostics_lint] at hd
  exact hFinal.clean d (List.mem_reverse.mp hd)

/-- What a call gives is divided. -/
theorem quotient_readable_call :
    Readable (assigningQuotient "f(1)") ∨ OnlyTooDeep (assigningQuotient "f(1)") :=
  quotient_readable "f(1)" (by decide +kernel) (by decide +kernel) (by decide +kernel)
    (by decide +kernel)

/-- After an increment, or a reserved word that names a property, the slash starts a regular
expression, which is never closed. -/
theorem quotient_misread :
    ("a++".toList.any Text.isLineTerminator = false ∧ IsExpression "a++" ∧
      Readable (assigning "a++") ∧ ¬Readable (assigningQuotient "a++")) ∧
    ("a.if".toList.any Text.isLineTerminator = false ∧ IsExpression "a.if" ∧
      Readable (assigning "a.if") ∧ ¬Readable (assigningQuotient "a.if")) := by
  decide +kernel

end Division

end ScriptLint
