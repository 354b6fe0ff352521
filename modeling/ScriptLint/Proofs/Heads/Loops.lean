import ScriptLint.Proofs.Heads.Operators
import ScriptLint.Proofs.Heads.Walks

/-!
# An assignment in the head of a loop

An expression is assigned to a name in a statement, and where the head of a `for` loop starts. In
the head the word `in` is an operator inside brackets only. If every `in` of the expression stands
inside brackets, and the expression holds no function or class, both programs have their errors of
the lexer and the grammar on the same lines.

- `Lexer.Opening`: a lexer in the head, up to the expression.
- `exists_abreast`: both runs come to the assignment, where they are abreast.
- `headRest_ends`: behind the expression the loop comes to its end.
- `akin_heading`: the loop has the faults of the statement.
- `faultless_heading_iff`: errors of the lexer or the grammar are reported in both programs or in
  neither.

Functions and classes make a difference: neither the parameters of a function nor the members of a
class make `in` an operator again, although they stand inside brackets.
-/

namespace ScriptLint

open Parse Grammar

/-! ## The start of the head -/

namespace Lexer

variable {l : Lexer} {source rest rest' : List Char} {kind : TokenKind} {t : Token}

/-- What a token that counts leaves behind. -/
theorem next_flags (ht : significant? l.next.1 = some t) :
    l.next.2.newlinePending = false ∧ l.next.2.regexAllowed = !t.kind.endsValue := by
  cases hRest : l.skipBlank.cursor.rest with
  | nil =>
    rw [next_of_nil hRest] at ht ⊢
    rw [@significant_finish .endOfInput rfl] at ht
    obtain rfl := Option.some.inj ht
    exact ⟨rfl, rfl⟩
  | cons c rest =>
    have hNotices :=
      scan_notices l.skipBlank.regexAllowed l.skipBlank.templates (unbroken_of_skipBlank hRest) rest
    rw [next_of_cons hRest] at ht ⊢
    have hMarks := read_token _ hNotices.counts ht
    exact ⟨hMarks.pending, hMarks.regexAllowed⟩

/-- A lexer before the rest of a source, where an operand is expected and no substitution is
open. -/
structure Opening (source rest : List Char) (l : Lexer) : Prop extends Plainly rest l where
  follows : Follows source l.cursor
  pending : l.newlinePending = false
  regexAllowed : l.regexAllowed = true

/-- A token of the head's opening is read in front of any text. -/
theorem nextIs_opening (h : NextIs (Plainly rest) kind (Plainly rest'))
    (hCounts : kind.isTrivia = false)
    (hValue : kind.endsValue = false) :
    NextIs (Opening source rest) kind (Opening source rest') := by
  intro l hl
  obtain ⟨t, hNext, hKind, hAfter⟩ := h l hl.toPlainly
  obtain ⟨hPending, hRegex⟩ := next_flags (significant_of_kind hNext hKind hCounts)
  refine ⟨t, hNext, hKind, hAfter, hl.follows.proceeds.follows, hPending, ?_⟩
  rw [hRegex, hKind, hValue]
  rfl

/-- The word `for`. -/
theorem scan_for (regexAllowed : Bool) : scan regexAllowed [] 'f' ('o' :: 'r' :: ' ' :: rest) =
    { length := 3, scanned := .token (.keyword .forWord), templates := [] } := by
  have hName : isNameStart 'f' = true := by decide +kernel
  have hParts : isNamePart 'f' = true ∧ isNamePart 'o' = true ∧ isNamePart 'r' =
      true ∧ isNamePart ' ' = false := by
    decide +kernel
  have hBody : wordBody 0 ('f' :: 'o' :: 'r' :: ' ' :: rest) {} =
      { name := "for", length := 3 } := by
    simp [wordBody, hParts]
  have hWord : Keyword.ofWord? "for" = some .forWord := by decide +kernel
  unfold scan
  rw [hName]
  show scanWord [] ('f' :: 'o' :: 'r' :: ' ' :: rest) = _
  rw [scanWord, hBody]
  dsimp only [WordScan.kind]
  rw [hWord]
  rfl

/-- What the head has before the assignment. -/
theorem nextIs_headStart :
    NextIs (Plainly ('f' :: 'o' :: 'r' :: ' ' :: '(' :: rest)) (.keyword .forWord)
      (Plainly (' ' :: '(' :: rest)) ∧
    NextIs (Plainly (' ' :: '(' :: rest)) (.punctuator .leftParen) (Plainly rest) :=
  ⟨nextIs_scan (List.dropWhile_cons_of_neg (by decide +kernel)) scan_for,
    nextIs_mark rfl (scan_bracket (by decide))⟩

end Lexer

/-- What goes on in the same way from the same result. -/
theorem Parse.bind_of_eq {α β : Type} {p q : Parse α} {f : α → Parse β} {s t : Session}
    (h : p s = q t) : (p >>= f) s = (q >>= f) t := by
  show EStateM.bind p f s = EStateM.bind q f t
  unfold EStateM.bind
  rw [h]

namespace Heads

open Lexer Division

/-! ## Up to the assignment -/

/-- The program in which the head of a loop starts with the assignment of the text. -/
def heading (text : String) : String := "for (x = " ++ text ++ "; ; ) \x7b \x7d"

theorem toList_heading (text : String) :
    (heading text).toList = 'f' :: 'o' :: 'r' :: ' ' :: '(' :: (shared text ++ headEnd) := by
  rw [heading, String.toList_append, String.toList_append]
  rfl

/-- The heading is the longer text. -/
theorem length_heading (text : String) :
    (assigning text).length + headStart ≤ (heading text).length := by
  rw [← String.length_toList, ← String.length_toList, toList_assigning, toList_heading]
  simp [headStart, headEnd]

/-- Before the assignment, the rest of the head is read as the statement is from its start. -/
theorem parallel_opening {text : String} {l : Lexer}
    (h : Opening (heading text).toList (shared text ++ headEnd) l) :
    Parallel ("x = " ++ text).length (shared text) (.ofSource (assigning text)) l := by
  have hOffset : l.cursor.position.offset = headStart := by
    have hLength := congrArg List.length (h.follows.rest.symm.trans h.rest)
    have hBound := h.follows.bound
    rw [List.length_drop, toList_heading] at hLength
    rw [toList_heading] at hBound
    simp only [List.length_cons, Cursor.offset] at hLength hBound
    unfold headStart
    omega
  have hLine : l.cursor.position.line = 1 := by
    rw [h.follows.position, Cursor.offset, hOffset, toList_heading]
    rfl
  rw [ofSource_eq (by decide) (toList_assigning text)]
  refine ⟨⟨rfl, h.rest, hLine, ?_, ?_⟩, h.regexAllowed, h.pending, h.templates⟩
  · rw [hOffset]
    rfl
  · exact (Nat.zero_add _).trans (length_shared text)

variable {text : String} {s t m : Session} {source rest : List Char}

/-- A loop from its opening parenthesis on. -/
def headRest (inner : Nested) (t opener : Token) : Parse Unit := do
  expect .leftParen
  if (declaredKind? (← current)).any Scope.BindingKind.isLexical then
    withFrame .block (forRest inner t opener)
  else forRest inner t opener
  flushScopes

/-- The word that starts the program starts a loop. -/
theorem statement_for (hs : At (.keyword .forWord) (Opening source (' ' :: '(' :: rest)) s)
    (hNesting : s.nesting = 0) :
    ∃ m, At (.punctuator .leftParen) (Opening source rest) m ∧ s.Hushed m ∧ m.nesting = 1 ∧
      m.sourceLength = s.sourceLength ∧ (Grammar.levels maxNesting).statement s =
        ((do
          headRest (Grammar.levels (maxNesting - 1)) s.token m.token
          return Flow.normal : Parse Flow).ensuring
            fun s => { s with nesting := s.nesting - 1 }) m := by
  -- the statement is counted, the loop's word consumed, the branch counted
  let counted : Session := { s with nesting := s.nesting + 1, metrics := s.metrics.addStatement }
  have hCounted : At (.keyword .forWord) (Opening source (' ' :: '(' :: rest)) counted :=
    ⟨⟨hs.lasting.passfail, hs.lasting.calm, hs.lasting.halted⟩, hs.aligned, hs.token, hs.front⟩
  obtain ⟨t, ht, hHushed, hThere, hLevel, hLength⟩ :=
    hCounted.advance (nextIs_opening nextIs_headStart.2 rfl rfl) rfl
  let branched : Session := { t with metrics := t.metrics.addBranch }
  have hBranched : t.Aside branched := .silent rfl rfl id rfl
  refine ⟨branched, hThere.aside hBranched, ?_, ?_, hLength, statement_deeper hNesting ?_⟩
  · exact (Session.Hushed.silent rfl rfl id rfl : s.Hushed counted).trans
      (hHushed.trans hBranched.hushed)
  · show t.nesting = 1
    rw [hLevel]
    show s.nesting + 1 = 1
    rw [hNesting]
  · have hName : s.token.identifier?.isSome = false := by
      rw [Token.identifier?, hs.token]
      rfl
    have hLoop : forStatement (Grammar.levels (maxNesting - 1)) counted =
        headRest (Grammar.levels (maxNesting - 1)) s.token branched.token branched := by
      show (advance >>= _) counted = _
      rw [bind_of_ok ht]
      rfl
    show (if s.token.identifier?.isSome then _
      else
        unlabeledStatement (Grammar.levels (maxNesting - 1)) s.token :
        Parse Flow) { s with nesting := s.nesting + 1 } = _
    rw [hName]
    unfold unlabeledStatement plainStatement
    rw [hs.token]
    exact bind_of_eq hLoop

/-- Both runs come to the assignment. -/
theorem exists_abreast (hNever : NeverSet (assigning text) .passfail)
    (hShielded : Shielded ("x = " ++ text).length [] (Lexer.ofSource (assigning text)).upcoming)
    (hm : At (.punctuator .leftParen) (Opening (heading text).toList (shared text ++ headEnd)) m)
    (hJournal : (Session.start (assigning text) {} none).journal.Akin m.journal)
    (hNesting : m.nesting = 1) (hLength : m.sourceLength = (heading text).length) :
    ∃ s u n, advance (.start (assigning text) {} none) = .ok () s ∧ enterStatement s = .ok () n ∧
      advance m = .ok () u ∧ u.Aligned ∧ u.token.kind = .identifier "x" ∧
      Abreast ("x = " ++ text).length 0 0 Any n { u with noIn := true } := by
  obtain ⟨l, hFrom, hl⟩ := hm.front
  have hHere := ofSource_eq (by decide) (toList_assigning text)
  have hRest :
      (Lexer.ofSource (assigning text)).cursor.rest =
      'x' :: ' ' :: ('=' :: ' ' :: text.toList ++ [';']) := by
    rw [hHere]
    rfl
  -- the first token of the one source and the second one of the other are the same name
  obtain ⟨target, hNext, hKind, -⟩ := Lexer.next_target hRest
  have hLeads :
      Leads (.ofSource (assigning text)) [(Lexer.ofSource (assigning text)).next.1] target _ :=
    .here (significant_of_kind hNext hKind rfl)
  have hGuarded : Guarded ("x = " ++ text).length [] (.ofSource (assigning text)) :=
    ⟨hShielded, by rw [hHere]; rfl⟩
  -- the name is the first token of the statement; in the head it stands behind the parenthesis
  obtain ⟨rs, target', after, hLeads', hResults, hMoved, hFront⟩ :=
    (parallel_opening hl).leads hGuarded hLeads
  obtain ⟨hUnset, hNeverAfter⟩ := NeverSets.leads hNever hLeads
  have hStart : (Session.start (assigning text) {} none).Lasting :=
    ⟨Setting.Layers.untouched_ofOptions {}, calm_start _ _ _, rfl⟩
  obtain ⟨s, u, hs, hu, hAt, hAt', hMatched⟩ := Matched.advance ⟨hStart, hm.lasting, hJournal⟩
    (TokenStream.from_ofSource _) hFrom hUnset hLeads hLeads' hResults
  have hGains := advance_gains hm.aligned
  rw [hu] at hGains
  obtain ⟨-, hAfter, -⟩ :=
    TokenStream.pullSignificant_spec (TokenStream.from_ofSource (assigning text)) hLeads
  obtain ⟨-, hAfter', -⟩ := TokenStream.pullSignificant_spec hFrom hLeads'
  simp only [Session.bearing, Session.bearingAt, Prod.mk.injEq] at hAt hAt'
  obtain ⟨hStream, hToken, -, hFits, -, hLevel, -⟩ := hAt
  obtain ⟨hStream', hToken', -, hFits', -, hLevel', -⟩ := hAt'
  have hThere : (s.stream.peek 0).2.From (Lexer.ofSource (assigning text)).next.2 :=
    TokenStream.from_peek 0 (by rw [hStream]; exact hAfter)
  have hThere' : u.stream.From after := by rw [hStream']; exact hAfter'
  -- the statement has looked ahead for a colon, the loop has not
  refine ⟨s, u,
    { s with
      nesting := s.nesting + 1
      stream := (s.stream.peek 0).2
      metrics := s.metrics.addStatement },
    hs, rfl, hu, hGains.1.aligned, ?_, ?_⟩
  · rw [hToken', hMoved.kind, hKind]
  · exact {
      toMatched := hMatched.hushed (.silent rfl rfl id rfl) (.silent rfl rfl id rfl)
      token := by rw [hToken, hToken']; exact hMoved
      front := ⟨_, after, hThere, hThere', hNeverAfter, by rw [hToken]; exact hFront⟩
      noIn h := absurd h (Nat.lt_irrefl 0)
      nesting := by
        show u.nesting = s.nesting + 1
        rw [hLevel, hLevel', hNesting]
        rfl
      sourceLength := by
        show s.sourceLength + headStart ≤ u.sourceLength
        rw [hFits, hFits', hLength]
        exact length_heading text
      kind := trivial }

/-! ## Behind the assignment -/

/-- The first expression moves on. -/
theorem advancing_firstExpression : advancing.Keeps firstExpression := by
  have hEnter : advancing.Keeps enterStatement := by
    refine advancing.bind (advancing_modify fun _ => ⟨rfl, rfl, rfl, rfl, rfl⟩) fun _ => ?_
    refine advancing.bind (advancing.discard (advancing_of_holding (holding_peekIs _))) fun _ => ?_
    exact advancing_modify fun _ => ⟨rfl, rfl, rfl, rfl, rfl⟩
  refine advancing.bind advancing_advance fun _ => advancing.bind hEnter fun _ => ?_
  exact (proceeding_levels (maxNesting - 1)).expression 0

/-- A finished first expression has moved on. -/
theorem proceeds_firstExpression {e : Summary} (h : firstExpression s = .ok e t) (hs : s.Aligned) :
    s.Proceeds t := by
  have hProceeds := advancing_firstExpression s
  rw [h] at hProceeds
  exact hProceeds hs

/-- Nothing follows the expression of the statement but its semicolon. -/
theorem atLast_of_expressionEnd (h : expressionEnd? text = some t) : AtLast t := by
  obtain ⟨⟨e, hRun⟩, hKind, hOffset⟩ := exists_of_expressionEnd h
  obtain ⟨⟨source, l, hLength, hFollows, hFrom, hEnds⟩, hFits, -⟩ :=
    proceeds_firstExpression hRun (Session.aligned_start _ _ _)
  refine ⟨hKind, l, hFrom, ?_⟩
  have hWhole : source.length = ("x = " ++ text).length + 1 := by
    rw [hLength, hFits]
    show (assigning text).length = _
    rw [← String.length_toList, toList_assigning, List.length_append, length_shared]
    rfl
  rw [hFollows.rest]
  refine List.drop_eq_nil_of_le ?_
  rcases hEnds with hLess | ⟨hEnd, -⟩
  · rw [hWhole, ← hOffset]
    exact hLess
  · rw [Token.isEnd, hKind] at hEnd
    cases hEnd

/-- If the assignment is read up to the semicolon, so is the loop up to the end of input. -/
theorem headRest_ends {inner : Nested} {u : Session} {e : Summary} (word opener : Token)
    (hm : m.token.kind = .punctuator .leftParen) (hu : advance m = .ok () u)
    (hName : u.token.kind = .identifier "x")
    (hRun : inner.wholeExpression { u with noIn := true } = .ok e t)
    (ht : At (.punctuator .semicolon) (Plainly headEnd.tail) t) :
    ∃ v, headRest inner word opener m = .ok () v ∧ t.Hushed v ∧ At .endOfInput (Plainly []) v := by
  let restored : Session := { t with noIn := u.noIn }
  have hSemicolon : At (.punctuator .semicolon) (Plainly headEnd.tail) restored :=
    ⟨⟨ht.lasting.passfail, ht.lasting.calm, ht.lasting.halted⟩, ht.aligned, ht.token, ht.front⟩
  -- the parenthesis, the start of the loop without `in`, and no `in` or `of` behind it
  have hExpect : expect .leftParen m = .ok () u := by
    show (if m.token.isPunctuator .leftParen then advance else _ : Parse Unit) m = _
    rw [Token.isPunctuator, hm]
    exact hu
  have hKind : declaredKind? u.token = none := by rw [declaredKind?, hName]
  have hStart : withNoIn true (forStart inner) u = .ok () restored := by
    have hInside : forStart inner { u with noIn := true } = .ok () t := by
      have hCurrent : current { u with noIn := true } = .ok u.token { u with noIn := true } := rfl
      unfold forStart
      rw [bind_of_ok hCurrent, hKind, Token.isPunctuator, hName]
      show (discard inner.wholeExpression) _ = _
      rw [discard_eq_bind]
      exact bind_of_ok hRun
    exact ensuring_of_ok hInside
  have hRest : forRest inner word opener u = forConditionRest inner opener restored := by
    have hNext : (t.token.isKeyword .inWord || t.token.identifier? == some "of") = false := by
      rw [Token.isKeyword, Token.identifier?, ht.token]
      rfl
    show (withNoIn true (forStart inner) >>= _) u = _
    rw [bind_of_ok hStart]
    show (if t.token.isKeyword .inWord || t.token.identifier? == some "of" then _ else
      _ : Parse Unit) restored = _
    rw [hNext]
    rfl
  -- what follows the first semicolon is fixed text
  obtain ⟨⟨⟩, v, hv, hHushed, hThere⟩ := walk_forConditionRest inner opener restored hSemicolon
  obtain ⟨⟨⟩, w, hw, hFlushed⟩ := exists_of_quiet quiet_flushScopes hThere.lasting
  have hRestored : t.Hushed restored := .silent rfl rfl id rfl
  refine ⟨w, ?_, hRestored.trans (hHushed.trans hFlushed.hushed), hThere.aside hFlushed⟩
  show (expect .leftParen >>= _) m = _
  rw [bind_of_ok hExpect]
  show (if (declaredKind? u.token).any Scope.BindingKind.isLexical then _ else _ : Parse Unit) u = _
  rw [hKind]
  show (forRest inner word opener >>= _) u = _
  rw [bind_of_ok (hRest.trans hv)]
  exact hw

/-! ## Both programs -/

/-- The loop that starts a program is read up to its opening parenthesis. -/
theorem opening_start (text : String) : At Token.origin.kind
    (Opening (heading text).toList ('f' :: 'o' :: 'r' :: ' ' :: '(' :: (shared text ++ headEnd)))
    (.start (heading text) {} none) := by
  have hHere := ofSource_eq (by decide) (toList_heading text)
  refine ⟨⟨Setting.Layers.untouched_ofOptions {}, calm_start _ _ _, rfl⟩,
    Session.aligned_start _ _ _, rfl, _,
    TokenStream.from_ofSource _, ⟨?_, ?_⟩, follows_ofSource _, ?_, ?_⟩
  · rw [hHere]
  · rw [hHere]
  · rw [hHere]
  · rw [hHere]

/-- Where the expression ends in the head, the rest of the head follows. -/
theorem at_headEnd {stop : Nat} (h : Abreast stop 0 0 Any s t) (hOffset : s.token.offset = stop)
    (ht : t.Aligned) : At (.punctuator .semicolon) (Plainly headEnd.tail) t := by
  obtain ⟨l, l', -, hFrom, -, hFront⟩ := h.front
  cases hFront with
  | inside hInside => exact absurd hOffset hInside
  | last hKind _ hRest hTemplates =>
    exact ⟨h.lasting', ht, h.token.kind.trans hKind, l', hFrom, hRest, hTemplates⟩

/-- If no function was finished where the expression of the statement ends, the loop has the same
faults in the end as the statement has there. -/
theorem akin_heading (hNever : NeverSet (assigning text) .passfail)
    (hShielded : Shielded ("x = " ++ text).length [] (Lexer.ofSource (assigning text)).upcoming)
    (ht : expressionEnd? text = some t) (hDone : t.metrics.finished = []) :
    t.Lasting ∧ t.journal.Akin (left (run [] (.start (heading text) {} none))).journal := by
  obtain ⟨⟨e, hRun⟩, -, hOffset⟩ := exists_of_expressionEnd ht
  -- the loop up to its opening parenthesis
  have hStart := opening_start text
  obtain ⟨s, hs, hHushed, hAt, hLevel, hLength⟩ :=
    hStart.advance (nextIs_opening nextIs_headStart.1 rfl rfl) rfl
  obtain ⟨m, hm, hOpened, hNesting, hFits, hStatement⟩ := statement_for hAt hLevel
  have hJournal := (hHushed.trans hOpened).journal hStart.lasting
  -- both runs through the expression
  obtain ⟨v, u, n, hv, hn, hu, hAligned, hName, hAbreast⟩ :=
    exists_abreast hNever hShielded hm hJournal hNesting (hFits.trans hLength)
  have hWhole : (Grammar.levels (maxNesting - 1)).wholeExpression n = .ok e t := by
    have hFirst :
        (advance >>= fun _ => enterStatement >>= fun _ =>
        (Grammar.levels (maxNesting - 1)).wholeExpression)
        (.start (assigning text) {} none) = .ok e t := hRun
    rw [bind_of_ok hv, bind_of_ok hn] at hFirst
    exact hFirst
  obtain ⟨e', t', hRun', -, hEnd⟩ :=
    ((carries_levels _ (maxNesting - 1)).expression 0 0).follows n _ e t hAbreast hWhole hDone
  have hProceeds := (proceeding_levels (maxNesting - 1)).expression 0 { u with noIn := true }
  rw [hRun'] at hProceeds
  -- the loop from there on
  obtain ⟨w, hw, hRest, hLast⟩ := headRest_ends s.token m.token hm.token hu hName hRun'
    (at_headEnd hEnd hOffset (hProceeds hAligned).aligned)
  have hLoop : Resolved (fun x => t'.Hushed x ∧ x.token.isEnd = true) t'.Hushed
      ((Grammar.levels maxNesting).statement s) := by
    have hNormal :
        (do
          headRest (Grammar.levels (maxNesting - 1)) s.token m.token
          return Flow.normal : Parse Flow) m =
        .ok Flow.normal w := bind_of_ok hw
    rw [hStatement, ensuring_of_ok hNormal]
    refine ⟨hRest.trans (.silent rfl rfl id rfl), ?_⟩
    show w.token.isEnd = true
    rw [Token.isEnd, hLast.token]
  have hFinal : t'.Hushed (left (run [] (.start (heading text) {} none))) := by
    refine run_of_statement hs hAt.aligned (by rw [isString, hAt.token]) ?_ hLoop fun x hx =>
      hx.trans (hushed_finish x)
    rw [Token.isEnd, Token.isPunctuator, hAt.token]
    exact ⟨rfl, rfl⟩
  exact ⟨hEnd.lasting, hEnd.journal.trans (hFinal.journal hEnd.lasting')⟩

/-- No error of the lexer or the grammar is reported. -/
def Faultless (source : String) : Prop := ∀ d ∈ (lint source {} none).diagnostics, d.isFault = false

instance (source : String) : Decidable (Faultless source) :=
  inferInstanceAs (Decidable (∀ d ∈ (lint source {} none).diagnostics, d.isFault = false))

/-- In the text that is assigned the brackets pair up, every `in` stands inside some of them, and no
class starts. -/
def InBrackets (text : String) : Prop :=
  Shielded ("x = " ++ text).length [] (Lexer.ofSource (assigning text)).upcoming = true

instance (text : String) : Decidable (InBrackets text) :=
  inferInstanceAs
    (Decidable
    (Shielded ("x = " ++ text).length [] (Lexer.ofSource (assigning text)).upcoming = true))

/-- A program is faultless when its journal has no fault. -/
theorem faultless_iff (source : String) :
    Faultless source ↔ (left (run [] (.start source {} none))).journal.faults = [] := by
  rw [Faultless, diagnostics_lint, Journal.faults, List.map_eq_nil_iff, List.filter_eq_nil_iff]
  simp [Journal.diagnostics]

theorem functions_lint (source : String) : (lint source {} none).functions =
    (left (run [] (.start source {} none))).metrics.finished := by
  have hNone : (Setting.Layers.ofOptions {}).2 = [] := rfl
  rw [lint, hNone]
  cases run [] (.start source {} none) with
  | ok names s => rfl
  | error e s => rfl

/-- An expression in which every `in` stands inside brackets can be assigned in the head of a loop
as well as in a statement: if it holds no function or class, and no directive sets `passfail`,
errors of the lexer or the grammar are reported in both programs or in neither. Both runs are
followed side by side up to the end of the expression; what is left of either program reports no
fault. -/
theorem faultless_heading_iff (text : String) (hExpression : IsExpression text)
    (hBrackets : InBrackets text)
    (hFunctions : (lint (assigning text) {} none).functions = [])
    (hNever : NeverSet (assigning text) .passfail) :
    Faultless (heading text) ↔ Faultless (assigning text) := by
  obtain ⟨t, ht⟩ := Option.isSome_iff_exists.mp hExpression
  obtain ⟨⟨e, hRun⟩, -⟩ := exists_of_expressionEnd ht
  have hStatement : t.Hushed (left (run [] (.start (assigning text) {} none))) :=
    hushed_run rfl (Session.aligned_start _ _ _) (TokenStream.from_ofSource _)
      (by rw [ofSource_eq (by decide) (toList_assigning text)]; rfl)
        (.inl ⟨e, hRun, atLast_of_expressionEnd ht⟩)
  have hDone : t.metrics.finished = [] := by
    rw [← hStatement.finished, ← functions_lint, hFunctions]
  obtain ⟨hLasting, hHeading⟩ := akin_heading hNever hBrackets ht hDone
  rw [faultless_iff, faultless_iff, hHeading.faults, (hStatement.journal hLasting).faults]

/-- The argument of a call stands inside brackets. -/
theorem faultless_heading_call : Faultless (heading "f(a in b)") :=
  (faultless_heading_iff "f(a in b)" (by decide +kernel) (by decide +kernel) (by decide +kernel)
    (neverSet_of_not_mem (by decide) .passfail)).mpr (by decide +kernel)

end Heads

end ScriptLint
