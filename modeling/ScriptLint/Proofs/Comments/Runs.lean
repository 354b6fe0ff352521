import ScriptLint.Proofs.Comments.Sessions
import ScriptLint.Proofs.Nesting

/-!
# Comments are inert

Where no slash divides or starts a regular expression, comments that are no directives have no part
in a report: it is the same for the source without them.

- `mirroring`: the congruence of parsers that run alike over both sources.
- `comments_inert`: the reports of the two runs.
-/

namespace ScriptLint

open Parse Grammar

namespace Parse

variable {α : Type} {source : String} {p q : Parse α}

namespace Mirrors

/-! ## Steps of the grammar -/

/-- Looking at the next token gives the same answer. -/
theorem peekIs (hSlash : NoBareSlash source) (test : Token → Bool) :
    Mirrors source (peekIs test) (peekIs test) :=
  bind (peek hSlash 0) fun _ => pure _

/-- A slash is read again if it starts a statement. -/
theorem advanceToStatement (hSlash : NoBareSlash source) :
    Mirrors source advanceToStatement advanceToStatement :=
  bind allowRegex fun _ => advance hSlash

theorem current : Mirrors source current current := (Oblivious.observe fun _ _ => rfl).mirrors

/-- What is checked about a loop does not look at the stream. -/
theorem checkFiltered (hSlash : NoBareSlash source) (t : Token) :
    Mirrors source (checkFiltered t) (checkFiltered t) := by
  have hStarts : Mirrors source bodyStartsWithIf bodyStartsWithIf :=
    bind current fun _ => ite _ (pure true) (ite _ (peekIs hSlash _) (pure false))
  refine bind (Oblivious.observe fun _ _ => rfl).mirrors fun _ => ite _ ?_ (pure ())
  exact bind hStarts fun _ => ite _ (Oblivious.warnAt _ _ _).mirrors (pure ())

/-- Every step of the grammar is mirrored. -/
theorem step (hSlash : NoBareSlash source) (h : Step p) : Mirrors source p p := by
  cases h with
  | warnAt f line column _ => exact (Oblivious.warnAt f line column).mirrors
  | failAt f t _ => exact (Oblivious.failAt f t).mirrors
  | advance => exact advance hSlash
  | advanceToStatement => exact advanceToStatement hSlash
  | peekIs test _ => exact peekIs hSlash test
  | peekArrowAfterNext => exact bind (peek hSlash 1) fun _ => pure _
  | startsArrow => exact startsArrow hSlash
  | count f => exact modify ⟨fun _ _ => rfl⟩
  | names _ => exact (Oblivious.modifyScopes _).mirrors
  | flushScopes => exact Oblivious.flushScopes.mirrors
  | setHint name => exact modify ⟨fun _ _ => rfl⟩
  | makeStrict => exact modify ⟨fun _ _ => rfl⟩
  | checkFiltered t => exact checkFiltered hSlash t

/-- The prologue looks at one token further on only. -/
theorem prologueRound (hSlash : NoBareSlash source)
    (h : ∀ t, Mirrors source (prologueStatement t) (prologueStatement t)) :
    Mirrors source (prologueRound ()) (prologueRound ()) := by
  refine bind current fun t => ite _ (pure _) ?_
  refine bind (peek hSlash 0) fun _ => ite _ (pure _) ?_
  exact bind (h t) fun _ => pure _

/-! ## What is opened and left -/

/-- The flag for `in` is part of the session. -/
theorem withNoIn (noIn : Bool) (h : Mirrors source p q) :
    Mirrors source (withNoIn noIn p) (withNoIn noIn q) := by
  refine read fun s _ ⟨u, hs, _⟩ => ?_
  subst hs
  exact bind (modify ⟨fun _ _ => rfl⟩) fun _ => ensuring h ⟨fun _ _ => rfl⟩

theorem withFrame (kind : Scope.FrameKind) (h : Mirrors source p q) :
    Mirrors source (withFrame kind p) (withFrame kind q) :=
  bind (modify ⟨fun _ _ => rfl⟩) fun _ => ensuring h ⟨fun _ _ => rfl⟩

theorem insideBlock (opener : Token) (h : Mirrors source p q) :
    Mirrors source (insideBlock opener p) (insideBlock opener q) :=
  bind (Oblivious.enterBlock opener).mirrors fun _ => ensuring (withFrame .block h) ⟨fun _ _ => rfl⟩

/-- What is open in a function is part of the session. -/
theorem insideFunction (kind : FunctionKind) (name : Option String) (line column : Nat)
    (h : Mirrors source p q) :
    Mirrors source (insideFunction kind name line column p)
      (insideFunction kind name line column q) := by
  have hResume {β : Type} (result : Except Abort β) :
      Mirrors source (resume result) (resume result) := by
    cases result with
    | ok b => exact pure b
    | error e => exact (Oblivious.throw e).mirrors
  refine bind (modify ⟨fun _ _ => rfl⟩) fun _ => bind h.outcome fun result => ?_
  refine bind (Oblivious.closeFunction line column).mirrors.outcome fun closed => ?_
  exact bind (hResume result) fun a => bind (hResume closed) fun _ => pure a

/-- The levels are counted in the session. -/
theorem deeper (h : Mirrors source p q) : Mirrors source p.deeper q.deeper := by
  refine read fun s _ ⟨u, hs, _⟩ => ?_
  subst hs
  exact ite _ (bind (modify ⟨fun _ _ => rfl⟩) fun _ => ensuring h ⟨fun _ _ => rfl⟩)
    Oblivious.tooDeep.mirrors

end Mirrors

end Parse

/-- The parsers that run alike over a source and over the source without its comments. -/
def Grammar.mirroring {source : String} (hSlash : NoBareSlash source) : Congruence where
  hides _ := False
  Rel p q := Mirrors source p q
  Parts p q := Mirrors source p q
  pure := .pure
  bind := .bind
  read := .read
  warnAt f line column _ := (Oblivious.warnAt f line column).mirrors
  governs_ne := governs_ne_of_false
  quiet _ _ := False.elim
  loud _ _ := False.elim
  step := .step hSlash
  prologueRound := .prologueRound hSlash
  loop := .loop
  recursive := .recursive
  recover := .recover
  clearingHint h := .ensuring h ⟨fun _ _ => rfl⟩
  withNoIn := .withNoIn
  withFrame := .withFrame
  insideBlock := .insideBlock
  insideLoop h := .bind (.modify ⟨fun _ _ => rfl⟩) fun _ => .ensuring h ⟨fun _ _ => rfl⟩
  parts := id
  bindParts := .bind
  partsBind := .bind
  openOverlay := .bind (.modify ⟨fun _ _ => rfl⟩)
  insideFunction := .insideFunction

/-- By induction on the levels. -/
theorem Grammar.mirroring_levels {source : String} (hSlash : NoBareSlash source) (n : Nat) :
    (mirroring hSlash).Nested (levels n) (levels n) := by
  induction n with
  | zero =>
    have hTooDeep {α : Type} : Mirrors source (tooDeep : Parse α) tooDeep :=
      Oblivious.tooDeep.mirrors
    exact ⟨hTooDeep, fun _ => hTooDeep, fun _ => hTooDeep, hTooDeep⟩
  | succ n ih =>
    have hForms := ih.forms
    exact ⟨.deeper hForms.statement, fun power => .deeper (hForms.expression power),
      fun kind => .deeper (hForms.binding kind), .deeper hForms.construction⟩

/-! ## Whole runs -/

namespace Parse

variable {source : String}

/-- Programs are mirrored, since the grammar respects the relation. -/
theorem mirrors_program (hSlash : NoBareSlash source) (problems : List Setting.Problem) :
    Mirrors source (program problems) (program problems) := by
  let K := mirroring hSlash
  refine K.bind (Oblivious.reportProblems problems 0 0).mirrors fun _ => ?_
  refine K.bind (.advance hSlash) fun _ => ?_
  refine K.bind (Congruence.Nested.prologue (K := K)) fun _ => ?_
  exact K.discard ((mirroring_levels hSlash maxNesting).statementList .program)

/-- Only the stream is another one. -/
theorem left_onStream {α : Type} (stream : TokenStream) (r : EStateM.Result Abort Session α) :
    left (onStream stream r) = { left r with stream } := by
  cases r <;> rfl

/-- What is reported at the end does not look at the stream. -/
theorem oblivious_finish : Oblivious finish := by
  intro s stream
  have hLast : Oblivious (lastChecks s) := .bind (.checkLinesBefore _) fun _ => .flushScopes
  have hRun := hLast { s with scopes := (s.scopes.finish s.layers).2 } stream
  rw [finish_eq, finish_eq]
  refine congrArg (EStateM.Result.ok _) ?_
  rw [← left_onStream, ← hRun]
  rfl

/-- So are whole runs. -/
theorem mirrors_run (hSlash : NoBareSlash source) (problems : List Setting.Problem) :
    Mirrors source (run problems) (run problems) :=
  .bind ((mirroring hSlash).discard (mirrors_program hSlash problems).outcome) fun _ =>
    oblivious_finish.mirrors

end Parse

/-- The two runs start alike, but for their streams. -/
theorem Session.matched_start (source : String) (options : Options)
    (globals : Option Predefined.Globals) :
    (start source options globals).Matched source
    (start (blankComments source) options globals) := by
  refine ⟨.ofSource (blankComments source), ?_, ?_⟩
  · have hLength : (blankComments source).length = source.length := by
      rw [← String.length_toList, length_blankComments, String.length_toList]
    rw [start, hLength, measureLines_blankComments]
    rfl
  · exact ⟨_, _, TokenStream.from_ofSource _, TokenStream.from_ofSource _, 0,
      Lexer.trails_ofSource source⟩

/-- Where every slash belongs to a comment or to text, the report of a source is that of the source
without the comments that are no directives. -/
theorem comments_inert (source : String) (options : Options) (globals : Option Predefined.Globals)
    (hSlash : NoBareSlash source) :
    lint (blankComments source) options globals = lint source options globals := by
  have hRuns := Parse.mirrors_run hSlash (Setting.Layers.ofOptions options).2 _ _
    (Session.matched_start source options globals)
  unfold lint
  generalize hr : Parse.run _ (Session.start source options globals) = r,
    hr' : Parse.run _ (Session.start (blankComments source) options globals) = r' at hRuns
  cases hRuns with
  | ok hEnds =>
    obtain ⟨stream, rfl, -⟩ := hEnds
    rfl
  | error hEnds =>
    obtain ⟨stream, rfl, -⟩ := hEnds
    rfl

/-- The line end in a comment still stands for a semicolon, and slashes in a string stay. -/
theorem comments_inert_program :
    let source := "#!/\na('/*') /*\n*/ b() // c"
    NoBareSlash source ∧ blankComments source = "#!/\na('/*')   \n   b()     " ∧
      (lint source {} none).diagnostics.map (fun d => (d.code, d.line, d.column)) =
        [("W033", 2, 8), ("W033", 3, 7)] ∧
      lint (blankComments source) {} none = lint source {} none := by
  intro source
  have hSlash : NoBareSlash source := by decide +kernel
  exact ⟨hSlash, by decide +kernel, by decide +kernel, comments_inert source {} none hSlash⟩

end ScriptLint
