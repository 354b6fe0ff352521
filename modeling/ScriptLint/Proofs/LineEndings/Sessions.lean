import ScriptLint.Proofs.Composition.Basic
import ScriptLint.Proofs.LineEndings.Lexing

/-!
# Two runs that differ in how lines end

In two runs over a text and over the text with the carriage returns, sessions are the same but for
how the tokens are written. Diagnostics are the same but for their texts, which quote tokens and
tell how much of the source was consumed.

- `Journal.unworded`: a journal without the texts of its diagnostics.
- `Parse.Unwritten`: parsers that stay in place and do not depend on how the source is written.
- `returning`: the tokens of both texts.
- `Session.Reread`, `Session.Transcribed`: sessions of the two runs.
- `Parse.Rereads`: parsers that end alike in such sessions and leave such sessions.
-/

namespace ScriptLint

/-! ## Diagnostics without their texts -/

/-- The diagnostic without its text. -/
def Diagnostic.unworded (d : Diagnostic) : Diagnostic := { d with message := "" }

namespace Journal

/-- The journal without the texts of the diagnostics. -/
def unworded (j : Journal) : Journal := { j with kept := j.kept.map Diagnostic.unworded }

/-- What is kept does not depend on the text. -/
theorem keeps_unworded (j : Journal) (d : Diagnostic) :
    j.unworded.keeps d.unworded = j.keeps d := rfl

/-- Whether a diagnostic is kept does not depend on its text. -/
theorem unworded_record (j : Journal) (d : Diagnostic) :
    (j.record d).unworded = j.unworded.record d.unworded := by
  unfold record
  rw [keeps_unworded]
  split <;> rfl

/-- The last diagnostic is added, whatever it says. -/
theorem unworded_halt (j : Journal) (last : Diagnostic) :
    (j.halt last).unworded = j.unworded.halt last.unworded := by
  unfold halt
  show _ = if j.halted then _ else _
  split <;> rfl

/-- Diagnostics are dropped by their lines. -/
theorem unworded_dropLine (j : Journal) (line : Nat) :
    (j.dropLine line).unworded = j.unworded.dropLine line := by
  unfold dropLine unworded
  rw [List.filter_map]
  rfl

theorem unworded_ignoreLine (j : Journal) (line : Nat) :
    (j.ignoreLine line).unworded = j.unworded.ignoreLine line :=
  congrArg (fun dropped : Journal => { dropped with ignoredLines := line :: j.ignoredLines })
    (j.unworded_dropLine line)

/-- Regions are opened by lines. -/
theorem unworded_startRegion (j : Journal) (line : Nat) :
    (j.startRegion line).unworded = j.unworded.startRegion line := by
  have hDropped := j.unworded_dropLine line
  obtain ⟨kept, ignoredCodes, ignoredLines, regions, openRegion, halted⟩ := j
  cases openRegion with
  | some first => rfl
  | none =>
    exact congrArg (fun dropped : Journal => { dropped with openRegion := some line }) hDropped

/-- Closing a region drops diagnostics by their lines. -/
theorem unworded_endRegion (j : Journal) (line : Nat) :
    (j.endRegion line).unworded = j.unworded.endRegion line := by
  obtain ⟨kept, ignoredCodes, ignoredLines, regions, openRegion, halted⟩ := j
  cases openRegion <;> rfl

end Journal

/-! ## Parsers that stay in place -/

namespace Session

variable {s t u t' : Session} {x y : Rendering} {journal : Journal}

/-- The first session is still in place, and so is the second one, on a source that is written
differently. -/
structure Restated (s : Session) (x : Rendering) (t t' : Session) : Prop where
  placed : s.Placed t
  other : ∃ journal, t' = t.rendered { x with journal } ∧ journal.unworded = t.journal.unworded

/-- In place for longer. -/
theorem Restated.after (h : s.Placed t) (h' : Restated t { x with journal } u t') :
    Restated s x u t' := by
  obtain ⟨hPlaced, journal', hOther, hSame⟩ := h'
  exact ⟨h.trans hPlaced, journal', hOther, hSame⟩

/-- Only the journal was written to, by the same diagnostics on both sides. -/
theorem restated_journal (s : Session) (x : Rendering) {journal journal' : Journal}
    (h : journal'.unworded = journal.unworded) :
    Restated s x { s with journal } { s.rendered x with journal := journal' } :=
  ⟨⟨rfl, rfl, rfl, rfl, rfl⟩, journal', rfl, h⟩

end Session

namespace Parse

variable {α β : Type} {p q p' q' : Parse α} {s : Session} {x : Session.Rendering}

/-- Runs that agree on more agree on less. -/
theorem Agree.imp {R R' : Session → Session → Prop} {r r' : EStateM.Result Abort Session α}
    (h : Agree R r r') (hR : ∀ t t', R t t' → R' t t') : Agree R' r r' := by
  cases h with
  | ok h => exact .ok (hR _ _ h)
  | error h => exact .error (hR _ _ h)

/-- The parsers run alike however the source is written, and stay in place. -/
def Unwritten (p q : Parse α) : Prop :=
  ∀ (s : Session) (x : Session.Rendering), x.journal.unworded = s.journal.unworded →
    Agree (Session.Restated s x) (p s) (q (s.rendered x))

namespace Unwritten

theorem pure (a : α) : Unwritten (pure a) (pure a) :=
  fun _ x hx => .ok ⟨⟨rfl, rfl, rfl, rfl, rfl⟩, x.journal, rfl, hx⟩

theorem throw (e : Abort) : Unwritten (throw e : Parse α) (throw e) :=
  fun _ x hx => .error ⟨⟨rfl, rfl, rfl, rfl, rfl⟩, x.journal, rfl, hx⟩

/-- In place of a session, after what was done there. -/
theorem since (h : Unwritten p q) {t : Session} {journal : Journal} (hPlaced : s.Placed t)
    (hx : journal.unworded = t.journal.unworded) :
    Agree (s.Restated x) (p t) (q (t.rendered { x with journal })) :=
  (h t _ hx).imp fun _ _ => .after hPlaced

theorem bind {f g : α → Parse β} (h : Unwritten p q) (hf : ∀ a, Unwritten (f a) (g a)) :
    Unwritten (p >>= f) (q >>= g) := by
  refine fun s x hx => (h s x hx).bind (fun a t t' ht => ?_) fun _ _ => id
  obtain ⟨hPlaced, journal, rfl, hSame⟩ := ht
  exact (hf a).since hPlaced hSame

theorem ite (c : Prop) [Decidable c] (h : Unwritten p q) (h' : Unwritten p' q') :
    Unwritten (if c then p else p') (if c then q else q') := by
  split
  · exact h
  · exact h'

/-- Only one of the branches does something before both go on in the same way. -/
theorem when (c : Prop) [Decidable c] {p q p' q' : Parse Unit} (h : Unwritten p q)
    (h' : Unwritten p' q') :
    Unwritten (if c then p >>= fun _ => p' else p') (if c then q >>= fun _ => q' else q') :=
  ite c (bind h fun _ => h') h'

/-- What is done may depend on all but how the source is written. -/
theorem read {f g : Session → Parse α} (h : ∀ s, Unwritten (f s) (g s))
    (hSame : ∀ s x, g (s.rendered x) = g s) : Unwritten (get >>= f) (get >>= g) := by
  intro s x hx
  show Agree _ (f s s) (g (s.rendered x) (s.rendered x))
  rw [hSame]
  exact h s s x hx

/-- A change that stays in place, with an edit of the journal. -/
theorem edit {f : Session → Session} (g : Journal → Journal)
    (hPlaced : ∀ s : Session, s.Placed (f s))
    (hRendered : ∀ s x, f (s.rendered x) = (f s).rendered { x with journal := g x.journal })
    (hJournal : ∀ s, (f s).journal = g s.journal) (hUnworded : ∀ j, (g j).unworded = g j.unworded) :
    Unwritten (modify f) (modify f) := by
  refine fun s x hx => .ok ⟨hPlaced s, g x.journal, hRendered s x, ?_⟩
  rw [hUnworded, hx, hJournal, hUnworded]

/-- A change that stays in place and does not touch the journal. -/
theorem adjust {f : Session → Session} (hPlaced : ∀ s : Session, s.Placed (f s))
    (hRendered : ∀ s x, f (s.rendered x) = (f s).rendered x)
    (hJournal : ∀ s, (f s).journal = s.journal) : Unwritten (modify f) (modify f) :=
  edit id hPlaced hRendered hJournal fun _ => rfl

/-- A quiet change is made alike. -/
theorem change {f : Session → Session} (h : Session.Quiet f) : Unwritten (modify f) (modify f) := by
  refine adjust (fun s => ?_) h.rendered fun s => congrArg Session.Rendering.journal (h.rendering s)
  have hSame := h.rendering s
  exact ⟨h.kind s, h.previous s, congrArg Session.Rendering.stream hSame,
    congrArg Session.Rendering.sourceLength hSame, congrArg Session.Rendering.consumed hSame⟩

/-- Something is done for each element of a list. -/
theorem forM {l : List β} {f g : β → Parse PUnit} (h : ∀ b, Unwritten (f b) (g b)) :
    Unwritten (l.forM f) (l.forM g) := by
  induction l with
  | nil => exact pure _
  | cons b rest ih => exact bind (h b) fun _ => ih

/-! ### Findings -/

/-- What was consumed shows in the text of a last diagnostic only. -/
theorem emit {d d' : Diagnostic} (h : d'.unworded = d.unworded) : Unwritten (emit d) (emit d') := by
  intro s x hx
  have hLine : d'.unworded.line = d.unworded.line := congrArg Diagnostic.line h
  have hColumn : d'.unworded.column = d.unworded.column := congrArg Diagnostic.column h
  have hRecord : (x.journal.record d').unworded = (s.journal.record d).unworded := by
    rw [Journal.unworded_record, Journal.unworded_record, hx, h]
  have hKeeps : x.journal.keeps d' = s.journal.keeps d := by
    rw [← Journal.keeps_unworded x.journal, hx, h, Journal.keeps_unworded]
  have hSame : ((s.rendered x).journal.keeps d' && (s.rendered x).layers.enabled .passfail) =
      (s.journal.keeps d && s.layers.enabled .passfail) :=
    congrArg (· && s.layers.enabled .passfail) hKeeps
  unfold Parse.emit
  dsimp only
  by_cases hStop : (s.journal.keeps d && s.layers.enabled .passfail) = true
  · rw [if_pos hStop, if_pos (hSame.trans hStop)]
    refine .error (Session.restated_journal s x ?_)
    show ((x.journal.record d').halt _).unworded = ((s.journal.record d).halt _).unworded
    rw [Journal.unworded_halt, Journal.unworded_halt, hRecord]
    refine congrArg (s.journal.record d).unworded.halt ?_
    show Diagnostic.mk d'.unworded.line d'.unworded.column _ _ _ =
      Diagnostic.mk d.unworded.line d.unworded.column _ _ _
    rw [hLine, hColumn]
    rfl
  · rw [if_neg hStop, if_neg fun hStop' => hStop (hSame.symm.trans hStop')]
    exact .ok (Session.restated_journal s x hRecord)

/-- The run stops at the same place. -/
theorem tooDeep : Unwritten (tooDeep : Parse α) tooDeep := by
  refine fun s x hx => .error (Session.restated_journal s x ?_)
  show (x.journal.halt _).unworded = (s.journal.halt _).unworded
  rw [Journal.unworded_halt, Journal.unworded_halt, hx]
  rfl

/-- Findings with the same code and phase are reported alike. -/
theorem warnAt {f f' : Finding} (hCode : f'.code = f.code) (hPhase : f'.phase = f.phase)
    (line column : Nat) : Unwritten (warnAt f line column) (warnAt f' line column) := by
  refine emit ?_
  show Diagnostic.mk line column f'.code "" f'.phase = Diagnostic.mk line column f.code "" f.phase
  rw [hCode, hPhase]

theorem warnSame (f : Finding) (line column : Nat) :
    Unwritten (Parse.warnAt f line column) (Parse.warnAt f line column) :=
  warnAt rfl rfl line column

/-- Giving up is the same on both sides, whatever the text of the finding quotes. -/
theorem failAt {f f' : Finding} {t t' : Token} (hCode : f'.code = f.code)
    (hPhase : f'.phase = f.phase) (hPlace : (t'.line, t'.column) = (t.line, t.column)) :
    Unwritten (failAt f t : Parse α) (failAt f' t') := by
  obtain ⟨hLine, hColumn⟩ := Prod.mk.inj hPlace
  refine bind ?_ fun _ => throw _
  show Unwritten (Parse.warnAt f t.line t.column) (Parse.warnAt f' t'.line t'.column)
  rw [hLine, hColumn]
  exact warnAt hCode hPhase _ _

theorem warnUnless (setting : Setting) (f : Finding) (line column : Nat) :
    Unwritten (warnUnless setting f line column) (warnUnless setting f line column) :=
  read (fun _ => ite _ (warnSame f line column) (pure ())) fun _ _ => rfl

theorem reportProblems (problems : List Setting.Problem) (line column : Nat) :
    Unwritten (reportProblems problems line column) (reportProblems problems line column) :=
  forM fun _ => emit rfl

theorem modifyScopes (f : Scope.Tracker → Setting.Layers → Scope.Tracker) :
    Unwritten (modifyScopes f) (modifyScopes f) :=
  adjust (fun _ => ⟨rfl, rfl, rfl, rfl, rfl⟩) (fun _ _ => rfl) fun _ => rfl

theorem flushScopes : Unwritten flushScopes flushScopes :=
  read (fun _ => bind (modifyScopes _) fun _ => forM fun _ => warnSame _ _ _) fun _ _ => rfl

/-! ### Consuming tokens -/

/-- Which quote was used first is kept by the session. -/
theorem checkQuote (quote : Char) (line column : Nat) :
    Unwritten (checkQuote quote line column) (checkQuote quote line column) := by
  have hWarn (c : Prop) [Decidable c] (f : Finding) :
      Unwritten (if c then Parse.warnAt f line column else Pure.pure ())
        (if c then Parse.warnAt f line column else Pure.pure ()) :=
    ite c (warnSame f line column) (pure ())
  intro s x hx
  unfold Parse.checkQuote
  rw [get_bind_apply, get_bind_apply]
  dsimp only [Session.rendered]
  cases s.layers.quotePolicy with
  | off => exact pure () s x hx
  | single => exact hWarn _ _ s x hx
  | double => exact hWarn _ _ s x hx
  | consistent =>
    cases hFirst : s.firstQuote with
    | none => exact .ok ⟨⟨rfl, rfl, rfl, rfl, rfl⟩, x.journal, rfl, hx⟩
    | some first =>
      have hRun := hWarn (first != quote) .mixedQuotes s x hx
      rw [Session.rendered, hFirst] at hRun
      exact hRun

/-- What is checked when a token was consumed depends on its kind and its place only. -/
theorem checkConsumed : Unwritten checkConsumed checkConsumed := by
  refine read (fun s => ?_) fun _ _ => rfl
  dsimp only
  split
  · refine bind (checkQuote _ _ _) fun _ => when _ (warnSame _ _ _) ?_
    exact when _ (warnUnless _ _ _ _) (ite _ (warnUnless _ _ _ _) (pure ()))
  · exact ite _ (warnSame _ _ _) (pure ())
  · exact pure ()

/-- By induction on the lines left. -/
theorem warnLongLines (limit line : Nat) (lengths : List Nat) :
    Unwritten (warnLongLines limit line lengths) (warnLongLines limit line lengths) := by
  induction lengths generalizing line with
  | nil => exact pure ()
  | cons length rest ih => exact when _ (warnSame _ _ _) (ih (line + 1))

/-- The lengths of the lines were measured at the start. -/
theorem checkLinesBefore (line : Nat) :
    Unwritten (checkLinesBefore line) (checkLinesBefore line) := by
  have hLimit (start : Nat) (lengths : List Nat) (limit : Option Nat) :
      Unwritten (limitLines start lengths limit) (limitLines start lengths limit) := by
    cases limit with
    | none => exact pure ()
    | some limit => exact warnLongLines limit _ _
  intro s x hx
  rw [checkLinesBefore_apply, checkLinesBefore_apply]
  let checked := s.uncheckedLines.splitAt (line - 1 - s.checkedLines)
  let t :
      Session :=
      { s with checkedLines := s.checkedLines + checked.1.length, uncheckedLines := checked.2 }
  exact (hLimit (s.checkedLines + 1) checked.1 (s.layers.limit? .maxlen)).since (t := t)
    ⟨rfl, rfl, rfl, rfl, rfl⟩ hx

/-- An edit of the journal. -/
theorem modifyJournal {g : Journal → Journal} (h : ∀ j, (g j).unworded = g j.unworded) :
    Unwritten (modify fun s => { s with journal := g s.journal })
      (modify fun s => { s with journal := g s.journal }) :=
  edit g (fun _ => ⟨rfl, rfl, rfl, rfl, rfl⟩) (fun _ _ => rfl) (fun _ => rfl) h

/-- An entry of a directive takes effect in the same way. -/
theorem applyEntry (entry : Directive.Entry) (atGlobal : Bool) (line column : Nat) :
    Unwritten (applyEntry entry atGlobal line column) (applyEntry entry atGlobal line column) := by
  cases entry with
  | setOption setting value =>
    -- the option is set in both runs, or refused in both for the same reason
    intro s x hx
    cases hSet : s.layers.set setting value atGlobal with
    | ok layers =>
      rw [applyEntry_of_ok hSet, applyEntry_of_ok (s := s.rendered x) hSet]
      have hRest : Unwritten (predefine setting value) (predefine setting value) := by
        refine ite _ ?_ (pure ())
        split
        · exact modifyScopes _
        · exact pure ()
      exact hRest.since (t := { s with layers }) ⟨rfl, rfl, rfl, rfl, rfl⟩ hx
    | error problem =>
      rw [applyEntry_of_error hSet, applyEntry_of_error (s := s.rendered x) hSet]
      exact emit rfl s x hx
  | ignoreCode code => exact modifyJournal (g := (·.ignoreCode code)) fun _ => rfl
  | ignore change =>
    cases change with
    | start => exact modifyJournal (Journal.unworded_startRegion · line)
    | stop => exact modifyJournal (Journal.unworded_endRegion · line)
    | line => exact modifyJournal (Journal.unworded_ignoreLine · line)
  | declareGlobal name writable =>
    exact modifyScopes fun t _ => t.declareGlobal name writable line column
  | removeGlobal name => exact modifyScopes fun t _ => t.removeGlobal name
  | exportName name => exact modifyScopes fun t _ => t.exportName name

/-- What stands between tokens is noted alike. -/
theorem note (result : Lexer.Result) : Unwritten (note result) (note result) := by
  unfold Parse.note
  split
  · split
    · refine bind (reportProblems _ _ _) fun _ => ?_
      exact read (fun s => forM fun entry => applyEntry entry _ _ _) fun _ _ => rfl
    · exact pure ()
  · exact emit rfl

/-- The limits of a function are checked against its counts. -/
theorem closeFunction (line column : Nat) :
    Unwritten (Grammar.closeFunction line column) (Grammar.closeFunction line column) := by
  intro s x hx
  let reports (findings : List Finding) : Parse Unit := do
    findings.forM fun f => Parse.warnAt f line column
    Parse.flushScopes
  have hReports (findings : List Finding) : Unwritten (reports findings) (reports findings) :=
    bind (forM fun f => warnSame f line column) fun _ => flushScopes
  exact (hReports _).since (t := Grammar.withoutFunction s) ⟨rfl, rfl, rfl, rfl, rfl⟩ hx

end Unwritten

end Parse

/-! ## The tokens of both texts -/

variable {text : List Char}

namespace Token

variable {t u : Token}

/-- The rewritten token is the token in another wording. -/
theorem Sound.crlf_eq (h : t.Sound text) : t.crlf text = t.reworded (t.crlf text).wording := by
  have hKind := TokenKind.crlf_of_significant h.counts
  unfold crlf
  rw [hKind]
  rfl

/-- Tokens at different places stay at different places. -/
theorem Sound.offset_crlf (h : t.Sound text) (h' : u.Sound text) :
    (t.crlf text).offset = (u.crlf text).offset ↔ t.offset = u.offset :=
  ⟨shifted_inj h.bound h'.bound, fun hSame => congrArg (shifted text) hSame⟩

/-- The token before the first one is the same in both. -/
theorem sound_origin (text : List Char) : Token.origin.Sound text := ⟨rfl, Nat.zero_le _, trivial⟩

end Token

/-- The tokens are the same but for their wording in a text without carriage returns and in the text
with them. -/
def returning (text : List Char) : Likeness where
  Like t w := t.Sound text ∧ w = (t.crlf text).wording
  useStrict := by
    rintro t _ ⟨hSound, rfl⟩
    have hReads := hSound.readsAlike
    unfold Grammar.isUseStrict
    show (match t.kind with
      | .string literal => _
      | _ => false) = _
    cases hKind : t.kind with
    | string literal =>
      rw [hKind] at hReads
      refine congrArg (literal.value == "use strict" && ·) ?_
      show (((String.ofList (crlf t.raw.toList)).toList.drop 1).dropLast == _) = _
      rw [String.toList_ofList, Bool.eq_iff_iff, beq_iff_eq, beq_iff_eq]
      exact hReads
    | _ => rfl
  number := by
    rintro t _ literal ⟨hSound, rfl⟩ hKind
    have hReads := hSound.readsAlike
    rw [hKind] at hReads
    show String.ofList (crlf t.raw.toList) = t.raw
    rw [show crlf t.raw.toList = t.raw.toList from hReads, String.ofList_toList]
  offset := by
    rintro t u _ _ ⟨hSound, rfl⟩ ⟨hSound', rfl⟩
    exact hSound.offset_crlf hSound'

/-! ## Sessions of the two runs -/

namespace Session

open Lexer TokenStream

/-- How the text with the carriage returns is written where the session stands in the text without
them. -/
structure Reread (text : List Char) (s : Session) (x : Rendering) : Prop where
  stream : ∃ l, Tandem text l s.stream x.stream ∧ EndsBy s.token l.offset
  token : (returning text).Like s.token x.token
  previous : (returning text).Like s.previous x.previous
  front : s.sourceLength = text.length
  other : x.sourceLength = (crlf text).length
  journal : x.journal.unworded = s.journal.unworded

/-- The sessions are the same but for how the text is written. -/
def Transcribed (text : List Char) (s s' : Session) :
    Prop := ∃ x, s' = s.rendered x ∧ s.Reread text x

variable {s t t' : Session} {x : Rendering}

theorem Reread.similar (h : s.Reread text x) : (returning text).Similar s x := ⟨h.token, h.previous⟩

/-- Where the place stays the same, the two sessions stay in step. -/
theorem Reread.placed (h : s.Reread text x) (ht : s.Placed t) {journal : Journal}
    (hJournal : journal.unworded = t.journal.unworded) : t.Reread text { x with journal } where
  stream := by
    rw [ht.stream, ht.token]
    exact h.stream
  token := ht.token ▸ h.token
  previous := ht.previous ▸ h.previous
  front := ht.sourceLength.trans h.front
  other := h.other
  journal := hJournal

/-- A parser that stays in place keeps the sessions in step. -/
theorem Restated.transcribed (h : Restated s x t t') (hs : s.Reread text x) :
    Transcribed text t t' := by
  obtain ⟨hPlaced, journal, rfl, hJournal⟩ := h
  exact ⟨_, rfl, hs.placed hPlaced hJournal⟩

/-- The first session stands where its stream says. -/
theorem Reread.aligned (h : s.Reread text x) : s.Aligned := by
  obtain ⟨l, hStream, hEnds⟩ := h.stream
  exact ⟨text, l, h.front.symm, hStream.untemplated.follows, hStream.front, hEnds⟩

/-- So does the second one, in the rewritten text. -/
theorem Reread.aligned_rendered (hText : PlainText text) (h : s.Reread text x) :
    (s.rendered x).Aligned := by
  obtain ⟨l, hStream, hEnds⟩ := h.stream
  have hFollows := hStream.untemplated.follows
  have hOffset : (s.rendered x).token.offset = shifted text s.token.offset := by
    show x.token.offset = _
    rw [h.token.2]
    rfl
  refine ⟨crlf text, l.crlf text, h.other.symm, hFollows.crlf hText, hStream.other, ?_⟩
  rw [EndsBy, hOffset]
  exact hEnds.imp (shifted_lt · hFollows.bound) (And.imp_right (shifted_mono text))

end Session

namespace Parse

open Session

variable {α β : Type} {p q p' q' : Parse α}

/-- In sessions of the two runs the parsers end alike, and leave sessions of the two runs. -/
def Rereads (text : List Char) (p q : Parse α) : Prop :=
  ∀ (s : Session) (x : Rendering), s.Reread text x →
    Agree (Transcribed text) (p s) (q (s.rendered x))

/-- A parser that stays in place rereads. -/
theorem Unwritten.rereads (h : Unwritten p q) : Rereads text p q :=
  fun s x hs => (h s x hs.journal).imp fun _ _ ht => ht.transcribed hs

namespace Rereads

theorem pure (a : α) : Rereads text (pure a) (pure a) := (Unwritten.pure a).rereads

/-- One parser after another. -/
theorem bind {f g : α → Parse β} (h : Rereads text p q) (hf : ∀ a, Rereads text (f a) (g a)) :
    Rereads text (p >>= f) (q >>= g) := by
  refine fun s x hs => (h s x hs).bind (fun a t t' ht => ?_) fun _ _ => id
  obtain ⟨y, rfl, ht⟩ := ht
  exact hf a t y ht

theorem ite (c : Prop) [Decidable c] (h : c → Rereads text p q) (h' : ¬c → Rereads text p' q') :
    Rereads text (if c then p else p') (if c then q else q') := by
  split
  · exact h ‹_›
  · exact h' ‹_›

/-- What is read off one session can be read off the other. -/
theorem read {f g : Session → Parse α} (h : ∀ s x, (returning text).Similar s x →
    Rereads text (f s) (g (s.rendered x))) : Rereads text (get >>= f) (get >>= g) :=
  fun s x hs => h s x hs.similar s x hs

/-- Both runs give up on the statement, or neither does. -/
theorem recover (h : Rereads text p q) (h' : Rereads text p' q') :
    Rereads text (p.recover p') (q.recover q') := by
  intro s x hs
  have hAgree := h s x hs
  generalize hr : p s = r, hr' : q (s.rendered x) = r' at hAgree
  cases hAgree with
  | ok ht =>
    rw [recover_of_ok hr, recover_of_ok hr']
    exact .ok ht
  | @error e t t' ht =>
    cases e with
    | badSyntax =>
      obtain ⟨y, rfl, ht⟩ := ht
      rw [recover_of_badSyntax hr, recover_of_badSyntax hr']
      exact h' t y ht
    | halt =>
      rw [recover_of_halt hr, recover_of_halt hr']
      exact .error ht

/-- The change comes after both runs, whatever became of them. -/
theorem ensuring {after : Session → Session} (h : Rereads text p q)
    (hAfter : Unwritten (modify after) (modify after)) :
    Rereads text (p.ensuring after) (q.ensuring after) := by
  have hLeft {t t' : Session} (ht : Transcribed text t t') :
      Transcribed text (after t) (after t') := by
    obtain ⟨y, rfl, ht⟩ := ht
    exact (hAfter.rereads t y ht).left
  intro s x hs
  have hAgree := h s x hs
  generalize hr : p s = r, hr' : q (s.rendered x) = r' at hAgree
  cases hAgree with
  | ok ht =>
    rw [ensuring_of_ok hr, ensuring_of_ok hr']
    exact .ok (hLeft ht)
  | error ht =>
    rw [ensuring_of_error hr, ensuring_of_error hr']
    exact .error (hLeft ht)

/-- A function is closed whatever became of it. -/
theorem insideFunction (h : Rereads text p q) (kind : Grammar.FunctionKind) (name : Option String)
    (line column : Nat) : Rereads text (Grammar.insideFunction kind name line column p)
      (Grammar.insideFunction kind name line column q) := by
  have hClose :
      Rereads text (Grammar.closeFunction line column) (Grammar.closeFunction line column) :=
    (Unwritten.closeFunction line column).rereads
  intro s x hs
  have hEntered : (Grammar.withFunction s kind name line column).Reread text x :=
    hs.placed (t := Grammar.withFunction s kind name line column)
      ⟨rfl, rfl, rfl, rfl, rfl⟩ hs.journal
  have hAgree := h _ x hEntered
  generalize hr : p (Grammar.withFunction s kind name line column) = r,
    hr' : q ((Grammar.withFunction s kind name line column).rendered x) = r' at hAgree
  -- a note does not depend on how the comment is written
  cases hAgree with
  | @ok a t t' ht =>
    obtain ⟨y, rfl, ht⟩ := ht
    rw [insideFunction_of_ok hr, insideFunction_of_ok (s := s.rendered x) hr']
    exact bind hClose (fun _ => pure a) t y ht
  | error ht =>
    obtain ⟨y, rfl, ht⟩ := ht
    rw [insideFunction_of_error hr, insideFunction_of_error (s := s.rendered x) hr']
    exact .error (hClose _ y ht).left

/-! ### Loops -/

/-- By induction on the rounds of the first run. Neither run uses up its rounds, of which there may
be more in the second one. -/
theorem rounds (hText : PlainText text) {f : α → Parse (Round α)}
    (hStep : ∀ a, Grammar.RoundConsumes (f a))
    (h : ∀ a, Rereads text (f a) (f a)) {n m : Nat} {s : Session} {x : Rendering}
    (hs : s.Reread text x) (hn : s.budget ≤ n) (hm : (s.rendered x).budget ≤ m) (a : α) :
    Agree (Transcribed text) (Parse.rounds f n a s) (Parse.rounds f m a (s.rendered x)) := by
  induction n generalizing m s x a with
  | zero => exact absurd hn (Nat.not_le.mpr hs.aligned.budget_pos)
  | succ n ih =>
    have hThere := hs.aligned_rendered hText
    cases m with
    | zero => exact absurd hm (Nat.not_le.mpr hThere.budget_pos)
    | succ m =>
      have hAgree := h a s x hs
      rw [Parse.rounds, Parse.rounds]
      generalize hr : f a s = r, hr' : f a (s.rendered x) = r' at hAgree
      cases hAgree with
      | error ht =>
        rw [bind_of_error hr, bind_of_error hr']
        exact .error ht
      | @ok b t t' ht =>
        rw [bind_of_ok hr, bind_of_ok hr']
        cases b with
        | done b => exact .ok ht
        | again b =>
          obtain ⟨y, rfl, ht⟩ := ht
          -- in both runs the next round starts further on, where fewer tokens are left
          have hLess :=
            budget_lt ((hStep a).proceeds hs.aligned hr)
              ((hStep a).gains hs.aligned trivial hr trivial)
          have hLess' :=
            budget_lt ((hStep a).proceeds hThere hr') ((hStep a).gains hThere trivial hr' trivial)
          exact ih ht (by omega) (by omega) b

/-- Both runs go round equally often, although the budgets of their texts differ. -/
theorem loop (hText : PlainText text) {f : α → Parse (Round α)}
    (hStep : ∀ a, Grammar.RoundConsumes (f a))
    (h : ∀ a, Rereads text (f a) (f a)) (a : α) : Rereads text (loop f a) (loop f a) :=
  fun _ _ hs => rounds hText hStep h hs (Nat.le_refl _) (Nat.le_refl _) a

/-- Both runs are unfolded as often as the one with more tokens left. -/
theorem recursive (hText : PlainText text) {form : Parse α → Parse α}
    (hForm : ∀ s : Session, s.Aligned → ∀ n, s.budget ≤ n →
    form^[n] tooDeep s = Parse.recursive form s)
    (h : ∀ n, Rereads text (form^[n] tooDeep) (form^[n] tooDeep)) :
    Rereads text (Parse.recursive form) (Parse.recursive form) := by
  intro s x hs
  rw [← hForm s hs.aligned _ (Nat.le_max_left _ (s.rendered x).budget),
    ← hForm (s.rendered x) (hs.aligned_rendered hText) _ (Nat.le_max_right s.budget _)]
  exact h _ s x hs

/-- What is left of a statement is skipped in both runs. -/
theorem resync {first : Token} {w : Wording} (hFirst : (returning text).Like first w)
    (h : ∀ moved, Rereads text (Parse.loop Grammar.skipToken moved)
    (Parse.loop Grammar.skipToken moved)) :
    Rereads text (Grammar.resync first.offset) (Grammar.resync w.offset) := by
  refine read fun s x hx => ?_
  have hMoved : ((s.token.reworded x.token).offset ≠ w.offset : Bool) =
      (s.token.offset ≠ first.offset : Bool) :=
    decide_eq_decide.mpr (not_congr ((returning text).offset hx.token hFirst))
  show Rereads text (discard (Parse.loop Grammar.skipToken (s.token.offset ≠ first.offset : Bool)))
    (discard (Parse.loop Grammar.skipToken ((s.token.reworded x.token).offset ≠ w.offset : Bool)))
  rw [hMoved]
  exact bind (h _) fun _ => pure ()

/-! ### Tokens -/

/-- Looking ahead gives the same answer. -/
theorem peek (hText : PlainText text) (n : Nat) {g : Option Token → α}
    (hg : ∀ t w, (returning text).Like t w → g (some (t.reworded w)) = g (some t)) :
    Rereads text (do return g (← Parse.peek n)) (do return g (← Parse.peek n)) := by
  intro s x hs
  obtain ⟨l, hStream, hEnds⟩ := hs.stream
  obtain ⟨hAfter, t, hSound, hHere, hThere⟩ := hStream.peek hText n
  show Agree _ (.ok (g (s.stream.peek n).1) { s with stream := (s.stream.peek n).2 })
    (.ok (g (x.stream.peek n).1) { s.rendered x with stream := (x.stream.peek n).2 })
  rw [hHere, hThere, hSound.crlf_eq, hg t _ ⟨hSound, rfl⟩]
  exact .ok ⟨{ x with stream := (x.stream.peek n).2 }, rfl,
    ⟨l, hAfter, hEnds⟩, hs.token, hs.previous, hs.front, hs.other, hs.journal⟩

/-- Looking ahead for an arrow leaves both streams in step. -/
theorem startsArrow (hText : PlainText text) : Rereads text startsArrow startsArrow := by
  intro s x hs
  obtain ⟨l, hStream, hEnds⟩ := hs.stream
  obtain ⟨hAfter, hSame⟩ := hStream.closesBeforeArrow hText
  show Agree _ (.ok s.stream.closesBeforeArrow.1 { s with stream := s.stream.closesBeforeArrow.2 })
    (.ok x.stream.closesBeforeArrow.1 { s.rendered x with stream := x.stream.closesBeforeArrow.2 })
  rw [hSame]
  exact .ok ⟨{ x with stream := x.stream.closesBeforeArrow.2 }, rfl,
    ⟨l, hAfter, hEnds⟩, hs.token, hs.previous, hs.front, hs.other, hs.journal⟩

/-- A slash is read again in both texts or in neither. -/
theorem allowRegex (hText : PlainText text) : Rereads text allowRegex allowRegex := by
  intro s x hs
  obtain ⟨l, hStream, hEnds⟩ := hs.stream
  obtain ⟨l', hCursor, hAfter⟩ := hStream.allowRegex hText
  have hOffset : l'.offset = l.offset := congrArg Cursor.offset hCursor
  exact .ok ⟨{ x with stream := x.stream.allowRegex }, rfl,
    ⟨l', hAfter, hOffset.symm ▸ hEnds⟩, hs.token, hs.previous, hs.front, hs.other, hs.journal⟩

/-- Of a result the same note is taken, however the lines of the text end. -/
theorem note_crlfResult (r : Lexer.Result) : note (Lexer.crlfResult text r) = note r := by
  cases r with
  | error e => rfl
  | ok t =>
    obtain ⟨kind, raw, start, endColumn, newlineBefore⟩ := t
    cases kind <;> rfl

/-- Consuming a token leads from sessions in step to such sessions again: what was consumed is
checked, what stands before the next token is noted, and the lines before it are measured alike. -/
theorem advance (hText : PlainText text) : Rereads text advance advance := by
  intro s x hs
  obtain ⟨l, hStream, hEnds⟩ := hs.stream
  have hFollows := hStream.untemplated.follows
  obtain ⟨rs, t, l', hLeads, hSound, -, -, hAfter⟩ := hStream.pullSignificant hText
  obtain ⟨-, hBehind, hEnds'⟩ := hLeads.lies hFollows
  have hNotes : Unwritten (rs.forM note) ((rs.map (Lexer.crlfResult text)).forM note) := by
    rw [List.forM_eq_forM, List.forM_map]
    refine Unwritten.forM fun r => ?_
    rw [note_crlfResult]
    exact Unwritten.note r
  rw [advance_eq hStream.front hLeads, advance_eq (s := s.rendered x) hStream.other
    (hLeads.crlf hText hStream.untemplated).1]
  refine (Unwritten.checkConsumed s x hs.journal).bind (fun _ m m' hm => ?_) fun _ _ hm =>
    hm.transcribed hs
  obtain ⟨hPlaced, journal, rfl, hJournal⟩ := hm
  -- while notes are taken, the stream is ahead of the current token
  let pulled : Session := { m with
    consumed := m.token.offset + m.token.raw.length, stream := s.stream.pullSignificant.2 }
  let y : Rendering := { x with
    journal
    consumed := x.token.offset + x.token.raw.length
    stream := x.stream.pullSignificant.2 }
  have hPulled : pulled.Reread text y := by
    refine ⟨⟨l', hAfter, ?_⟩, hPlaced.token ▸ hs.token, hPlaced.previous ▸ hs.previous,
      hPlaced.sourceLength.trans hs.front, hs.other, hJournal⟩
    have hFurther : l.offset ≤ l'.offset := Nat.le_trans hBehind hEnds'.le
    show Lexer.EndsBy m.token l'.offset
    rw [hPlaced.token]
    exact hEnds.imp (Nat.lt_of_lt_of_le · hFurther) (And.imp_right (Nat.le_trans · hFurther))
  show Agree _ ((rs.forM note >>= _) pulled)
    (((rs.map (Lexer.crlfResult text)).forM note >>= _) (pulled.rendered y))
  refine (hNotes pulled y hJournal).bind (fun _ n n' hn => ?_) fun _ _ hn => hn.transcribed hPulled
  obtain ⟨hNoted, journal', rfl, hJournal'⟩ := hn
  have hThere := hPulled.placed hNoted hJournal'
  let arrived : Session := { n with previous := n.token, token := t }
  let z :
      Rendering :=
      { y with journal := journal', previous := y.token, token := (t.crlf text).wording }
  have hArrived : arrived.Reread text z := by
    refine ⟨⟨l', ?_, hEnds'⟩, ⟨hSound, rfl⟩, hThere.token, hThere.front, hThere.other, hJournal'⟩
    show TokenStream.Tandem text l' n.stream _
    rw [hNoted.stream]
    exact hAfter
  have hEnd := (Unwritten.checkLinesBefore t.line).rereads arrived z hArrived
  have hSame : arrived.rendered z = { n.rendered { y with journal := journal' } with
      previous := (n.rendered { y with journal := journal' }).token, token := t.crlf text } := by
    rw [hSound.crlf_eq]
    rfl
  rw [hSame] at hEnd
  exact hEnd

end Rereads

end Parse

end ScriptLint
