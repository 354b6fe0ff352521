import ScriptLint.Proofs.Composition.Program
import ScriptLint.Proofs.LineEndings.Sessions
import ScriptLint.Proofs.Nesting

/-!
# Line ends make no difference

A source and the source with a carriage return before every line feed have the same report, but for
the texts of the diagnostics. Templates are left out: their values are the raw text.

- `measureLines_withReturns`: the lines are as long.
- `Composition.rereads`: what is composed of parts runs alike over both sources.
- `line_ends_indifferent`: the reports of the two runs.
-/

namespace ScriptLint

open Parse Grammar

/-! ## Lines -/

/-- The source with a carriage return before every line feed. -/
def withReturns (source : String) : String := String.ofList (crlf source.toList)

/-- The length of a line without the carriage returns at its end. -/
def trimmedLength (line : List Char) : Nat := (line.reverse.dropWhile (· == '\r')).length

/-- A character that is no carriage return counts. -/
theorem trimmedLength_cons {c : Char} (h : c ≠ '\r') (line : List Char) :
    trimmedLength (c :: line) = trimmedLength line + 1 := by
  have hKept : [c].dropWhile (· == '\r') = [c] := List.dropWhile_cons_of_neg (by simpa using h)
  unfold trimmedLength
  rw [List.reverse_cons, List.dropWhile_append, hKept]
  split
  · next hEmpty => rw [List.isEmpty_iff.mp hEmpty]; rfl
  · rw [List.length_append]; rfl

/-- Such a character lengthens the first line only. -/
theorem trimmedLengths_modifyHead {c : Char} (h : c ≠ '\r') (lines : List (List Char)) :
    (lines.modifyHead (c :: ·)).map trimmedLength =
    (lines.map trimmedLength).modifyHead (· + 1) := by
  cases lines with
  | nil => rfl
  | cons line rest => exact congrArg (· :: rest.map trimmedLength) (trimmedLength_cons h line)

/-- By induction on the text. -/
theorem trimmedLengths_crlf {text : List Char} (h : '\r' ∉ text) :
    ((crlf text).splitOnP (· == '\n')).map trimmedLength =
    (text.splitOnP (· == '\n')).map trimmedLength := by
  induction text with
  | nil => rfl
  | cons c rest ih =>
    rw [List.mem_cons, not_or] at h
    -- a line feed starts a line in both texts, and the carriage return before it is trimmed
    by_cases hc : c = '\n'
    · subst hc
      rw [crlf_feed, List.splitOnP_cons_eq_if_modifyHead, List.splitOnP_cons_eq_if_modifyHead,
        List.splitOnP_cons_eq_if_modifyHead]
      exact congrArg (0 :: ·) (ih h.2)
    · have hOther : ¬(c == '\n') = true := by simpa using hc
      rw [crlf_cons hc, List.splitOnP_cons_eq_if_modifyHead, List.splitOnP_cons_eq_if_modifyHead,
        if_neg hOther,
        if_neg hOther, trimmedLengths_modifyHead (Ne.symm h.1),
        trimmedLengths_modifyHead (Ne.symm h.1), ih h.2]

/-- The lines are as long as before, since a carriage return at the end of a line does not count. -/
theorem measureLines_withReturns {source : String} (h : '\r' ∉ source.toList) :
    measureLines (withReturns source) = measureLines source := by
  unfold measureLines withReturns
  rw [String.toList_ofList]
  exact trimmedLengths_crlf h

/-! ## The grammar -/

namespace Parse

variable {text : List Char}

/-- Counting a decision does not depend on the text. -/
theorem Rereads.addBranch :
    Rereads text (modifyMetrics Metrics.addBranch) (modifyMetrics Metrics.addBranch) :=
  (Unwritten.adjust (f := fun s => { s with metrics := s.metrics.addBranch })
    (fun _ => ⟨rfl, rfl, rfl, rfl, rfl⟩) (fun _ _ => rfl) fun _ => rfl).rereads

/-- A word is expected in both texts alike. -/
theorem Rereads.expectWord (hText : PlainText text) (word : Keyword) :
    Rereads text (expectWord word) (expectWord word) := by
  have hSees : Rereads text (seesWord word) (seesWord word) :=
    .read fun s _ _ => .pure (s.token.isKeyword word)
  refine .bind hSees fun sees => .ite (sees = true) (fun _ => .advance hText) fun _ => ?_
  refine .read fun s x _ => .read fun t y _ => ?_
  let found (u : Session) : Finding := .expectedToken word.spelling u.token.describe
  have hFails :
      Unwritten (failAt (found s) t.token : Parse Unit)
      (failAt (found (s.rendered x)) (t.rendered y).token) :=
    .failAt rfl rfl rfl
  exact hFails.rereads

/-- What would come after giving up does not matter. -/
theorem Rereads.failBefore {α β : Type} {f f' : Finding} {t t' : Token} {k k' : α → Parse β}
    (h : Rereads text (failAt f t : Parse α) (failAt f' t')) :
    Rereads text (failAt f t >>= k) (failAt f' t' >>= k') := by
  intro s x hs
  have hAgree := h s x hs
  generalize hr : (failAt f t : Parse α) s = r, hr' :
    (failAt f' t' : Parse α) (s.rendered x) = r' at hAgree
  cases hAgree with
  | ok => exact absurd hr (failAt_ne_ok f t)
  | error ht =>
    rw [bind_of_error hr, bind_of_error hr']
    exact .error ht

/-- A block is entered and left in the same way. -/
theorem Rereads.withBlock {α : Type} {p q : Parse α} (h : Rereads text p q) (opener : Token)
    (w : Wording) : Rereads text (withBlock opener p) (withBlock (opener.reworded w) q) := by
  have hMetrics (f : Metrics → Metrics) : Unwritten (modifyMetrics f) (modifyMetrics f) :=
    .adjust (fun _ => ⟨rfl, rfl, rfl, rfl, rfl⟩) (fun _ _ => rfl) fun _ => rfl
  have hEnter : Rereads text (enterBlock opener) (enterBlock (opener.reworded w)) :=
    .bind (hMetrics _).rereads fun _ => .read fun s _ _ =>
      .ite _ (fun _ => (Unwritten.warnAt rfl rfl _ _).rereads) fun _ => .pure ()
  exact .bind hEnter fun _ => .ensuring h (hMetrics _)

end Parse

open Rereads in
/-- By induction on the composition. -/
theorem Grammar.Composition.rereads {text : List Char} (hText : PlainText text) {α : Type}
    {T : Token → Prop}
    {p p' : Parse α} {Q : α → Token → Prop} (c : Composition (returning text) T p p' Q) :
    Rereads text p p' := by
  induction c with
  | weaken _ _ _ ih => exact ih
  | pure a _ => exact .pure a
  | bind _ _ ihc ihd => exact .bind ihc ihd
  | assoc _ ih =>
    rw [bind_assoc, bind_assoc]
    exact ih
  | read _ ih => exact .read ih
  | ite c _ _ ihp ihq => exact .ite c ihp ihq
  | peek n g h => exact .peek hText n h
  | startsArrow => exact .startsArrow hText
  | allowRegex => exact .allowRegex hText
  | change f h => exact (Unwritten.change h).rereads
  | warn line column hCode hPhase _ => exact (Unwritten.warnAt hCode hPhase line column).rereads
  | reject problem line column => exact (Unwritten.emit rfl).rereads
  | fail hCode hPhase _ hPlace => exact (Unwritten.failAt hCode hPhase hPlace).rereads
  | failBefore _ ih => exact .failBefore ih
  | flush => exact Unwritten.flushScopes.rereads
  | tooDeep => exact Unwritten.tooDeep.rereads
  | advance use _ => exact .advance hText
  | decide _ _ ih => exact .bind (.advance hText) fun _ => .bind .addBranch fun _ => ih
  | decideLater word _ _ _ _ ihc ihd =>
    exact .bind (.advance hText) fun _ => .bind .addBranch fun _ => .bind ihc fun _ =>
      .bind (.expectWord hText word) fun _ => ihd
  | insideBlock opener w _ _ _ ihc ihd =>
    exact .bind (.advance hText) fun _ => .bind (.withBlock ihc opener w) fun _ => ihd _
  | entry hFirst _ _ ihc ihd => exact .recover ihc (.bind (.resync hFirst ihd) fun _ => .pure _)
  | loop a hStep _ ih => exact .loop hText hStep ih a
  | recursive hForm _ ih => exact .recursive hText hForm ih
  | ensuring after hAfter _ ih => exact .ensuring ih (.change hAfter)
  | insideFunction kind name line column _ ih => exact .insideFunction ih kind name line column

/-! ## Whole runs -/

namespace Session

variable {text : List Char} {s s' : Session}

/-- What does not depend on the texts of the diagnostics is the same. -/
theorem Transcribed.diagnostics {β : Type} (h : s.Transcribed text s') {f : Diagnostic → β}
    (hf : ∀ d : Diagnostic, f d.unworded = f d) :
    s'.journal.diagnostics.map f = s.journal.diagnostics.map f := by
  obtain ⟨x, rfl, hx⟩ := h
  have hUnworded (ds : List Diagnostic) : ds.map f = (ds.map Diagnostic.unworded).map f := by
    rw [List.map_map]
    exact List.map_congr_left fun d _ => (hf d).symm
  have hKept : x.journal.kept.map Diagnostic.unworded = s.journal.kept.map Diagnostic.unworded :=
    congrArg Journal.kept hx.journal
  show x.journal.kept.reverse.map f = s.journal.kept.reverse.map f
  rw [List.map_reverse, List.map_reverse, hUnworded, hKept, ← hUnworded]

/-- The two runs start in step. -/
theorem transcribed_start {source : String} (hText : PlainText source.toList) (options : Options)
    (globals : Option Predefined.Globals) :
    (start source options globals).Transcribed source.toList
    (start (withReturns source) options globals) := by
  let x : Rendering := {
    stream := .ofSource (withReturns source)
    token := Token.origin.wording
    previous := Token.origin.wording
    consumed := 0
    sourceLength := (withReturns source).length
    journal := { ignoredCodes := options.ignoredCodes } }
  have hOrigin : (returning source.toList).Like .origin Token.origin.wording :=
    ⟨Token.sound_origin _, rfl⟩
  refine ⟨x, ?_, ⟨.ofSource source, .ofSource hText, .inr ⟨rfl, Nat.zero_le _⟩⟩, hOrigin, hOrigin,
    ?_, ?_, rfl⟩
  · rw [start, measureLines_withReturns hText.unreturned]
    rfl
  · exact String.length_toList.symm
  · show (withReturns source).length = _
    rw [← String.length_toList, withReturns, String.toList_ofList]

end Session

/-- The end of a run finds the same names, and leaves sessions of the two runs. -/
theorem Parse.finish_transcribed {text : List Char} {s s' : Session} (h : s.Transcribed text s') :
    ∃ names t t', finish s = .ok names t ∧ finish s' = .ok names t' ∧ t.Transcribed text t' := by
  obtain ⟨x, rfl, hx⟩ := h
  let settled : Session := { s with scopes := (s.scopes.finish s.layers).2 }
  have hSettled :
      settled.Reread text x := hx.placed (t := settled) ⟨rfl, rfl, rfl, rfl, rfl⟩ hx.journal
  have hChecks : Unwritten (lastChecks s) (lastChecks s) :=
    .bind (.checkLinesBefore _) fun _ => .flushScopes
  exact ⟨_, _, _, finish_eq s, finish_eq (s.rendered x), (hChecks.rereads settled x hSettled).left⟩

/-- Line ends make no difference: a carriage return before every line feed changes neither the
places, codes and phases of the diagnostics nor what is reported on names and functions. -/
theorem line_ends_indifferent (source : String) (options : Options)
    (globals : Option Predefined.Globals)
    (hReturn : '\r' ∉ source.toList) (hTemplate : '\x60' ∉ source.toList) :
    (lint (withReturns source) options globals).diagnostics.map
        (fun d => (d.line, d.column, d.code, d.severity, d.phase)) =
      (lint source options globals).diagnostics.map
        (fun d => (d.line, d.column, d.code, d.severity, d.phase)) ∧
    (lint (withReturns source) options globals).implied = (lint source options globals).implied ∧
    (lint (withReturns source) options globals).unused = (lint source options globals).unused ∧
    (lint (withReturns source) options globals).globals = (lint source options globals).globals ∧
    (lint (withReturns source) options globals).functions =
    (lint source options globals).functions := by
  have hText : PlainText source.toList := ⟨hReturn, hTemplate⟩
  let problems := (Setting.Layers.ofOptions options).2
  obtain ⟨x, hStart, hx⟩ := Session.transcribed_start hText options globals
  have hProgram := (Composition.program (returning source.toList) problems).rereads hText _ x hx
  rw [← hStart] at hProgram
  obtain ⟨names, t, t', hHere, hThere, hEnds⟩ := finish_transcribed hProgram.left
  have hReport : lint source options globals = t.report names := by
    rw [lint, run_eq, hHere]
  have hReport' : lint (withReturns source) options globals = t'.report names := by
    rw [lint, run_eq, hThere]
  have hFunctions : t'.metrics = t.metrics := by
    obtain ⟨y, rfl, -⟩ := hEnds
    rfl
  rw [hReport, hReport']
  refine ⟨hEnds.diagnostics fun _ => rfl, rfl, rfl, rfl, ?_⟩
  exact congrArg Metrics.finished hFunctions

/-- A string and a comment go over the ends of their lines, and the last statement breaks off. -/
theorem line_ends_indifferent_program :
    let source := "#!/\nx = 'a\\\nb' /*\n*/ + 1\ny("
    '\r' ∉ source.toList ∧ '\x60' ∉ source.toList ∧
      withReturns source = "#!/\r\nx = 'a\\\r\nb' /*\r\n*/ + 1\r\ny(" ∧
      (lint (withReturns source) {} none).diagnostics.map
          (fun d => (d.line, d.column, d.code, d.severity, d.phase)) =
        [(2, 5, "W043", .warning, .semantic), (4, 7, "W033", .warning, .syntactic),
          (5, 3, "E030", .error, .syntactic)] ∧
      (lint (withReturns source) {} none).implied.map (·.name) = ["x", "y"] := by
  intro source
  have hReturn : '\r' ∉ source.toList := by decide +kernel
  have hTemplate : '\x60' ∉ source.toList := by decide +kernel
  obtain ⟨hDiagnostics, hImplied, -⟩ := line_ends_indifferent source {} none hReturn hTemplate
  refine ⟨hReturn, hTemplate, by decide +kernel, hDiagnostics.trans ?_, ?_⟩
  · decide +kernel
  · rw [hImplied]
    decide +kernel

end ScriptLint
