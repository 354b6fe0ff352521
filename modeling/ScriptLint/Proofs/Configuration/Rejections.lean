import ScriptLint.Proofs.Configuration.Overrides
import ScriptLint.Proofs.Directives.Extent
import ScriptLint.Proofs.Log.Stops

/-!
# Rejected options

A run rejects options at two places: those it is given, before anything is read, and those of the
directives it passes. So the options that overrides give never lead to a rejection on a source
without directives.

- `Diagnostic.IsRejection`: the diagnostics about options.
- `Session.Passes`: results are read, and only directives among them lead to rejections.
- `passing`: all changes of a run are such.
- `rejections_directed`: a run whose options are valid rejects nothing but what directives say.
- `overrides_accepted`: what a sequence of overrides leads to.
-/

namespace ScriptLint

open Parse Grammar Lexer

/-- The diagnostic is about the options of a run or a directive, and not about a stop. -/
def Diagnostic.IsRejection (d : Diagnostic) : Prop := d.phase = .configuration ∧ d.code ≠ "E042"

/-- What is found in a program is no rejection. -/
theorem Finding.not_isRejection (f : Finding) (line column : Nat) :
    ¬(f.diagnostic line column).IsRejection := by
  rintro ⟨hPhase, hCode⟩
  cases f with
  | stopping percent => exact hCode rfl
  | _ => cases hPhase

/-- What is read in two stretches is read in one. -/
theorem Lexer.Yields.trans {l l' l'' : Lexer} {read later : List Result} (h : Yields l read l')
    (h' : Yields l' later l'') : Yields l (read ++ later) l'' := by
  induction h' with
  | start =>
    rw [List.append_nil]
    exact h
  | read _ ih =>
    rw [← List.append_assoc]
    exact ih.read
  | allow _ ih => exact ih.allow

namespace Session

variable {s t u : Session}

/-- Results are read on the way, and nothing is rejected unless there is a directive among them. -/
def Passes (s t : Session) : Prop :=
  ∀ l, s.stream.From l → ∃ read l', Yields l read l' ∧ t.stream.From l' ∧
    ((∀ r ∈ read, directive? r = none) → ∀ d ∈ t.journal.kept, d.IsRejection → d ∈ s.journal.kept)

/-- A rejection that is new after two steps was made in one of them. -/
theorem Passes.trans (h : s.Passes t) (h' : t.Passes u) : s.Passes u := by
  intro l hl
  obtain ⟨read, m, hRead, hm, hKept⟩ := h l hl
  obtain ⟨later, n, hLater, hn, hKept'⟩ := h' m hm
  refine ⟨read ++ later, n, hRead.trans hLater, hn, fun hNone d hd hRejection => ?_⟩
  obtain ⟨hFirst, hRest⟩ := List.forall_mem_append.mp hNone
  exact hKept hFirst d (hKept' hRest d hd hRejection) hRejection

/-- Looking ahead reads nothing for good. -/
theorem Passes.look (hStream : ∀ l, s.stream.From l → t.stream.From l ∨ t.stream.From l.allowRegex)
    (hKept : ∀ d ∈ t.journal.kept, d.IsRejection → d ∈ s.journal.kept) : s.Passes t := by
  intro l hl
  rcases hStream l hl with hSame | hAllowed
  · exact ⟨[], l, .start, hSame, fun _ => hKept⟩
  · exact ⟨[], _, Yields.start.allow, hAllowed, fun _ => hKept⟩

/-- Where the stream and the journal stay as they are, nothing is rejected. -/
theorem Passes.same (h : (t.stream, t.journal) = (s.stream, s.journal)) : s.Passes t := by
  obtain ⟨hStream, hJournal⟩ := Prod.mk.inj h
  exact .look (fun _ hl => .inl (hStream ▸ hl)) fun _ hd _ => hJournal ▸ hd

end Session

/-- The contract to reject nothing but what directives say. -/
def passing : Contract where
  Goes := Session.Passes
  Stops := Session.Passes
  refl _ := .same rfl
  trans := .trans
  stop := .trans

namespace Parse

variable {α : Type} {p : Parse α} {s : Session}

/-- A diagnostic that is no rejection may be reported. -/
theorem passing_emit {d : Diagnostic} (h : ¬d.IsRejection) : passing.Keeps (emit d) := by
  intro s
  have hRecord (e : Diagnostic) (he : e ∈ (s.journal.record d).kept) (hRejection : e.IsRejection) :
      e ∈ s.journal.kept := by
    rcases Journal.mem_kept_perform (.submit d) he with hOld | hNew | hNew
    · exact hOld
    · exact (h (Event.submit.inj hNew ▸ hRejection)).elim
    · cases hNew
  unfold emit
  dsimp only
  -- what is kept afterwards was kept before, or is the diagnostic, or the last one of a run that
  -- stops
  split
  · refine Session.Passes.look (fun _ => .inl) fun e he hRejection => ?_
    rcases Journal.mem_kept_perform (.halt _) he with hOld | hNew | hNew
    · exact hRecord e hOld hRejection
    · cases hNew
    · obtain rfl := Event.halt.inj hNew
      exact (Finding.not_isRejection _ _ _ hRejection).elim
  · exact Session.Passes.look (fun _ => .inl) hRecord

/-- No finding of the grammar is a rejection. -/
theorem passing_warnAt (f : Finding) (line column : Nat) : passing.Keeps (warnAt f line column) :=
  passing_emit (f.not_isRejection line column)

theorem passing_attentive : passing.Attentive where
  warnAt line column _ := passing_warnAt _ line column
  noted := by
    rintro s t ⟨_, _, _, rfl⟩
    exact .same rfl

/-- A change of other parts of the session. -/
theorem passing_modify {f : Session → Session}
    (h : ∀ s, ((f s).stream, (f s).journal) = (s.stream, s.journal)) : passing.Keeps (modify f) :=
  passing.modify fun s => .same (h s)

theorem passing_flushScopes : passing.Keeps flushScopes :=
  passing.read fun _ => passing.bind (passing_modify fun _ => rfl) fun _ =>
    passing.forM fun _ _ => passing_warnAt _ _ _

/-- A result that is no directive rejects nothing. -/
theorem passing_note {r : Result} (h : directive? r = none) : passing.Keeps (note r) := by
  rcases note_of_plain h with hNote | ⟨e, hNote⟩
  · exact hNote ▸ passing.pure ()
  · rw [hNote]
    refine passing_emit fun hRejection => ?_
    cases hRejection.1

/-- Everything up to the next significant token is read. -/
theorem passing_nextSignificant : passing.Keeps nextSignificant := by
  refine passing.readAt fun s => ?_
  let pulled : Session := { s with stream := s.stream.pullSignificant.2 }
  show Settles _ _ ((s.stream.pullSignificant.1.forM note >>= fun _ => pure _) pulled)
  by_cases hNone : ∀ r ∈ s.stream.pullSignificant.1, directive? r = none
  · have hNotes : passing.Keeps (s.stream.pullSignificant.1.forM note) :=
      passing.forM fun r hr => passing_note (hNone r hr)
    have hAfter (t : Session) (ht : pulled.Passes t) : s.Passes t := by
      intro l hl
      obtain ⟨rs, next, l', hLeads⟩ := exists_leads l
      obtain ⟨-, hFrom, -⟩ := TokenStream.pullSignificant_spec hl hLeads
      obtain ⟨later, m, hLater, hm, hKept⟩ := ht l' hFrom
      refine ⟨rs ++ later, m, (Yields.start.leads hLeads).trans hLater, hm, fun hAll => ?_⟩
      exact hKept (List.forall_mem_append.mp hAll).2
    exact (passing.bind hNotes (fun _ => passing.pure _) pulled).imp hAfter hAfter
  · -- whatever a directive does, it does not touch the stream
    have hNotes : Resolves placed (s.stream.pullSignificant.1.forM note) :=
      .forM fun r _ => placed_note r
    have hAfter (t : Session) (ht : pulled.Placed t) : s.Passes t := by
      intro l hl
      obtain ⟨rs, next, l', hLeads⟩ := exists_leads l
      obtain ⟨hResults, hFrom, -⟩ := TokenStream.pullSignificant_spec hl hLeads
      refine ⟨rs, l', Yields.start.leads hLeads, ht.stream ▸ hFrom, fun hAll => ?_⟩
      exact absurd (hResults ▸ hAll) hNone
    exact ((hNotes.bind fun _ => .pure _) pulled).settles.imp hAfter hAfter

/-- Consuming a token rejects what the directives before the next token say. -/
theorem passing_advance : passing.Keeps advance := by
  refine passing.bind passing_attentive.checkConsumed fun _ => ?_
  refine passing.bind (passing_modify fun _ => rfl) fun _ => ?_
  refine passing.bind passing_nextSignificant fun next => ?_
  refine passing.bind (passing_modify fun _ => rfl) fun _ => ?_
  exact passing_attentive.checkLinesBefore next.line

theorem passing_peek (n : Nat) : passing.Keeps (peek n) :=
  fun _ => .look (fun _ hl => .inl (TokenStream.from_peek n hl)) fun _ hd _ => hd

theorem passing_peekIs (test : Token → Bool) : passing.Keeps (peekIs test) :=
  passing.bind (passing_peek 0) fun _ => passing.pure _

/-- One case for each step. -/
theorem passing_step (h : Step p) : passing.Keeps p := by
  cases h with
  | warnAt f line column _ => exact passing_warnAt f line column
  | failAt f t hGivesUp => exact passing_attentive.failAt t (isOrdinary_of_givesUp hGivesUp)
  | advance => exact passing_advance
  | advanceToStatement =>
    refine passing.bind (passing.modify fun s => ?_) fun _ => passing_advance
    exact .look (fun _ => TokenStream.from_allowRegex) fun _ hd _ => hd
  | peekIs test _ => exact passing_peekIs test
  | peekArrowAfterNext => exact passing.bind (passing_peek 1) fun _ => passing.pure _
  | startsArrow =>
    exact fun _ => .look (fun _ hl => .inl (TokenStream.from_closesBeforeArrow hl)) fun _ hd _ => hd
  | count f => exact passing_modify fun _ => rfl
  | names _ => exact passing_modify fun _ => rfl
  | flushScopes => exact passing_flushScopes
  | setHint name => exact passing_modify fun _ => rfl
  | makeStrict => exact passing_modify fun _ => rfl
  | checkFiltered t =>
    have hStarts : passing.Keeps bodyStartsWithIf :=
      passing.read fun _ => passing.ite _ (passing.pure _)
        (passing.ite _ (passing_peekIs _) (passing.pure _))
    refine passing.read fun _ => passing.ite _ (passing.bind hStarts fun _ => ?_) (passing.pure ())
    exact passing.ite _ (passing_warnAt _ _ _) (passing.pure ())

/-- A block is entered with a finding at most. -/
theorem passing_enterBlock (opener : Token) : passing.Keeps (enterBlock opener) := by
  refine passing.bind (passing_modify fun _ => rfl) fun _ => passing.read fun s => ?_
  exact passing.ite _ (passing_warnAt _ _ _) (passing.pure ())

/-- So is a function closed. -/
theorem passing_closeFunction (line column : Nat) : passing.Keeps (closeFunction line column) := by
  refine passing.readAt fun s => passing.setAt (.same rfl) ?_
  exact passing.bind (passing.forM fun _ _ => passing_warnAt _ _ _) fun _ => passing_flushScopes

/-- The last checks report findings only. -/
theorem passing_lastChecks (s : Session) : passing.Keeps (lastChecks s) :=
  passing.bind (passing_attentive.checkLinesBefore _) fun _ => passing_flushScopes

end Parse

/-! ## Runs -/

namespace Session

variable {s t : Session}

/-- What is opened rejects nothing. -/
theorem Enters.passes (h : s.Enters t) : s.Passes t := by
  cases h with
  | block opener h =>
    have hBlock := passing_enterBlock opener s
    rw [h] at hBlock
    exact hBlock
  | overlay h =>
    obtain ⟨-, rfl⟩ := EStateM.Result.ok.inj h
    exact .same rfl
  | _ => exact .same rfl

/-- Nor does what is left. -/
theorem Leaves.passes (h : s.Leaves t) : s.Passes t := by
  cases h with
  | function line column => exact (passing_closeFunction line column s).left
  | _ => exact .same rfl

/-- Every move of a run passes its rejections on. -/
theorem Moves.passes (h : s.Moves t) : s.Passes t := by
  cases h with
  | step h ht =>
    have hStep := passing_step h s
    rw [ht] at hStep
    exact hStep
  | peek => exact .look (fun _ hl => .inl (TokenStream.from_peek 0 hl)) fun _ hd _ => hd
  | fails h =>
    obtain ⟨α, p, hStep, ht⟩ := h
    have hKept := passing_step hStep s
    rw [ht] at hKept
    exact hKept
  | enters h => exact h.passes
  | leaves h => exact h.passes

/-- So does what stops the run. -/
theorem Strikes.passes (h : s.Strikes t) : s.Passes t := by
  cases h with
  | step h ht =>
    have hStep := passing_step h s
    rw [ht] at hStep
    exact hStep
  | block opener h =>
    have hBlock := passing_enterBlock opener s
    rw [h] at hBlock
    exact hBlock
  | function line column h =>
    have hClose := passing_closeFunction line column s
    rw [h] at hClose
    exact hClose
  | level h =>
    obtain ⟨-, rfl⟩ := EStateM.Result.error.inj h
    refine .look (fun _ => .inl) fun d hd hRejection => ?_
    rcases Journal.mem_kept_perform (.halt _) hd with hOld | hNew | hNew
    · exact hOld
    · cases hNew
    · obtain rfl := Event.halt.inj hNew
      exact (Finding.not_isRejection _ _ _ hRejection).elim
  | spent => exact .same rfl

/-- By induction on the changes. -/
theorem Reaches.passes (h : s.Reaches t) : s.Passes t := by
  induction h with
  | refl => exact .same rfl
  | tail _ hMove ih => exact ih.trans hMove.passes

/-- And what happens until the run has come to its end. -/
theorem Withdraws.passes (h : s.Withdraws t) : s.Passes t := h.reaches.passes

end Session

/-- A program whose options are valid passes what it reads, whatever becomes of it. -/
theorem program_passes (s : Session) : s.Passes (left (program [] s)) := by
  have hCourse := courses_program (coursing_levels maxNesting) s
  show s.Passes
    (left
    ((do advance; prologue; discard (statementList (levels maxNesting) .program) : Parse Unit) s))
  cases hr :
    (do advance; prologue; discard (statementList (levels maxNesting) .program) : Parse Unit) s with
  | ok u t =>
    rw [hr] at hCourse
    exact hCourse.reaches.passes
  | error e t =>
    rw [hr] at hCourse
    cases e with
    | badSyntax => exact (Session.Drops.runs hCourse).reaches.passes
    | halt =>
      obtain ⟨last, struck, hm, hStrikes, hWithdraws⟩ := hCourse
      exact (hm.reaches.passes.trans hStrikes.passes).trans hWithdraws.passes

/-- If none of the options is rejected and the run reads no directive, it rejects nothing. A program
that is not stopped reads everything up to the end of the source. -/
theorem rejections_directed (source : String) (options : Options)
    (globals : Option Predefined.Globals) (hValid : (Setting.Layers.ofOptions options).2 = []) :
    ∃ read l, Yields (.ofSource source) read l ∧
      (∀ u t, program (Setting.Layers.ofOptions options).2
        (.start source options globals) = .ok u t → t.stream.From l) ∧
      ((∀ r ∈ read, directive? r = none) → ∀ d ∈ (lint source options globals).diagnostics,
        ¬d.IsRejection) := by
  let start := Session.start source options globals
  obtain ⟨ended, hEnded⟩ : ∃ t, left (program [] start) = t := ⟨_, rfl⟩
  let settled : Session := { ended with scopes := (ended.scopes.finish ended.layers).2 }
  have hFinal : Session.final source options globals = left (lastChecks ended settled) := by
    rw [final_eq, hValid, hEnded, finish_eq]
    rfl
  have hProgram : start.Passes ended := hEnded ▸ program_passes start
  have hSettled : ended.Passes settled := .same rfl
  have hLast : settled.Passes (left (lastChecks ended settled)) :=
    (passing_lastChecks ended settled).left
  obtain ⟨read, l, hRead, hFrom, hKept⟩ :=
    (hProgram.trans (hSettled.trans hLast)) _ (TokenStream.from_ofSource source)
  refine ⟨read, l, hRead, fun u t ht => ?_, fun hNone d hd hRejection => ?_⟩
  · rw [hValid] at ht
    rw [show program [] start = .ok u t from ht] at hEnded
    obtain rfl : t = ended := hEnded
    -- the last checks read nothing more
    have hPlaced := (placed_lastChecks t settled).settles.left
    exact hPlaced.stream ▸ hFrom
  · rw [lint_diagnostics_eq, hFinal] at hd
    exact absurd (hKept hNone d (List.mem_reverse.mp hd) hRejection) List.not_mem_nil

/-! ## Overrides -/

/-- An override that is refused leaves the configuration as it was, and the configuration is made of
the accepted ones alone. A run under it rejects none of its options; a setting that was overridden
has the value read last, a code is ignored if its key was switched on last, and without directives
nothing is rejected at all. -/
theorem overrides_accepted (raws : List String) :
    (∀ (c : Config) (raw : String) e, c.override raw = .error e → c.attempt raw = c) ∧
      ({} : Config).overrideAll (raws.filter fun raw => (Config.accepted? raw).isSome) =
        .ok (Config.attempts {} raws) ∧
      (Setting.Layers.ofOptions (Config.attempts {} raws).options).2 = [] ∧
      (∀ (s : Setting) (text : String), Config.lastAccepted raws s.name = some text →
        s.read text =
          .ok ((Setting.Layers.ofOptions (Config.attempts {} raws).options).1.resolve s)) ∧
      (∀ code, code ∈ (Config.attempts {} raws).options.ignoredCodes ↔
        ∃ key, Setting.ignoredCode? key = some code ∧ Config.lastAccepted raws key = some "true") ∧
      ∀ source globals, ∃ read l, Yields (.ofSource source) read l ∧
        (∀ u t, program [] (.start source (Config.attempts {} raws).options globals) = .ok u t →
          t.stream.From l) ∧
        ((∀ r ∈ read, directive? r = none) →
          ∀ d ∈ (lint source (Config.attempts {} raws).options globals).diagnostics,
          d.phase = .configuration → d.code = "E042") := by
  have hValid := (Config.valid_attempts raws).accepted
  refine ⟨fun c raw e h => ?_, Config.overrideAll_accepted {} raws, hValid,
    fun s text => Config.resolve_attempts,
    Config.mem_ignoredCodes_attempts raws, fun source globals => ?_⟩
  · rw [Config.attempt, h]
  · obtain ⟨read, l, hRead, hEnd, hNone⟩ :=
      rejections_directed source (Config.attempts {} raws).options globals hValid
    refine ⟨read, l, hRead, fun u t ht => hEnd u t (hValid ▸ ht), fun hDirectives d hd hPhase => ?_⟩
    by_contra hCode
    exact hNone hDirectives d hd ⟨hPhase, hCode⟩

/-- A limit that is overridden twice, then once more without success, and a code that is ignored. -/
theorem overrides_accepted_limit :
    let raws := ["maxlen=80", "-W033=true", " maxlen = 90 ", "maxlen=wide"]
    let config := Config.attempts {} raws
    (Setting.Layers.ofOptions config.options).1.resolve .maxlen = .limit 90 ∧
      "W033" ∈ config.options.ignoredCodes ∧
      ∃ read l, Yields (.ofSource "x = 1") read l ∧ ((∀ r ∈ read, directive? r = none) →
        ∀ d ∈ (lint "x = 1" config.options none).diagnostics, d.phase = .configuration → d.code =
          "E042") := by
  intro raws config
  obtain ⟨-, -, -, hResolve, hIgnored, hRuns⟩ := overrides_accepted raws
  have hLimit : Config.lastAccepted raws "maxlen" = some "90" := by decide +kernel
  have hCode : Config.lastAccepted raws "-W033" = some "true" := by decide +kernel
  obtain ⟨read, l, hRead, -, hNone⟩ := hRuns "x = 1" none
  refine ⟨?_, (hIgnored "W033").mpr ⟨"-W033", by decide, hCode⟩, read, l, hRead, hNone⟩
  have hValue : Setting.maxlen.read "90" = .ok (.limit 90) := by decide +kernel
  exact (Except.ok.inj (hValue.symm.trans (hResolve .maxlen "90" hLimit))).symm

end ScriptLint
