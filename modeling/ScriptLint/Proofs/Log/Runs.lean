import ScriptLint.Proofs.Isolation.Runs
import ScriptLint.Proofs.Log.Statements
import ScriptLint.Proofs.Progress.Termination

/-!
# The log of a whole run

A run has a log from its first session to its last one: what the rejected options are reported for,
the program, and what is left to report at its end. The report is what the log leaves in the
journal.

- `Input.timely_program`: a program keeps the log.
- `Input.tells_final`: so does the end of the run.
- `RunLog`: the log of a run, and the directives of the source that it mentions.
- `exists_runLog`: every run has one, and it keeps to the rules.
- `ignored_lines_silent`: nothing but a last unrecoverable error is reported on a line that the
  directives of the log silence.
-/

namespace ScriptLint

open Parse Grammar Lexer Directive

namespace Input

variable (I : Input)

/-- Nothing was read or reported yet. -/
theorem rests_start (globals : Option Predefined.Globals) :
    I.Rests [] (.start I.source I.options globals) := by
  have hFirst : Token.origin.line ≤ (Lexer.ofSource I.source).line := by
    rw [(follows_ofSource I.source).line_eq]
    exact Nat.le_add_right 1 _
  refine ⟨[], .ofSource I.source,
    ⟨.start, follows_ofSource I.source, TokenStream.from_ofSource I.source,
    hFirst, hFirst, fun n hn => absurd hn List.not_mem_nil⟩, [],
    ⟨.nil, rfl, fun _ => ?_, ?_⟩, rfl, ?_, ?_⟩
  · exact Setting.Layers.untouched_ofOptions I.options
  · exact fun f hf => absurd hf List.not_mem_nil
  · exact fun d hd => absurd hd List.not_mem_nil
  · exact Scope.Tracker.within_fresh _ _

variable {I}

/-- Rejected options are reported before all that the source holds. -/
theorem timely_program (problems : List Setting.Problem) : I.Timely [] (program problems) := by
  have hLevels := I.nested_levels maxNesting
  have hProblems : I.Timely [] (reportProblems problems 0 0) :=
    .remain (fun line _ => .reportProblems problems (Nat.zero_le line))
      (placed_reportProblems problems 0 0)
  refine .bind hProblems fun _ => .bind .advance fun _ => .bind Nested.prologue fun _ => ?_
  exact .discard (hLevels.statementList .program)

/-- The end of a run lets no directive take effect. -/
theorem Told.finish {t : Session} {log : List Event} (h : I.Told t log) :
    ∃ log', I.Told (left (finish t)) log' ∧ directedIn log' = directedIn log := by
  have hSettled : I.Told { t with scopes := (t.scopes.finish t.layers).2 } log :=
    h.same rfl id (h.calm.finish t.layers)
  rw [finish_eq]
  refine hSettled.remain (t.checkedLines + t.uncheckedLines.length + 1) fun line hLine => ?_
  exact .bind (.checkLinesBefore (Nat.le_succ_of_le hLine)) fun _ => .flushScopes

end Input

/-- The log leaves the journal with which the run ends. Its directives are those that the lexer
reads, in their order, up to where the run stops; a program that is not stopped lets all of them
take effect. -/
structure RunLog (source : String) (options : Options) (globals : Option Predefined.Globals)
    (log : List Event) : Prop where
  journal : (Session.final source options globals).journal =
    Journal.replay { ignoredCodes := options.ignoredCodes } log
  directed :
    ∃ read l, Yields (.ofSource source) read l ∧ directedIn log <+: read.flatMap directions ∧
    ∀ u t, program (Setting.Layers.ofOptions options).2 (.start source options globals) = .ok u t →
      t.stream.From l ∧ directedIn log = read.flatMap directions

/-- The last session is what `finish` leaves after the program. -/
theorem final_eq (source : String) (options : Options) (globals : Option Predefined.Globals) :
    Session.final source options globals = left (finish (left
      (program (Setting.Layers.ofOptions options).2 (.start source options globals)))) := by
  rw [Session.final, run_eq]

/-- The report shows the diagnostics of the journal with which the run ends. -/
theorem lint_diagnostics_eq (source : String) (options : Options)
    (globals : Option Predefined.Globals) : (lint source options globals).diagnostics =
      (Session.final source options globals).journal.diagnostics := by
  unfold lint Session.final
  cases run (Setting.Layers.ofOptions options).2 (.start source options globals) with
  | ok names t => rfl
  | error e t => rfl

/-- Every run has a log, which keeps to the rules. -/
theorem exists_runLog (source : String) (options : Options) (globals : Option Predefined.Globals) :
    ∃ log, RunLog source options globals log ∧
      Journal.Account { ignoredCodes := options.ignoredCodes }
      ((Setting.Layers.ofOptions options).1.enabled .passfail) log := by
  let I : Input := ⟨source, options⟩
  have hProgram := I.timely_program (Setting.Layers.ofOptions options).2 _ (I.rests_start globals)
  -- whether the program ends or stops, the log is told on through `finish`
  cases hr : program (Setting.Layers.ofOptions options).2 (.start source options globals) with
  | ok u t =>
    rw [hr] at hProgram
    obtain ⟨read, l, hFront, before, hTold, hItems, -⟩ := hProgram
    obtain ⟨log, hLast, hSame⟩ := hTold.finish
    have hFinal : Session.final source options globals = left (finish t) := by
      rw [final_eq, hr]; rfl
    have hAll : directedIn log = read.flatMap directions := hSame.trans hItems
    refine ⟨log, ⟨hFinal ▸ hLast.journal, read, l, hFront.yields, hAll ▸ List.prefix_rfl, ?_⟩,
      hLast.account⟩
    rintro u' t' hr'
    obtain ⟨-, rfl⟩ := EStateM.Result.ok.inj (hr.symm.trans hr')
    exact ⟨hFront.stream, hAll⟩
  | error e t =>
    rw [hr] at hProgram
    obtain ⟨read, l, hYields, before, hTold, hItems⟩ : I.Tells t := by
      -- a syntax error that nobody caught still rests at a token; a halt may be between two tokens
      cases e with
      | badSyntax => exact Input.Rests.tells hProgram
      | halt => exact hProgram
    obtain ⟨log, hLast, hSame⟩ := hTold.finish
    have hFinal : Session.final source options globals = left (finish t) := by
      rw [final_eq, hr]; rfl
    refine ⟨log, ⟨hFinal ▸ hLast.journal, read, l, hYields, hSame ▸ hItems, ?_⟩, hLast.account⟩
    rintro u' t' hr'
    cases hr.symm.trans hr'

/-- Nothing is reported on a line that a directive silences, whether it was found before the
directive was read, after it, or at the end of the run. The one exception is an unrecoverable error,
with which the report ends. -/
theorem ignored_lines_silent (source : String) (options : Options)
    (globals : Option Predefined.Globals) : ∃ log, RunLog source options globals log ∧
      ∀ d ∈ (lint source options globals).diagnostics, Silenced (marksIn log) d.line →
        d.code = "E041" ∧ (lint source options globals).diagnostics.getLast? = some d := by
  obtain ⟨log, hLog, hAccount⟩ := exists_runLog source options globals
  refine ⟨log, hLog, fun d hd hSilenced => ?_⟩
  rw [lint_diagnostics_eq, hLog.journal] at hd ⊢
  have hKept := List.mem_reverse.mp hd
  have hCode : d.code = "E041" := by
    refine (hAccount.quiet rfl d hKept).resolve_right fun hHeard => ?_
    rw [Journal.silences_of_silenced rfl hSilenced] at hHeard
    cases hHeard
  refine ⟨hCode, ?_⟩
  rw [Journal.diagnostics, List.getLast?_reverse]
  exact (hAccount.single rfl).head?_eq hKept (.inl hCode)

end ScriptLint
