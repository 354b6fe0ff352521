import ScriptLint.Proofs.Grammar.Passing

/-!
# The log of a run

What a run does to its journal can be written down as a list of events. Replaying the events gives
the journal, so whatever the report of a run looks like can be read off its log.

- `Event`, `Journal.replay`: events and the journal after them.
- `Journal.Account`: the rules that the log of a run keeps to. What was kept before a directive does
  not lie after it; with `passfail` on, what is kept stops the run.
- `Silenced`: the lines that `ignore` directives silence, by the marks alone.
- `Journal.Account.quiet`: nothing but an unrecoverable error is kept on a silenced line.
- `Journal.Account.single`, `Journal.Account.stopped`: the shape of what is kept.
-/

namespace ScriptLint

open Directive (Marker)

/-- What the log of a run mentions. -/
inductive Event where
  /-- An item of a directive that stands on the line takes effect. -/
  | direct (entry : Directive.Entry) (line : Nat)
  /-- A diagnostic is submitted to the journal. -/
  | submit (d : Diagnostic)
  /-- The run is to stop, and the journal is handed its last diagnostic. -/
  | halt (last : Diagnostic)

namespace Event

/-- The item that takes effect, with its line. -/
def direction? : Event → Option (Directive.Entry × Nat)
  | direct entry line => some (entry, line)
  | _ => none

/-- The diagnostic that the journal is handed. -/
def handed? : Event → Option Diagnostic
  | submit d | halt d => some d
  | direct _ _ => none

/-- The mark that ignores lines, with its own line. -/
def mark? : Event → Option (Marker × Nat)
  | direct (.ignore marker) line => some (marker, line)
  | _ => none

end Event

/-- The items of directives that take effect in a log, with their lines. -/
def directedIn (log : List Event) : List (Directive.Entry × Nat) := log.filterMap Event.direction?

/-- None of the items sets the setting. -/
def Setting.UnsetIn (setting : Setting) (items : List (Directive.Entry × Nat)) : Prop :=
  ∀ value line, (.setOption setting value, line) ∉ items

/-- The diagnostics with the code that the journal is handed in a log. -/
def handedIn (code : String) (log : List Event) : List Diagnostic :=
  (log.filterMap Event.handed?).filter (·.code == code)

/-- The marks of a log. -/
def marksIn (log : List Event) : List (Marker × Nat) := log.filterMap Event.mark?

/-- The directives of a log are read off event by event. -/
@[simp] theorem directedIn_append (log rest : List Event) :
    directedIn (log ++ rest) = directedIn log ++ directedIn rest := List.filterMap_append

namespace Journal

/-- The journal after an event. -/
def perform (j : Journal) : Event → Journal
  | .direct (.ignoreCode code) _ => j.ignoreCode code
  | .direct (.ignore .start) line => j.startRegion line
  | .direct (.ignore .stop) line => j.endRegion line
  | .direct (.ignore .line) line => j.ignoreLine line
  | .direct _ _ => j
  | .submit d => j.record d
  | .halt last => j.halt last

/-- The journal after the events of a log. -/
def replay (j : Journal) (log : List Event) : Journal := log.foldl perform j

theorem replay_append (j : Journal) (log rest : List Event) :
    j.replay (log ++ rest) = (j.replay log).replay rest := List.foldl_append

/-- The rules for the log of a run where `passfail` is on from the start or not, and the journal has
ignored codes only. -/
inductive Account (j : Journal) (passfail : Bool) : List Event → Prop
  | nil : Account j passfail []
  /-- What was kept before a directive does not lie after it. -/
  | direct {log : List Event} (entry : Directive.Entry) (line : Nat) : Account j passfail log →
    (∀ d ∈ (j.replay log).kept, d.code = "E041" ∨ d.line ≤ line) →
    Account j passfail (log ++ [.direct entry line])
  /-- What is kept without a stop is kept because a directive has set `passfail`, or it never was
  on. -/
  | submit {log : List Event} (d : Diagnostic) : Account j passfail log →
    d.code ≠ "E041" → d.code ≠ "E042" →
    (passfail = true → (j.replay log).keeps d →
      ∃ value line, (.setOption .passfail value, line) ∈ directedIn log) →
    Account j passfail (log ++ [.submit d])
  | stop {log : List Event} (d : Diagnostic) (percent : Nat) : Account j passfail log →
    d.code ≠ "E041" → d.code ≠ "E042" → (j.replay log).keeps d →
    Account j passfail
      (log ++ [.submit d, .halt ((Finding.stopping percent).diagnostic d.line d.column)])
  | tooDeep {log : List Event} (percent line column : Nat) : Account j passfail log →
    Account j passfail (log ++ [.halt ((Finding.unrecoverable percent).diagnostic line column)])

end Journal

/-! ## Silenced lines -/

/-- Whether a region is open after the marks. -/
def regionOpen (marks : List (Marker × Nat)) : Bool :=
  marks.foldl (fun isOpen mark => match mark.1 with
    | .start => true
    | .stop => false
    | .line => isOpen) false

/-- The line is silenced: it was marked by itself, or lies in a region that was opened at or before
it and not closed before it. -/
inductive Silenced (marks : List (Marker × Nat)) (line : Nat) : Prop
  | alone : (.line, line) ∈ marks → Silenced marks line
  | region {before after : List (Marker × Nat)} {first : Nat} :
    marks = before ++ (.start, first) :: after → regionOpen before = false → first ≤ line →
    (∀ last, after.find? (·.1 = .stop) = some (.stop, last) → line ≤ last) → Silenced marks line

/-- The open region and the closed ones after a mark. -/
def markRegion (regions : Option Nat × List (Nat × Nat)) (mark : Marker × Nat) :
    Option Nat × List (Nat × Nat) :=
  match mark.1, regions.1 with
  | .start, none => (some mark.2, regions.2)
  | .stop, some first => (none, regions.2 ++ [(first, mark.2)])
  | _, _ => regions

/-- Whether the line lies in the open region or in one of the closed ones. -/
def inRegions (regions : Option Nat × List (Nat × Nat)) (line : Nat) : Bool :=
  regions.1.any (· ≤ line) || regions.2.any fun (first, last) => first ≤ line && line ≤ last

/-- Whether a region is open does not depend on where it begins. -/
theorem isSome_markRegion (marks : List (Marker × Nat)) (regions : Option Nat × List (Nat × Nat)) :
    (marks.foldl markRegion regions).1.isSome = marks.foldl (fun isOpen mark => match mark.1 with
      | .start => true
      | .stop => false
      | .line => isOpen) regions.1.isSome := by
  induction marks generalizing regions with
  | nil => rfl
  | cons mark rest ih =>
    rw [List.foldl_cons, List.foldl_cons, ih]
    congr 1
    obtain ⟨marker, line⟩ := mark
    obtain ⟨current, closed⟩ := regions
    cases marker <;> cases current <;> rfl

/-- Closed regions stay. -/
theorem inRegions_of_closed (marks : List (Marker × Nat)) {regions : Option Nat × List (Nat × Nat)}
    {line : Nat} (h : regions.2.any (fun (first, last) => first ≤ line && line ≤ last) = true) :
    inRegions (marks.foldl markRegion regions) line = true := by
  induction marks generalizing regions with
  | nil => simp [inRegions, h]
  | cons mark rest ih =>
    refine ih ?_
    unfold markRegion
    split
    · exact h
    · simp [h]
    · exact h

/-- A region that was opened at or before the line covers it, unless it is closed before the
line. -/
theorem inRegions_of_open (marks : List (Marker × Nat)) {first line : Nat}
    {closed : List (Nat × Nat)}
    (hFirst : first ≤ line) (hLast : ∀ last, marks.find? (·.1 = .stop) = some (.stop, last) →
    line ≤ last) : inRegions (marks.foldl markRegion (some first, closed)) line = true := by
  induction marks with
  | nil => simp [inRegions, hFirst]
  | cons mark rest ih =>
    obtain ⟨marker, place⟩ := mark
    cases marker with
    | start => exact ih fun last h => hLast last (by simpa [List.find?_cons] using h)
    | stop =>
      have hPlace := hLast place (by simp)
      refine inRegions_of_closed rest ?_
      simp only [markRegion, List.any_append, List.any_cons, List.any_nil, Bool.or_false]
      simp [hFirst, hPlace]
    | line => exact ih fun last h => hLast last (by simpa [List.find?_cons] using h)

namespace Journal

variable {j : Journal} {log : List Event} {passfail : Bool}

/-- Whether what lies on the line is suppressed, whatever its code. -/
def silences (j : Journal) (line : Nat) : Bool :=
  j.ignoredLines.contains line || inRegions (j.openRegion, j.regions) line

/-- A diagnostic that is kept is not on a silenced line. -/
theorem silences_of_keeps {d : Diagnostic} (h : j.keeps d) : j.silences d.line = false := by
  unfold keeps suppresses at h
  unfold silences inRegions
  simp only [Bool.and_eq_true, Bool.not_eq_true', Bool.or_eq_false_iff] at h ⊢
  obtain ⟨-, ⟨⟨-, hLines⟩, hOpen⟩, hRegions⟩ := h
  exact ⟨hLines, hOpen, hRegions⟩

/-- Recording changes neither the ignored lines nor the regions. -/
theorem regions_record (j : Journal) (d : Diagnostic) : (j.record d).ignoredLines = j.ignoredLines ∧
    ((j.record d).openRegion, (j.record d).regions) = (j.openRegion, j.regions) := by
  unfold record
  split <;> exact ⟨rfl, rfl⟩

theorem regions_halt (j : Journal) (last : Diagnostic) :
    (j.halt last).ignoredLines = j.ignoredLines ∧
    ((j.halt last).openRegion, (j.halt last).regions) = (j.openRegion, j.regions) := by
  unfold halt
  split <;> exact ⟨rfl, rfl⟩

/-- Only marks change what is silenced. -/
theorem regions_perform (j : Journal) (event : Event) :
    (j.perform event).ignoredLines =
        (event.mark?.toList.filter (·.1 = .line)).map Prod.snd ++ j.ignoredLines ∧
      ((j.perform event).openRegion, (j.perform event).regions) =
        event.mark?.toList.foldl markRegion (j.openRegion, j.regions) := by
  cases event with
  | submit d => exact regions_record j d
  | halt last => exact regions_halt j last
  | direct entry line =>
    cases entry with
    | ignore marker =>
      cases marker with
      | start =>
        show (j.startRegion line).ignoredLines = j.ignoredLines ∧ _ = markRegion _ _
        unfold perform startRegion markRegion
        cases hOpen : j.openRegion <;> simp [dropLine, hOpen]
      | stop =>
        show (j.endRegion line).ignoredLines = j.ignoredLines ∧ _ = markRegion _ _
        unfold perform endRegion markRegion
        cases hOpen : j.openRegion <;> simp [hOpen]
      | line => exact ⟨rfl, rfl⟩
    | _ => exact ⟨rfl, rfl⟩

/-- Which lines a journal silences depends on the marks only. By induction on the events. -/
theorem silences_replay (j : Journal) (log : List Event) :
    (∀ line, (.line, line) ∈ marksIn log → line ∈ (j.replay log).ignoredLines) ∧
      (∀ line ∈ j.ignoredLines, line ∈ (j.replay log).ignoredLines) ∧
      ((j.replay log).openRegion, (j.replay log).regions) =
        (marksIn log).foldl markRegion (j.openRegion, j.regions) := by
  induction log generalizing j with
  | nil => exact ⟨fun _ hNone => (List.not_mem_nil hNone).elim, fun _ => id, rfl⟩
  | cons event rest ih =>
    obtain ⟨hMarked, hKept, hRegions⟩ := ih (j.perform event)
    obtain ⟨hLines, hStep⟩ := regions_perform j event
    have hMarks : marksIn (event :: rest) = event.mark?.toList ++ marksIn rest := by
      cases hMark : event.mark? with
      | none => exact List.filterMap_cons_none hMark
      | some mark => exact List.filterMap_cons_some hMark
    refine ⟨fun line hLine => ?_, fun line hLine => hKept line ?_, ?_⟩
    · rw [hMarks, List.mem_append] at hLine
      rcases hLine with hFirst | hLater
      · refine hKept line ?_
        rw [hLines]
        exact List.mem_append_left _ (List.mem_map.mpr ⟨_, List.mem_filter.mpr ⟨hFirst, rfl⟩, rfl⟩)
      · exact hMarked line hLater
    · rw [hLines]
      exact List.mem_append_right _ hLine
    · rw [hMarks, List.foldl_append, ← hStep]
      exact hRegions

/-- A line that the marks silence is silenced by the journal. -/
theorem silences_of_silenced (hOpen : j.openRegion = none) {line : Nat}
    (h : Silenced (marksIn log) line) : (j.replay log).silences line = true := by
  obtain ⟨hMarked, -, hRegions⟩ := silences_replay j log
  unfold silences
  cases h with
  | alone hMem => simp [hMarked line hMem]
  | @region before after first hMarks hClosed hFirst hLast =>
    rw [hRegions, hMarks, List.foldl_append, List.foldl_cons, hOpen]
    have hNone : (before.foldl markRegion (none, j.regions)).1 = none := by
      rw [← Option.isSome_eq_false_iff.trans Option.isNone_iff_eq_none, isSome_markRegion]
      exact hClosed
    have hStart : markRegion (before.foldl markRegion (none, j.regions)) (.start, first) =
        (some first, (before.foldl markRegion (none, j.regions)).2) := by
      rw [markRegion, hNone]
    rw [hStart, inRegions_of_open after hFirst hLast]
    simp

/-! ## What a log that keeps to the rules leaves in the journal -/

/-- What is kept is not suppressed by its line, an unrecoverable error apart. -/
def Quiet (j : Journal) : Prop := ∀ d ∈ j.kept, d.code = "E041" ∨ j.silences d.line = false

/-- A journal keeps quiet, because `record` asks whether the line is silenced. -/
theorem Quiet.record (h : j.Quiet) (d : Diagnostic) : (j.record d).Quiet := by
  unfold Journal.record
  split
  · next hKeeps =>
    intro e he
    rcases List.mem_cons.mp he with rfl | hOld
    · exact .inr (silences_of_keeps hKeeps)
    · exact h e hOld
  · exact h

/-- What was kept on another line is not silenced by a mark that silences one line. -/
theorem Quiet.ignoreLine (h : j.Quiet) (line : Nat) : (j.ignoreLine line).Quiet := by
  intro d hd
  obtain ⟨hOld, hOther⟩ := List.mem_filter.mp hd
  refine (h d hOld).imp_right fun hSilent => ?_
  have hLine : d.line ≠ line := by simpa using hOther
  unfold silences at hSilent ⊢
  simp only [Bool.or_eq_false_iff, List.contains_eq_mem, decide_eq_false_iff_not] at hSilent
  simp [Journal.ignoreLine, dropLine, hLine, hSilent.1, hSilent.2]

/-- What was kept before does not lie after the line where the region opens, and not on it. -/
theorem Quiet.startRegion (h : j.Quiet) {line : Nat}
    (hLate : ∀ d ∈ j.kept, d.code = "E041" ∨ d.line ≤ line) : (j.startRegion line).Quiet := by
  unfold Journal.startRegion
  split
  · exact h
  · next hNone =>
    intro d hd
    obtain ⟨hOld, hOther⟩ := List.mem_filter.mp hd
    rcases h d hOld with hCode | hSilent
    · exact .inl hCode
    · refine (hLate d hOld).imp_right fun hBefore => ?_
      have hLine : d.line ≠ line := by simpa using hOther
      unfold silences inRegions at hSilent ⊢
      simp only [Bool.or_eq_false_iff, List.contains_eq_mem, decide_eq_false_iff_not] at hSilent
      have hLess : ¬line ≤ d.line := by omega
      simp [dropLine, hSilent.1, hSilent.2.2, hLess]

/-- What lies before an open region lies before the closed one. -/
theorem Quiet.endRegion (h : j.Quiet) (line : Nat) : (j.endRegion line).Quiet := by
  unfold Journal.endRegion
  split
  · next first hOpen =>
    intro d hd
    refine (h d hd).imp_right fun hSilent => ?_
    unfold silences inRegions at hSilent ⊢
    rw [hOpen] at hSilent
    simp only [Bool.or_eq_false_iff, Option.any_some, List.contains_eq_mem,
      decide_eq_false_iff_not] at hSilent
    have hBefore := hSilent.2.1
    simp [hSilent.1, hSilent.2.2, hBefore]
  · exact h

namespace Account

variable (h : Account j passfail log)
include h

/-- By induction on the log: nothing but an unrecoverable error is kept on a silenced line. -/
theorem quiet (hEmpty : j.kept = []) : (j.replay log).Quiet := by
  -- besides what is submitted only `stop` and `tooDeep` keep a diagnostic
  induction h with
  | nil =>
    intro d hd
    rw [show (j.replay []).kept = [] from hEmpty] at hd
    cases hd
  | @direct log entry line _ hLate ih =>
    rw [replay_append]
    cases entry with
    | ignore marker =>
      cases marker with
      | start => exact ih.startRegion hLate
      | stop => exact ih.endRegion line
      | line => exact ih.ignoreLine line
    | _ => exact ih
  | submit d _ _ _ _ ih =>
    rw [replay_append]
    exact ih.record d
  | @stop log d percent _ _ _ hKeeps ih =>
    rw [replay_append]
    have hRecorded := ih.record d
    have hSilent := silences_of_keeps hKeeps
    show (((j.replay log).record d).halt _).Quiet
    rw [record, if_pos hKeeps] at hRecorded ⊢
    unfold Journal.halt
    split
    · exact hRecorded
    · intro e he
      -- the notice of the stop is on the line of a diagnostic that was kept
      rcases List.mem_cons.mp he with rfl | hOld
      · exact .inr hSilent
      · exact hRecorded e hOld
  | @tooDeep log percent line column _ ih =>
    rw [replay_append]
    show ((j.replay log).halt _).Quiet
    unfold Journal.halt
    split
    · exact ih
    -- the notice about the depth has the code that the rule leaves out
    · intro e he
      rcases List.mem_cons.mp he with rfl | hOld
      · exact .inl rfl
      · exact ih e hOld

end Account

/-- The last diagnostic is at most one, and comes with the halt. -/
structure Single (j : Journal) : Prop where
  before : ∀ d ∈ j.kept.tail, d.code ≠ "E041" ∧ d.code ≠ "E042"
  running : j.halted = false → ∀ d ∈ j.kept, d.code ≠ "E041" ∧ d.code ≠ "E042"

namespace Single

theorem record (h : j.Single) {d : Diagnostic} (hCode : d.code ≠ "E041" ∧ d.code ≠ "E042") :
    (j.record d).Single := by
  unfold Journal.record
  split
  · next hKeeps =>
    have hRunning : j.halted = false := by
      unfold keeps at hKeeps
      simpa using (Bool.and_eq_true_iff.mp hKeeps).1
    exact ⟨h.running hRunning, fun _ => List.forall_mem_cons.mpr ⟨hCode, h.running hRunning⟩⟩
  · exact h

theorem halt (h : j.Single) (last : Diagnostic) : (j.halt last).Single := by
  unfold Journal.halt
  split
  · exact h
  · next hRunning =>
    exact ⟨h.running (Bool.eq_false_iff.mpr hRunning), fun hHalted => by cases hHalted⟩

theorem dropLine (h : j.Single) (line : Nat) : (j.dropLine line).Single := by
  refine ⟨fun d hd => ?_, fun hRunning d hd => h.running hRunning d (List.mem_filter.mp hd).1⟩
  unfold Journal.dropLine at hd
  have hBefore := h.before
  cases hKept : j.kept with
  | nil =>
    rw [hKept] at hd
    cases hd
  | cons first rest =>
    rw [hKept] at hd hBefore
    rw [List.filter_cons] at hd
    split at hd
    · exact hBefore d (List.mem_filter.mp hd).1
    · exact hBefore d (List.mem_filter.mp (List.mem_of_mem_tail hd)).1

theorem startRegion (h : j.Single) (line : Nat) : (j.startRegion line).Single := by
  unfold Journal.startRegion
  split
  · exact h
  · exact ⟨(h.dropLine line).before, (h.dropLine line).running⟩

theorem endRegion (h : j.Single) (line : Nat) : (j.endRegion line).Single := by
  unfold Journal.endRegion
  split
  · exact ⟨h.before, h.running⟩
  · exact h

theorem ignoreLine (h : j.Single) (line : Nat) : (j.ignoreLine line).Single :=
  ⟨(h.dropLine line).before, (h.dropLine line).running⟩

/-- A last diagnostic is kept in front of all others. -/
theorem head?_eq (h : j.Single) {d : Diagnostic} (hd : d ∈ j.kept)
    (hCode : d.code = "E041" ∨ d.code = "E042") :
    j.kept.head? = some d := by
  have hBefore := h.before
  cases hKept : j.kept with
  | nil =>
    rw [hKept] at hd
    cases hd
  | cons first rest =>
    rw [hKept] at hd hBefore
    rcases List.mem_cons.mp hd with rfl | hRest
    · rfl
    · obtain ⟨h₁, h₂⟩ := hBefore d hRest
      exact (hCode.elim h₁ h₂).elim

end Single

/-- The diagnostics that a stop with `passfail` on leaves: none, or one and the last one at its
place, or an unrecoverable error. -/
inductive Stopped : List Diagnostic → Prop
  | nothing : Stopped []
  | first (d : Diagnostic) (percent : Nat) : d.code ≠ "E041" → d.code ≠ "E042" →
    Stopped [d, (Finding.stopping percent).diagnostic d.line d.column]
  | unrecoverable (percent line column : Nat) :
    Stopped [(Finding.unrecoverable percent).diagnostic line column]

/-- Dropping a line drops all or nothing. -/
theorem Stopped.dropLine {ds : List Diagnostic} (h : Stopped ds) (line : Nat) :
    Stopped (ds.filter (·.line != line)) := by
  cases h with
  | nothing => exact .nothing
  | first d percent hCode hCode' =>
    by_cases hLine : d.line = line
    · rw [List.filter_eq_nil_iff.mpr (by simp [Finding.diagnostic, hLine])]
      exact .nothing
    · rw [List.filter_eq_self.mpr (by simp [Finding.diagnostic, hLine])]
      exact .first d percent hCode hCode'
  | unrecoverable percent here column =>
    by_cases hLine : here = line
    · rw [List.filter_eq_nil_iff.mpr (by simp [Finding.diagnostic, hLine])]
      exact .nothing
    · rw [List.filter_eq_self.mpr (by simp [Finding.diagnostic, hLine])]
      exact .unrecoverable percent here column

/-- Nothing is kept before a stop. -/
structure Passfail (j : Journal) : Prop where
  shape : Stopped j.diagnostics
  running : j.halted = false → j.kept = []

namespace Passfail

theorem dropLine (h : j.Passfail) (line : Nat) : (j.dropLine line).Passfail := by
  refine ⟨?_, fun hRunning => ?_⟩
  · rw [diagnostics_dropLine]
    exact h.shape.dropLine line
  · show j.kept.filter _ = []
    rw [h.running hRunning]
    rfl

theorem startRegion (h : j.Passfail) (line : Nat) : (j.startRegion line).Passfail := by
  unfold Journal.startRegion
  split
  · exact h
  · exact ⟨(h.dropLine line).shape, (h.dropLine line).running⟩

theorem endRegion (h : j.Passfail) (line : Nat) : (j.endRegion line).Passfail := by
  unfold Journal.endRegion
  split
  · exact ⟨h.shape, h.running⟩
  · exact h

theorem ignoreLine (h : j.Passfail) (line : Nat) : (j.ignoreLine line).Passfail :=
  ⟨(h.dropLine line).shape, (h.dropLine line).running⟩

end Passfail

namespace Account

variable (h : Account j passfail log)
include h

/-- By induction on the log: the run is stopped once, by its last diagnostic. -/
theorem single (hEmpty : j.kept = []) : (j.replay log).Single := by
  -- once a stop code is kept the journal is halted, and keeps no more
  induction h with
  | nil =>
    constructor
    · show ∀ d ∈ j.kept.tail, _
      rw [hEmpty]
      exact fun d hd => by cases hd
    · show _ → ∀ d ∈ j.kept, _
      rw [hEmpty]
      exact fun _ d hd => by cases hd
  | @direct log entry line _ _ ih =>
    rw [replay_append]
    cases entry with
    | ignoreCode code => exact ⟨ih.before, ih.running⟩
    | ignore marker =>
      cases marker with
      | start => exact ih.startRegion line
      | stop => exact ih.endRegion line
      | line => exact ih.ignoreLine line
    | _ => exact ih
  | submit d _ hCode hCode' _ ih =>
    rw [replay_append]
    exact ih.record ⟨hCode, hCode'⟩
  | stop d percent _ hCode hCode' _ ih =>
    rw [replay_append]
    exact (ih.record ⟨hCode, hCode'⟩).halt _
  | tooDeep percent line column _ ih =>
    rw [replay_append]
    exact ih.halt _

end Account

/-- A kept diagnostic was kept before or is what the event hands in. -/
theorem mem_kept_perform (event : Event) {d : Diagnostic} (hd : d ∈ (j.perform event).kept) :
    d ∈ j.kept ∨ event = .submit d ∨ event = .halt d := by
  -- a directive only drops diagnostics, the two other events add at most their own
  cases event with
  | submit e =>
    unfold perform record at hd
    dsimp only at hd
    split at hd
    · rcases List.mem_cons.mp hd with rfl | hOld
      · exact .inr (.inl rfl)
      · exact .inl hOld
    · exact .inl hd
  | halt e =>
    unfold perform halt at hd
    dsimp only at hd
    split at hd
    · exact .inl hd
    · rcases List.mem_cons.mp hd with rfl | hOld
      · exact .inr (.inr rfl)
      · exact .inl hOld
  | direct entry line =>
    have hDropped {e : Diagnostic} (he : e ∈ (j.dropLine line).kept) : e ∈ j.kept :=
      (List.mem_filter.mp he).1
    cases entry with
    | ignore marker =>
      cases marker with
      | start =>
        unfold perform startRegion at hd
        dsimp only at hd
        split at hd
        · exact .inl hd
        · exact .inl (hDropped hd)
      | stop =>
        unfold perform endRegion at hd
        dsimp only at hd
        split at hd
        · exact .inl hd
        · exact .inl hd
      | line => exact .inl (hDropped hd)
    | _ => exact .inl hd

/-! ## What a journal is handed -/

/-- Events lead from the one journal to the other, and these are the diagnostics with the code that
are handed to it on the way. -/
def Receives (code : String) (ds : List Diagnostic) (j k : Journal) : Prop :=
  ∃ log, k = j.replay log ∧ handedIn code log = ds

namespace Receives

variable {code : String} {ds ds' : List Diagnostic} {k l : Journal}

/-- A journal receives nothing while it stays as it is. -/
theorem refl (code : String) (j : Journal) : Receives code [] j j := ⟨[], rfl, rfl⟩

/-- What is received at two times is received in order. -/
theorem trans (h : Receives code ds j k) (h' : Receives code ds' k l) :
    Receives code (ds ++ ds') j l := by
  obtain ⟨log, rfl, rfl⟩ := h
  obtain ⟨log', rfl, rfl⟩ := h'
  refine ⟨log ++ log', (replay_append j log log').symm, ?_⟩
  rw [handedIn, List.filterMap_append, List.filter_append]
  rfl

theorem perform (code : String) (j : Journal) (event : Event) :
    Receives code (handedIn code [event]) j (j.perform event) :=
  ⟨[event], rfl, rfl⟩

/-- Nothing with the code is handed over. -/
theorem none (j : Journal) (event : Event) (h : ∀ d, event.handed? = some d → d.code ≠ code) :
    Receives code [] j (j.perform event) := by
  have hNothing : handedIn code [event] = [] := by
    refine List.filter_eq_nil_iff.mpr fun d hd => ?_
    obtain ⟨e, he, hHanded⟩ := List.mem_filterMap.mp hd
    obtain rfl := List.mem_singleton.mp he
    simpa using h d hHanded
  exact hNothing ▸ perform code j event

/-- By induction on the diagnostics. -/
theorem foldl_record (h : ∀ d ∈ ds, d.code = code) (j : Journal) :
    Receives code ds j (ds.foldl record j) := by
  induction ds generalizing j with
  | nil => exact refl code j
  | cons d ds ih =>
    have hHanded : handedIn code [.submit d] = [d] := by
      simp [handedIn, Event.handed?, h d]
    have hFirst := perform code j (.submit d)
    rw [hHanded] at hFirst
    exact hFirst.trans (ih (fun e he => h e (List.mem_cons_of_mem d he)) (j.record d))

end Receives

/-- What a journal keeps was there, or is handed to it. -/
theorem diagnostics_perform_sublist (j : Journal) (event : Event) :
    (j.perform event).diagnostics.Sublist (j.diagnostics ++ event.handed?.toList) := by
  -- one case for each event: what it drops stays out, and what it adds is handed in
  cases event with
  | submit d =>
    show (j.record d).diagnostics.Sublist _
    rw [diagnostics_record]
    split
    · exact .refl _
    · exact List.sublist_append_left _ _
  | halt d =>
    show (j.halt d).diagnostics.Sublist _
    rw [diagnostics_halt]
    split
    · exact List.sublist_append_left _ _
    · exact .refl _
  | direct entry line =>
    have hDropped : (j.dropLine line).diagnostics.Sublist (j.diagnostics ++ []) := by
      rw [List.append_nil, diagnostics_dropLine]
      exact List.filter_sublist
    have hSame : j.diagnostics.Sublist (j.diagnostics ++ []) := List.sublist_append_left _ _
    cases entry with
    | ignore marker =>
      cases marker with
      | start =>
        show (j.startRegion line).diagnostics.Sublist _
        unfold startRegion
        split
        · exact hSame
        · exact hDropped
      | stop =>
        show (j.endRegion line).diagnostics.Sublist _
        unfold endRegion
        split
        · exact hSame
        · exact hSame
      | line => exact hDropped
    | _ => exact hSame

/-- By induction on the log. -/
theorem diagnostics_replay_sublist (j : Journal) (log : List Event) :
    (j.replay log).diagnostics.Sublist (j.diagnostics ++ log.filterMap Event.handed?) := by
  induction log generalizing j with
  | nil => exact List.sublist_append_left _ _
  | cons event rest ih =>
    have hHanded : (event :: rest).filterMap Event.handed? =
        event.handed?.toList ++ rest.filterMap Event.handed? := by
      rw [List.filterMap_cons]
      cases event.handed? <;> rfl
    refine (ih (j.perform event)).trans ?_
    rw [hHanded, ← List.append_assoc]
    exact (diagnostics_perform_sublist j event).append_right _

/-- What is kept of a code is kept in the order in which it is handed over. -/
theorem Receives.reported {code : String} {ds : List Diagnostic} {k : Journal}
    (h : Receives code ds j k) :
    (k.diagnostics.filter (·.code == code)).Sublist
    (j.diagnostics.filter (·.code == code) ++ ds) := by
  obtain ⟨log, rfl, rfl⟩ := h
  rw [handedIn, ← List.filter_append]
  exact (diagnostics_replay_sublist j log).filter _

namespace Account

variable (h : Account j passfail log)
include h

/-- By induction on the log: as long as no directive sets `passfail`, what is kept stops the run. -/
theorem stopped (hEmpty : j.kept = []) (hOn : passfail = true)
    (hUnset : ∀ value line, (.setOption .passfail value, line) ∉ directedIn log) :
    (j.replay log).Passfail := by
  induction h with
  | nil =>
    refine ⟨?_, fun _ => hEmpty⟩
    rw [show (j.replay []).diagnostics = [] by simp [replay, diagnostics, hEmpty]]
    exact .nothing
  | @direct log entry line _ _ ih =>
    have hBefore := ih fun value line hMem => hUnset value line (by simp [hMem])
    rw [replay_append]
    cases entry with
    | ignoreCode code => exact ⟨hBefore.shape, hBefore.running⟩
    | ignore marker =>
      cases marker with
      | start => exact hBefore.startRegion line
      | stop => exact hBefore.endRegion line
      | line => exact hBefore.ignoreLine line
    | _ => exact hBefore
  | @submit log d _ _ _ hKept ih =>
    have hBefore := ih fun value line hMem => hUnset value line (by simp [hMem])
    rw [replay_append]
    show ((j.replay log).record d).Passfail
    unfold Journal.record
    split
    -- kept without a stop: then `passfail` was unset before, which no directive did
    · next hKeeps =>
      obtain ⟨value, line, hSet⟩ := hKept hOn hKeeps
      exact absurd (by simp [hSet]) (hUnset value line)
    · exact hBefore
  | @stop log d percent _ hCode hCode' hKeeps ih =>
    have hBefore := ih fun value line hMem => hUnset value line (by simp [hMem])
    have hRunning : (j.replay log).halted = false := by
      unfold keeps at hKeeps
      simpa using (Bool.and_eq_true_iff.mp hKeeps).1
    have hNone := hBefore.running hRunning
    rw [replay_append]
    show (((j.replay log).record d).halt _).Passfail
    refine ⟨?_, fun hStill => ?_⟩
    · rw [diagnostics_halt, diagnostics_record, if_pos hKeeps, diagnostics, hNone, record,
        if_pos hKeeps]
      rw [if_neg (by simp [hRunning])]
      exact .first d _ hCode hCode'
    · rw [halted_halt] at hStill
      cases hStill
  | @tooDeep log percent line column _ ih =>
    have hBefore := ih fun value line hMem => hUnset value line (by simp [hMem])
    rw [replay_append]
    show ((j.replay log).halt _).Passfail
    unfold Journal.halt
    split
    · exact hBefore
    -- nothing was kept so far, so the notice is the whole report
    · next hRunning =>
      refine ⟨?_, fun hStill => by cases hStill⟩
      rw [diagnostics, hBefore.running (Bool.eq_false_iff.mpr hRunning)]
      exact .unrecoverable _ line column

end Account

end Journal

end ScriptLint
