import Mathlib.Algebra.Ring.Nat
import ScriptLint.CommandLine.Output
import ScriptLint.Proofs.Reports.Origins

/-!
# The lines of a text output

The text output has a line for each diagnostic, an empty line and their count. Messages quote names,
tokens and values, however: a message that quotes a line feed takes more than one line, and it is
the only thing that does. Where no message quotes one, the lines are those of the diagnostics. The
file, the place, the message and the code can be read back from what is printed for a diagnostic,
unless the name of the file looks like a diagnostic itself.

- `linesOf`: the lines of a text.
- `ReportLine`: what is printed for a diagnostic; `ReportLine.read?` reads it back.
- `text_output_lines`: how many lines there are, when they are those of the diagnostics, and what
  can be read back.
-/

namespace ScriptLint.CommandLine

/-! ## Lines -/

/-- The lines of a text, each of which ends with a line feed. -/
def linesOf (text : String) : List String :=
  ((text.toList.splitOnP (· == '\n')).map String.ofList).dropLast

/-- A text has one part more than line feeds. -/
theorem length_splitOnP (text : List Char) :
    (text.splitOnP (· == '\n')).length = text.count '\n' + 1 := by
  induction text with
  | nil => rfl
  | cons c rest ih =>
    rw [List.splitOnP_cons_eq_if_modifyHead, List.count_cons]
    by_cases hc : c == '\n'
    · rw [if_pos hc, if_pos hc, List.length_cons, ih]
    · rw [if_neg hc, if_neg hc, List.length_modifyHead, ih]

/-- There are as many lines as line feeds. -/
theorem length_linesOf (text : String) : (linesOf text).length = text.toList.count '\n' := by
  rw [linesOf, List.length_dropLast, List.length_map, length_splitOnP]
  rfl

theorem unlines_cons (line : String) (lines : List String) :
    (unlines (line :: lines)).toList = line.toList ++ '\n' :: (unlines lines).toList := by
  simp [unlines, String.toList_join]

/-- The line feeds of joined lines are their own and one for each. -/
theorem count_unlines (lines : List String) :
    (unlines lines).toList.count '\n' = lines.length + (lines.map (·.toList.count '\n')).sum := by
  induction lines with
  | nil => rfl
  | cons line lines ih =>
    rw [unlines_cons, List.count_append, List.count_cons_self, ih, List.map_cons, List.sum_cons,
      List.length_cons]
    omega

/-- What was put together line by line comes apart in the same lines. -/
theorem linesOf_unlines {lines : List String} (h : ∀ line ∈ lines, '\n' ∉ line.toList) :
    linesOf (unlines lines) = lines := by
  suffices hPieces :
      (unlines lines).toList.splitOnP (· == '\n') = lines.map String.toList ++ [[]] by
    rw [linesOf, hPieces, List.map_append, List.map_map, List.map_singleton, List.dropLast_concat]
    exact (List.map_congr_left fun line _ => String.ofList_toList).trans (List.map_id lines)
  induction lines with
  | nil => rfl
  | cons line lines ih =>
    obtain ⟨hLine, hRest⟩ := List.forall_mem_cons.mp h
    have hOne : line.toList.splitOnP (· == '\n') = [line.toList] :=
      List.splitOnP_eq_singleton fun c hc => beq_false_of_ne fun hEq => hLine (hEq ▸ hc)
    have hAll (rest : List Char) : (line.toList ++ '\n' :: rest).splitOnP (· == '\n') =
        line.toList.splitOnP (· == '\n') ++ rest.splitOnP (· == '\n') :=
          List.splitOnP_append_cons _ _ rfl
    rw [unlines_cons, hAll, hOne, ih hRest]
    rfl

/-! ## Marks -/

/-- What stands before and after the first occurrence of a mark. -/
def cut? (mark : List Char) : List Char → Option (List Char × List Char)
  | [] => none
  | c :: rest =>
    match mark.isPrefixOf? (c :: rest) with
    | some after => some ([], after)
    | none => (cut? mark rest).map fun (before, after) => (c :: before, after)

/-- A mark whose first character is nowhere else in it is not straddled. -/
theorem prefix_of_prefix_append {first : Char} {tail before after : List Char} {c : Char}
    (hTail : first ∉ tail)
    (h : first :: tail <+: c :: before ++ (first :: tail ++ after)) :
    first :: tail <+: c :: before := by
  obtain ⟨rest, hRest⟩ := h
  obtain ⟨more, hMore, -⟩ | ⟨beyond, hBeyond, hAfter⟩ := List.append_eq_append_iff.mp hRest
  · exact ⟨more, hMore.symm⟩
  · -- an occurrence that ends later has another mark begin within it
    cases beyond with
    | nil => exact ⟨[], by rw [hBeyond, List.append_assoc, List.append_nil, List.append_nil]⟩
    | cons d beyond =>
      obtain ⟨hFirst, -⟩ := List.cons.inj hAfter
      obtain ⟨-, hWithin⟩ := List.cons.inj hBeyond
      rw [hWithin, hFirst] at hTail
      exact absurd (List.mem_append_right _ List.mem_cons_self) hTail

/-- A mark whose first character is not in the rest of it cannot begin early. -/
theorem cut?_append {first : Char} {tail before after : List Char} (hTail : first ∉ tail)
    (hBefore : ¬ first :: tail <:+: before) :
    cut? (first :: tail) (before ++ (first :: tail ++ after)) = some (before, after) := by
  induction before with
  | nil =>
    have hMark : (first :: tail).isPrefixOf? (first :: tail ++ after) = some after :=
      List.isPrefixOf?_eq_some_iff_append_eq.mpr rfl
    rw [List.nil_append, List.cons_append, cut?, ← List.cons_append, hMark]
  | cons c before ih =>
    have hNone : (first :: tail).isPrefixOf? (c :: before ++ (first :: tail ++ after)) = none := by
      rw [Option.eq_none_iff_forall_ne_some]
      intro rest hRest
      have hPrefix :=
        prefix_of_prefix_append hTail ⟨rest, List.isPrefixOf?_eq_some_iff_append_eq.mp hRest⟩
      exact hBefore hPrefix.isInfix
    have hRest := ih fun h => hBefore (List.infix_cons h)
    rw [List.cons_append, cut?, ← List.cons_append, hNone, hRest]
    rfl

/-- A text is cut at the first mark. -/
theorem cut?_append_of_notMem {first : Char} {tail before after : List Char} (hTail : first ∉ tail)
    (hBefore : first ∉ before) :
    cut? (first :: tail) (before ++ (first :: tail ++ after)) = some (before, after) :=
  cut?_append hTail fun h => hBefore (h.subset List.mem_cons_self)

/-! ## What is printed for a diagnostic -/

/-- What is printed for a diagnostic. -/
structure ReportLine where
  file : String
  line : Nat
  column : Nat
  message : String
  code : String
deriving DecidableEq

namespace ReportLine

def ofDiagnostic (file : String) (d : Diagnostic) : ReportLine :=
  ⟨file, d.line, d.column, d.message, d.code⟩

def render (l : ReportLine) : String :=
  s!"{l.file}: line {l.line}, col {l.column}, {l.message} ({l.code})"

/-- Stands between the file and the line. -/
def lineMark : List Char := [':', ' ', 'l', 'i', 'n', 'e', ' ']

/-- Stands between the line and the column. -/
def columnMark : List Char := [',', ' ', 'c', 'o', 'l', ' ']

/-- Stands between the column and the message. -/
def messageMark : List Char := [',', ' ']

/-- Stands between the message and the code, seen from the end. -/
def codeMark : List Char := ['(', ' ']

/-- Reads what is printed for a diagnostic: the file and the place from the front, the code from the
end. -/
def read? (text : String) : Option ReportLine := do
  let (file, rest) ← cut? lineMark text.toList
  let (line, rest) ← cut? columnMark rest
  let (column, rest) ← cut? messageMark rest
  let (code, message) ← cut? codeMark rest.reverse.tail
  return {
    file := .ofList file
    line := Nat.ofDigitChars 10 line 0
    column := Nat.ofDigitChars 10 column 0
    message := .ofList message.reverse
    code := .ofList code.reverse }

/-- A line is its parts with the marks between them. -/
theorem toList_render (l : ReportLine) :
    l.render.toList =
      l.file.toList ++
        (lineMark ++ (Nat.toDigits 10 l.line ++ (columnMark ++ (Nat.toDigits 10 l.column ++
        (messageMark ++
          (l.message.toList ++ (codeMark.reverse ++ (l.code.toList ++ [')'])))))))) := by
  have hShown :
      l.render = l.file ++ ": line " ++ Nat.repr l.line ++ ", col " ++ Nat.repr l.column ++ ", " ++
      l.message ++ " (" ++ l.code ++ ")" := rfl
  simp only [hShown, String.toList_append, Nat.toList_repr, List.append_assoc]
  simp [lineMark, columnMark, messageMark, codeMark]

/-- A number is written in digits. -/
theorem notMem_toDigits {c : Char} (h : c.isDigit = false) (n : Nat) :
    c ∉ Nat.toDigits 10 n := fun hc =>
  absurd (Nat.isDigit_of_mem_toDigits (by decide) (by decide) hc) (by simp [h])

/-- What is printed can be read back if the name of the file does not have the first mark in it and
the code has no bracket. -/
theorem read?_render {l : ReportLine} (hFile : ¬ lineMark <:+: l.file.toList)
    (hCode : '(' ∉ l.code.toList) : read? l.render = some l := by
  have hCodeRead (before : List Char) :
      cut? codeMark (before ++ (codeMark.reverse ++ (l.code.toList ++ [')']))
      ).reverse.tail = some (l.code.toList.reverse, before.reverse) := by
    have hCut : cut? codeMark (l.code.toList.reverse ++ (codeMark ++ before.reverse)) = _ :=
      cut?_append_of_notMem (by decide) (mt List.mem_reverse.mp hCode)
    simpa using hCut
  have hLine (after : List Char) :
      cut? columnMark (Nat.toDigits 10 l.line ++ (columnMark ++ after)) = _ :=
    cut?_append_of_notMem (by decide) (notMem_toDigits rfl _)
  have hColumn (after : List Char) :
      cut? messageMark (Nat.toDigits 10 l.column ++ (messageMark ++ after)) = _ :=
    cut?_append_of_notMem (by decide) (notMem_toDigits rfl _)
  have hFront (after : List Char) : cut? lineMark (l.file.toList ++ (lineMark ++ after)) = _ :=
    cut?_append (by decide) hFile
  rw [read?, toList_render, hFront]
  simp only [Option.bind_eq_bind, Option.bind_some, hLine, hColumn, hCodeRead,
    Nat.ofDigitChars_ten_toDigits, List.reverse_reverse, String.ofList_toList, Option.pure_def]

/-- A line breaks as often as its message. -/
theorem count_render (l : ReportLine) (hFile : '\n' ∉ l.file.toList)
    (hCode : '\n' ∉ l.code.toList) : l.render.toList.count '\n' = l.message.toList.count '\n' := by
  have hDigits (n : Nat) : (Nat.toDigits 10 n).count '\n' = 0 :=
    List.count_eq_zero.mpr (notMem_toDigits rfl n)
  have hMarks : lineMark.count '\n' = 0 ∧ columnMark.count '\n' = 0 ∧ messageMark.count '\n' = 0 ∧
      codeMark.reverse.count '\n' = 0 ∧ [')'].count '\n' = 0 := by decide
  obtain ⟨hLine, hColumn, hMessage, hOpen, hClose⟩ := hMarks
  rw [toList_render]
  simp only [List.count_append, hDigits, hLine, hColumn, hMessage, hOpen, hClose,
    List.count_eq_zero.mpr hFile, List.count_eq_zero.mpr hCode, Nat.zero_add, Nat.add_zero]

end ReportLine

/-! ## The output -/

/-- The diagnostics with their file, in the order in which they were found. -/
def FileReport.entries (r : FileReport) : List ReportLine :=
  r.report.diagnostics.map (.ofDiagnostic r.file)

theorem ReportLine.render_ofDiagnostic (file : String) (d : Diagnostic) :
    (ReportLine.ofDiagnostic file d).render = s!"{file}: {d.render}" := by
  have hEntry :
      (ReportLine.ofDiagnostic file d).render = file ++ ": line " ++ Nat.repr d.line ++ ", col " ++
      Nat.repr d.column ++ ", " ++ d.message ++ " (" ++ d.code ++ ")" := rfl
  have hShown : s!"{file}: {d.render}" = file ++ ": " ++ ("line " ++ Nat.repr d.line ++ ", col " ++
      Nat.repr d.column ++ ", " ++ d.message ++ " (" ++ d.code ++ ")") := rfl
  rw [hEntry, hShown, ← String.toList_inj]
  simp [String.toList_append]

/-- A report is printed entry by entry. -/
theorem FileReport.lines_eq (r : FileReport) : r.lines = r.entries.map ReportLine.render := by
  rw [FileReport.lines, FileReport.entries, List.map_map]
  refine List.map_congr_left fun d _ => ?_
  rw [Function.comp_apply, ReportLine.render_ofDiagnostic]

/-- The whole is the entries, an empty line and the count, or nothing. -/
theorem textLines_eq (reports : List FileReport) {entries : List ReportLine}
    (h : reports.flatMap FileReport.entries = entries) :
    textLines reports =
      if entries = [] then
        [] else entries.map ReportLine.render ++ ["", countLine entries.length] := by
  have hFound : reports.flatMap FileReport.lines = entries.map ReportLine.render := by
    rw [← h, List.map_flatMap, List.flatMap_congr fun r _ => r.lines_eq]
  simp only [textLines, hFound, List.isEmpty_iff, List.map_eq_nil_iff, List.length_map]

theorem lineFeed_notMem_countLine (total : Nat) : '\n' ∉ (countLine total).toList := by
  have hDigits : '\n' ∉ Nat.toDigits 10 total := ReportLine.notMem_toDigits rfl total
  unfold countLine
  split
  · decide
  · show '\n' ∉ (Nat.repr total ++ " errors").toList
    simpa using hDigits

section Entries

variable {entries : List ReportLine}
  (hFile : ∀ entry ∈ entries, '\n' ∉ entry.file.toList)
    (hCode : ∀ entry ∈ entries, '\n' ∉ entry.code.toList)
include hFile hCode

/-- Line feeds in messages make further lines. -/
theorem length_linesOf_entries :
    (linesOf (unlines (entries.map ReportLine.render ++ ["", countLine entries.length]))).length =
      entries.length + 2 + (entries.map (·.message.toList.count '\n')).sum := by
  have hSum : ((entries.map ReportLine.render).map (·.toList.count '\n')).sum =
      (entries.map (·.message.toList.count '\n')).sum := by
    rw [List.map_map]
    refine congrArg List.sum (List.map_congr_left fun entry h => ?_)
    rw [Function.comp_apply, entry.count_render (hFile entry h) (hCode entry h)]
  have hCount : (countLine entries.length).toList.count '\n' = 0 :=
    List.count_eq_zero.mpr (lineFeed_notMem_countLine _)
  rw [length_linesOf, count_unlines, List.map_append, List.sum_append, hSum]
  simp [hCount]

/-- The lines are as many as those of the diagnostics only if no message has a line feed. -/
theorem linesOf_entries_iff :
    linesOf (unlines (entries.map ReportLine.render ++ ["", countLine entries.length])) =
        entries.map ReportLine.render ++ ["", countLine entries.length] ↔
      ∀ entry ∈ entries, '\n' ∉ entry.message.toList := by
  constructor
  · intro hLines entry h
    have hLength := length_linesOf_entries hFile hCode
    rw [hLines, List.length_append, List.length_map] at hLength
    have hNone : (entries.map (·.message.toList.count '\n')).sum = 0 := Nat.left_eq_add.mp hLength
    rw [List.sum_eq_zero_iff_forall_eq_nat] at hNone
    have hZero : entry.message.toList.count '\n' = 0 := hNone _ (List.mem_map.mpr ⟨entry, h, rfl⟩)
    exact List.count_eq_zero.mp hZero
  · intro hNone
    refine linesOf_unlines fun line hLine => ?_
    obtain hEntry | hLast := List.mem_append.mp hLine
    · obtain ⟨entry, h, rfl⟩ := List.mem_map.mp hEntry
      rw [← List.count_eq_zero, entry.count_render (hFile entry h) (hCode entry h)]
      exact List.count_eq_zero.mpr (hNone entry h)
    · obtain rfl | rfl : line = "" ∨ line = countLine entries.length := by simpa using hLast
      · decide
      · exact lineFeed_notMem_countLine _

end Entries

/-- The text output is empty if there are no diagnostics. Otherwise it has a line for each, an empty
line and their count, and a further line for each line feed in a message: the lines are those of the
diagnostics exactly if no message has a line feed, that is, if none quotes one. What is printed for
a diagnostic can be read back unless the file is named like the start of a diagnostic. -/
theorem text_output_lines (reports : List FileReport)
    (hLinted : ∀ r ∈ reports, ∃ source options globals, r.report = lint source options globals)
    (hNames : ∀ r ∈ reports, '\n' ∉ r.file.toList) :
    let entries := reports.flatMap FileReport.entries
    let lines := linesOf (Reporter.text.output reports)
    (entries = [] → Reporter.text.output reports = "") ∧
      (entries ≠ [] →
        lines.length = entries.length + 2 + (entries.map (·.message.toList.count '\n')).sum ∧
          (lines = entries.map ReportLine.render ++ ["", countLine entries.length] ↔
            ∀ entry ∈ entries, '\n' ∉ entry.message.toList)) ∧
      (∀ r ∈ reports, ∀ d ∈ r.report.diagnostics, ∃ texts, d.Issued texts ∧
        ('\n' ∈ d.message.toList ↔ ∃ text ∈ texts, '\n' ∈ text.toList)) ∧
      ∀ entry ∈ entries, ¬ ReportLine.lineMark <:+: entry.file.toList →
        ReportLine.read? entry.render = some entry := by
  intro entries lines
  -- every diagnostic of a linted file was issued with the texts it quotes
  have hIssued (r : FileReport) (hr : r ∈ reports) (d : Diagnostic)
    (hd : d ∈ r.report.diagnostics) :
      ∃ texts, d.Issued texts := by
    obtain ⟨source, options, globals, hReport⟩ := hLinted r hr
    exact issued_of_mem_lint (hReport ▸ hd)
  -- names of files are the caller's, codes are letters and digits
  have hEntry (entry : ReportLine) (h : entry ∈ entries) :
      '\n' ∉ entry.file.toList ∧ ∀ c, c.isAlphanum = false → c ∉ entry.code.toList := by
    obtain ⟨r, hr, hMem⟩ := List.mem_flatMap.mp h
    obtain ⟨d, hd, rfl⟩ := List.mem_map.mp hMem
    obtain ⟨texts, hTexts⟩ := hIssued r hr d hd
    exact ⟨hNames r hr,
      fun c hc hMem => absurd (hTexts.isAlphanum_of_mem_code c hMem) (by simp [hc])⟩
  have hFile (entry : ReportLine) (h : entry ∈ entries) := (hEntry entry h).1
  have hCode (entry : ReportLine) (h : entry ∈ entries) := (hEntry entry h).2 '\n' rfl
  refine ⟨fun hNone => ?_, fun hSome => ?_, fun r hr d hd => ?_, fun entry h hName => ?_⟩
  · show unlines (textLines reports) = ""
    rw [textLines_eq reports hNone, if_pos rfl]
    rfl
  · have hText :
      textLines reports = entries.map ReportLine.render ++ ["", countLine entries.length] :=
      (textLines_eq reports rfl).trans (if_neg hSome)
    have hLines :
        lines =
        linesOf (unlines (entries.map ReportLine.render ++ ["", countLine entries.length])) :=
      congrArg (linesOf <| unlines ·) hText
    rw [hLines]
    exact ⟨length_linesOf_entries hFile hCode, linesOf_entries_iff hFile hCode⟩
  -- a message breaks where a quoted text does
  · obtain ⟨texts, hTexts⟩ := hIssued r hr d hd
    exact ⟨texts, hTexts, hTexts.quotes⟩
  · exact ReportLine.read?_render hName ((hEntry entry h).2 '(' rfl)

/-- The only diagnostic quotes a template of two lines. -/
theorem text_output_lines_template :
    let reports : List FileReport := [⟨"a.js", lint "var \x60a\nb\x60;\n" {} none⟩]
    let entry :
        ReportLine :=
        .ofDiagnostic "a.js" ((Finding.expectedIdentifier "\x60a\nb\x60").diagnostic 1 5)
    reports.flatMap FileReport.entries = [entry] ∧
      (linesOf (Reporter.text.output reports)).length = 4 ∧ ReportLine.read? entry.render =
        some entry := by
  intro reports entry
  have hEntries : reports.flatMap FileReport.entries = [entry] := by decide +kernel
  -- for every text, since nothing should evaluate a message
  have hQuoted (text : String) :
      (Finding.expectedIdentifier text).message.toList.count '\n' = text.toList.count '\n' := by
    show ("Expected an identifier and instead saw '" ++ text ++ "'.").toList.count '\n' = _
    simp
  have hCount : entry.message.toList.count '\n' = 1 := (hQuoted "\x60a\nb\x60").trans (by decide)
  have hLinted (source : String) : ∀ r ∈ [(⟨"a.js", lint source {} none⟩ : FileReport)],
      (∃ source options globals, r.report = lint source options globals) ∧
      '\n' ∉ r.file.toList := by
    intro r hr
    rw [List.mem_singleton.mp hr]
    exact ⟨⟨source, {}, none, rfl⟩, by simp⟩
  obtain ⟨-, hSome, -, hRead⟩ := text_output_lines reports (fun r hr => (hLinted _ r hr).1)
    fun r hr => (hLinted _ r hr).2
  rw [hEntries] at hSome hRead
  obtain ⟨hLength, -⟩ := hSome (List.cons_ne_nil _ _)
  rw [List.map_singleton, List.sum_singleton, hCount] at hLength
  exact ⟨hEntries, hLength, hRead entry (List.mem_singleton_self _) (by decide)⟩

end ScriptLint.CommandLine
