import ScriptLint.CommandLine.Invocation
import ScriptLint.Json.Printer
import ScriptLint.Report.Basic

/-!
# Printing reports
-/

namespace ScriptLint.CommandLine

/-- The report of one file. -/
structure FileReport where
  file : String
  report : Report

namespace FileReport

/-- One line for each diagnostic. -/
def lines (r : FileReport) : List String :=
  r.report.diagnostics.map fun d => s!"{r.file}: {d.render}"

/-- The report with its file as an object. -/
def toJson (r : FileReport) : Json :=
  .object [("file", .string r.file), ("report", r.report.toJson)]

end FileReport

/-- The last line of a text output: how many diagnostics there are. -/
def countLine (total : Nat) : String :=
  if total = 1 then "1 error" else s!"{total} errors"

/-- The lines of a text output: the diagnostics of every file in order, an empty line and their
count; nothing if there are none. -/
def textLines (reports : List FileReport) : List String :=
  let found := reports.flatMap FileReport.lines
  if found.isEmpty then [] else found ++ ["", countLine found.length]

/-- Lines, each with the end of line after it. -/
def unlines (lines : List String) : String :=
  String.join (lines.map (· ++ "\n"))

namespace Reporter

/-- What is printed for the reports. -/
def output (reporter : Reporter) (reports : List FileReport) : String :=
  match reporter with
  | .text => unlines (textLines reports)
  | .json => (Json.array (reports.map FileReport.toJson)).pretty 0 ++ "\n"

end Reporter

end ScriptLint.CommandLine
