import ScriptLint.Diagnostic.Basic

/-!
# The journal of a run

The journal keeps diagnostics in the order in which they are found, except those whose code or line
is ignored. Two findings at one place are both kept. Once halted, it takes nothing more.
-/

namespace ScriptLint

/-- The diagnostics kept so far and what decides which to keep. -/
structure Journal where
  /-- The diagnostics kept, latest first. -/
  kept : List Diagnostic := []
  ignoredCodes : List String := []
  ignoredLines : List Nat := []
  /-- Closed regions without diagnostics, first and last line included. -/
  regions : List (Nat × Nat) := []
  /-- The line where an open region starts. -/
  openRegion : Option Nat := none
  halted : Bool := false

namespace Journal

/-- The diagnostics kept, in the order in which they were found. -/
def diagnostics (j : Journal) : List Diagnostic := j.kept.reverse

/-- Whether the diagnostic must not be kept. -/
def suppresses (j : Journal) (d : Diagnostic) : Bool :=
  j.ignoredCodes.contains d.code
    || j.ignoredLines.contains d.line
    || j.openRegion.any (· ≤ d.line)
    || j.regions.any fun (first, last) => first ≤ d.line && d.line ≤ last

/-- Whether the journal takes the diagnostic. -/
def keeps (j : Journal) (d : Diagnostic) : Bool :=
  !j.halted && !j.suppresses d

/-- Takes the diagnostic, unless it must not be kept. -/
def record (j : Journal) (d : Diagnostic) : Journal :=
  if j.keeps d then { j with kept := d :: j.kept } else j

/-- Takes a last diagnostic, whatever is ignored, and nothing after it. -/
def halt (j : Journal) (last : Diagnostic) : Journal :=
  if j.halted then j else { j with kept := last :: j.kept, halted := true }

/-- Ignores a code from here on. -/
def ignoreCode (j : Journal) (code : String) : Journal :=
  { j with ignoredCodes := code :: j.ignoredCodes }

/-- Drops what was found on the line. -/
def dropLine (j : Journal) (line : Nat) : Journal :=
  { j with kept := j.kept.filter (·.line != line) }

/-- Ignores a line, what was already found on it included. -/
def ignoreLine (j : Journal) (line : Nat) : Journal :=
  { j.dropLine line with ignoredLines := line :: j.ignoredLines }

/-- Opens an ignored region, unless one is open. -/
def startRegion (j : Journal) (line : Nat) : Journal :=
  match j.openRegion with
  | some _ => j
  | none => { j.dropLine line with openRegion := some line }

/-- Closes the open region, if there is one. -/
def endRegion (j : Journal) (line : Nat) : Journal :=
  match j.openRegion with
  | some first => { j with openRegion := none, regions := j.regions ++ [(first, line)] }
  | none => j

@[simp] theorem diagnostics_record (j : Journal) (d : Diagnostic) :
    (j.record d).diagnostics = if j.keeps d then j.diagnostics ++ [d] else j.diagnostics := by
  by_cases h : j.keeps d <;> simp [record, diagnostics, h]

@[simp] theorem diagnostics_halt (j : Journal) (last : Diagnostic) :
    (j.halt last).diagnostics = if j.halted then j.diagnostics else j.diagnostics ++ [last] := by
  by_cases h : j.halted <;> simp [halt, diagnostics, h]

@[simp] theorem diagnostics_dropLine (j : Journal) (line : Nat) :
    (j.dropLine line).diagnostics = j.diagnostics.filter (·.line != line) := by
  simp [dropLine, diagnostics]

end Journal

end ScriptLint
