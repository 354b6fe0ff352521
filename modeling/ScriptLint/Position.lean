/-!
# Positions in a source text

Lines and columns count from one, offsets from zero, all in characters. Line zero is kept for what
concerns a run as a whole.
-/

namespace ScriptLint

/-- A place in the source. -/
structure Position where
  line : Nat := 0
  column : Nat := 0
  offset : Nat := 0
deriving DecidableEq, Inhabited

namespace Position

/-- The place of findings that concern the run and no line of it. -/
def runLevel : Position := ⟨0, 0, 0⟩

/-- The place of the first character. -/
def start : Position := ⟨1, 1, 0⟩

/-- Whether a finding here concerns the run as a whole. -/
def isRunLevel (p : Position) : Bool := p.line == 0

end Position

end ScriptLint
