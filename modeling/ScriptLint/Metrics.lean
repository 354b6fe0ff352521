import ScriptLint.Stack

/-!
# Measures of functions

For every function the number of statements, the cyclomatic complexity and the number of parameters
are counted, and the depth of blocks at the current place. The bottom entry stands for global code.
-/

namespace ScriptLint

/-- The counts of one function. -/
structure FunctionMetrics where
  statements : Nat := 0
  /-- One more than the number of decisions. -/
  complexity : Nat := 1
  parameters : Nat := 0
deriving DecidableEq

/-- A function as listed in the report. -/
structure FunctionRecord where
  name : String
  line : Nat
  column : Nat
  metrics : FunctionMetrics := {}
deriving DecidableEq

/-- A function whose end has not been reached. -/
structure OpenFunction where
  record : FunctionRecord
  /-- Blocks open at the current place. -/
  depth : Nat := 0

/-- The functions being counted and those finished. -/
structure Metrics where
  opened : Stack OpenFunction := ⟨{ record := { name := "(global)", line := 0, column := 0 } }, []⟩
  finished : List FunctionRecord := []

namespace Metrics

/-- Changes the counts of the innermost function. -/
def count (m : Metrics) (f : FunctionMetrics → FunctionMetrics) : Metrics :=
  { m with opened := m.opened.modifyTop fun fn =>
      { fn with record := { fn.record with metrics := f fn.record.metrics } } }

/-- Starts counting a function. -/
def openFunction (m : Metrics) (name : String) (line column : Nat) : Metrics :=
  { m with opened := m.opened.push { record := { name, line, column } } }

/-- The function that would be finished next; none in global code. -/
def innermost? (m : Metrics) : Option FunctionRecord :=
  if m.opened.isBottom then none else some m.opened.top.record

/-- Finishes the innermost function; global code is never finished. -/
def closeFunction (m : Metrics) : Metrics :=
  match m.innermost? with
  | none => m
  | some record => { opened := m.opened.pop, finished := m.finished ++ [record] }

/-- Counts a statement. -/
def addStatement (m : Metrics) : Metrics :=
  m.count fun c => { c with statements := c.statements + 1 }

/-- Counts a decision. -/
def addBranch (m : Metrics) : Metrics :=
  m.count fun c => { c with complexity := c.complexity + 1 }

/-- Notes the number of parameters. -/
def setParameters (m : Metrics) (parameters : Nat) : Metrics :=
  m.count fun c => { c with parameters }

/-- Enters a block. -/
def enterBlock (m : Metrics) : Metrics :=
  { m with opened := m.opened.modifyTop fun fn => { fn with depth := fn.depth + 1 } }

/-- Leaves a block. -/
def exitBlock (m : Metrics) : Metrics :=
  { m with opened := m.opened.modifyTop fun fn => { fn with depth := fn.depth - 1 } }

/-- Blocks open at the current place of the innermost function. -/
def depth (m : Metrics) : Nat := m.opened.top.depth

/-- Counts of the innermost function. -/
def current (m : Metrics) : FunctionMetrics := m.opened.top.record.metrics

end Metrics

end ScriptLint
