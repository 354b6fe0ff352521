import ScriptLint.Diagnostic.Basic
import ScriptLint.Json.Value
import ScriptLint.Metrics
import ScriptLint.Scope.Frame

/-!
# Reports

Everything that linting one source produces, and the same as a JSON value.
-/

namespace ScriptLint

/-- The result of linting one source. -/
structure Report where
  /-- In the order in which they were found. -/
  diagnostics : List Diagnostic := []
  /-- Undeclared names used while that was not reported. -/
  implied : List Scope.ImpliedGlobal := []
  /-- Bindings that nobody reads, whether or not that was reported. -/
  unused : List Scope.UnusedBinding := []
  /-- Names declared at the top of the program. -/
  globals : List String := []
  /-- Functions in the order in which they end. -/
  functions : List FunctionRecord := []

namespace Report

/-- Whether nothing was found. -/
def success (r : Report) : Bool := r.diagnostics.isEmpty

/-- Number of diagnostics that are errors. -/
def errorCount (r : Report) : Nat :=
  (r.diagnostics.filter (·.severity = .error)).length

end Report

/-! ## As JSON -/

/-- A diagnostic as an object. -/
def Diagnostic.toJson (d : Diagnostic) : Json :=
  .object [
    ("line", .natural d.line),
    ("character", .natural d.column),
    ("message", .string d.message),
    ("code", .string d.code),
    ("severity", .string d.severity.name),
    ("kind", .string d.phase.name)]

/-- An implied global as an object. -/
def Scope.ImpliedGlobal.toJson (g : Scope.ImpliedGlobal) : Json :=
  .object [("name", .string g.name), ("lines", .array (g.lines.map .natural))]

/-- An unused binding as an object. -/
def Scope.UnusedBinding.toJson (b : Scope.UnusedBinding) : Json :=
  .object [
    ("name", .string b.name),
    ("line", .natural b.line),
    ("character", .natural b.column),
    ("kind", .string b.kind.name)]

/-- The counts of a function as an object. -/
def FunctionMetrics.toJson (m : FunctionMetrics) : Json :=
  .object [
    ("statements", .natural m.statements),
    ("complexity", .natural m.complexity),
    ("parameters", .natural m.parameters)]

/-- A function as an object. -/
def FunctionRecord.toJson (r : FunctionRecord) : Json :=
  .object [
    ("name", .string r.name),
    ("line", .natural r.line),
    ("character", .natural r.column),
    ("metrics", r.metrics.toJson)]

namespace Report

/-- The members of a report as an object. -/
def members (r : Report) : List (String × Json) :=
  [("success", .bool r.success),
   ("diagnostics", .array (r.diagnostics.map Diagnostic.toJson)),
   ("implieds", .array (r.implied.map Scope.ImpliedGlobal.toJson)),
   ("unused", .array (r.unused.map Scope.UnusedBinding.toJson)),
   ("globals", .array (r.globals.map .string)),
   ("functions", .array (r.functions.map FunctionRecord.toJson))]

/-- A report as an object. -/
def toJson (r : Report) : Json := .object r.members

end Report

end ScriptLint
