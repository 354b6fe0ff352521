import ScriptLint.Scope.Tracker

/-!
# Using names

A use resolves to the innermost frame that declares the name, to `arguments` inside a function, or
to a predefined global; otherwise it becomes pending.
-/

namespace ScriptLint.Scope.Tracker

open Setting (Layers)

/-- Reports the use of a variable outside the block that declared it. -/
def reportOutOfScope (t : Tracker) (id : FrameId) (name : String) (line column : Nat)
    (layers : Layers) : Tracker :=
  if (t.binding? id name).any (·.hoisted) && !layers.enabled .funcscope then
    t.report (.outOfScope name) line column
  else t

/-- Whether the name stands for the arguments of the function around it. -/
def resolvesImplicitly (t : Tracker) (name : String) : Bool :=
  name == "arguments" && !t.inGlobalCode

/-- Notes the use of a global that a directive declared. -/
def useDirectiveGlobal (t : Tracker) (name : String) : Tracker :=
  { t with directiveGlobals := t.directiveGlobals.modify name ({ · with used := true }) }

/-- Keeps a use until a declaration claims it. -/
def defer (t : Tracker) (name : String) (line column : Nat) (isWrite : Bool)
    (layers : Layers) : Tracker :=
  let ref : Pending :=
    { line, column, isWrite
      frame := t.current
      function := t.functionFrame
      undef := layers.enabled .undef
      lateDef := layers.lateDefPolicy }
  { t with pending := t.pending.insert name (ref :: (t.pending.get? name).getD []) }

/-- A read of a name. -/
def reference (t : Tracker) (name : String) (line column : Nat) (layers : Layers) : Tracker :=
  match t.lookup name with
  | some id => (t.markUsed id name line).reportOutOfScope id name line column layers
  | none =>
    if t.resolvesImplicitly name then t
    else if t.predefined.contains name then t.useDirectiveGlobal name
    else t.defer name line column false layers

/-- A read that tolerates an undeclared name. -/
def referenceGuarded (t : Tracker) (name : String) (line : Nat) : Tracker :=
  match t.lookup name with
  | some id => t.markUsed id name line
  | none => if t.predefined.contains name then t.useDirectiveGlobal name else t

/-- What is wrong with assigning to a binding. -/
def assignFinding? (name : String) (b : Binding) : Option Finding :=
  match b.kind with
  | .constant => some (.constantAssigned name)
  | .exception => some .exceptionAssigned
  | .function => some (.functionAssigned name)
  | _ => none

/-- A write to a name. -/
def assign (t : Tracker) (name : String) (line column : Nat) (layers : Layers) : Tracker :=
  match t.lookup name with
  | some id =>
    let t := match (t.binding? id name).bind (assignFinding? name) with
      | some finding => t.report finding line column
      | none => t
    t.reportOutOfScope id name line column layers
  | none =>
    if t.resolvesImplicitly name then t
    else match t.predefined.lookup name with
      | some writable =>
        let t := t.useDirectiveGlobal name
        if writable then t else t.report .readOnly line column
      | none => t.defer name line column true layers

/-- A directive declares a global. The first declaration of a name fixes its place; uses that were
pending are settled, and reads among them count as uses. -/
def declareGlobal (t : Tracker) (name : String) (writable : Bool) (line column : Nat) : Tracker :=
  let settled := t.pendingUses name
  let globals := t.directiveGlobals.insertIfNew name { line, column }
  { t with
    predefined := t.predefined.apply (.declare name writable)
    directiveGlobals :=
      if settled.any (!·.isWrite) then globals.modify name ({ · with used := true }) else globals
    pending := t.pending.erase name }

/-- A directive removes a predefined global. -/
def removeGlobal (t : Tracker) (name : String) : Tracker :=
  { t with predefined := t.predefined.apply (.remove name) }

/-- Adds a set of predefined globals. -/
def addGlobals (t : Tracker) (set : Predefined.GlobalSet) : Tracker :=
  { t with predefined := t.predefined.addSet set }

end ScriptLint.Scope.Tracker
