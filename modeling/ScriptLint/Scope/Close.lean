import ScriptLint.Scope.Tracker

/-!
# Leaving frames

When a frame is left, the bindings that nobody reads are listed. A function frame keeps its
bindings; from any other frame the variables and functions move to the function around it. At the
end of the run, what is still pending is undefined or an implied global.
-/

namespace ScriptLint.Scope

open Setting (Layers UnusedPolicy)

/-- What a run knows about names at its end. -/
structure Outcome where
  implied : List ImpliedGlobal := []
  unused : List UnusedBinding := []
  globals : List String := []

/-! ## Unused bindings -/

/-- The entries of a frame that are parameters. -/
def parameters (f : Frame) : List (String × Binding) :=
  f.bindings.entries.filter (·.2.kind = .param)

/-- The unread entries of a frame that are neither parameters nor exempt by kind. Exported names of
the program's frame count as read. -/
def unreadVariables (f : Frame) (exported : List String) (lexicalOnly : Bool) :
    List (String × Binding) :=
  f.bindings.entries.filter fun (name, b) =>
    (match b.kind with
      | .exception | .functionName | .global | .param => false
      | kind => !lexicalOnly || kind.isLexical)
    && !b.used && !(f.kind = .global && exported.contains name)

/-- The unread parameters that a policy lists: all of them, those after the last one read, or
none. -/
def unreadParameters (f : Frame) : UnusedPolicy → List (String × Binding)
  | .strict => (parameters f).filter (!·.2.used)
  | .lastParam => (parameters f).reverse.takeWhile (!·.2.used)
  | .vars | .off => []

/-- Whether the first entry was declared no later in the text than the second. -/
def declaredBefore (a b : String × Binding) : Bool :=
  a.2.line < b.2.line || (a.2.line == b.2.line && a.2.column ≤ b.2.column)

/-- The unread bindings of a frame in the order of the text. A run that does not report them lists
what the default policy would. -/
def unreadBindings (f : Frame) (exported : List String) (policy : UnusedPolicy)
    (lexicalOnly : Bool) : List (String × Binding) :=
  let walk := if policy = .off then .lastParam else policy
  (unreadVariables f exported lexicalOnly ++ unreadParameters f walk).mergeSort declaredBefore

namespace Tracker

/-- Lists a binding as unused and reports it if the policy asks for that. -/
def addUnused (t : Tracker) (policy : UnusedPolicy) (b : UnusedBinding) : Tracker :=
  let t := if policy = .off then t else t.report (.unused b.name) b.line b.column
  { t with unused := t.unused ++ [b] }

/-- Lists the unread bindings of a frame. -/
def evaluateUnused (t : Tracker) (id : FrameId) (policy : UnusedPolicy) (lexicalOnly : Bool) :
    Tracker :=
  (unreadBindings (t.frame id) t.exported policy lexicalOnly).foldl
    (fun t (name, b) => t.addUnused policy ⟨name, b.line, b.column, b.kind⟩) t

/-! ## Hoisting -/

/-- Moves a binding from a block to its function: the reads of an existing binding of the name are
joined, and pending uses inside the function are claimed. Those in the function's own code lie
outside the block, which is reported unless `funcscope` is on. -/
def hoist (t : Tracker) (function : FrameId) (name : String) (b : Binding) (funcscope : Bool) :
    Tracker :=
  let t := match t.binding? function name with
    | some _ => t.modifyBinding function name (·.join b)
    | none => t.bind function name { b with hoisted := true }
  let (claimed, t) := t.takePending name function
  claimed.foldl (fun t r =>
    let t := if r.isWrite then t else t.markUsed function name r.line
    if r.function = function && !funcscope then t.report (.outOfScope name) r.line r.column
    else t) t

/-- Removes a binding from a frame and moves it to the function around it. -/
def moveOut (t : Tracker) (id function : FrameId) (funcscope : Bool) (entry : String × Binding) :
    Tracker :=
  (t.modifyFrame id fun f => { f with bindings := f.bindings.erase entry.1 }).hoist
    function entry.1 entry.2 funcscope

/-! ## Leaving -/

/-- The frame that would be left next; the program's frame is never left. -/
def leaving? (t : Tracker) : Option FrameId :=
  if t.active.isBottom then none else some t.current

/-- Leaves the innermost frame. -/
def exit (t : Tracker) (layers : Layers) : Tracker :=
  match t.leaving? with
  | none => t
  | some id =>
    let f := t.frame id
    let t := { t with active := t.active.pop }
    if f.kind = .function then t.evaluateUnused id layers.unusedPolicy false
    else
      let hoisted := f.bindings.entries.filter (·.2.kind.hoists)
      hoisted.foldl (fun t entry => t.moveOut id f.function (layers.enabled .funcscope) entry)
        (t.evaluateUnused id layers.unusedPolicy true)

/-- Leaves `count` frames. -/
def exitMany (t : Tracker) (layers : Layers) : (count : Nat) → Tracker
  | 0 => t
  | count + 1 => (t.exit layers).exitMany layers count

/-! ## The end of a run -/

/-- Lists the globals of directives that nobody reads. -/
def evaluateGlobals (t : Tracker) (policy : UnusedPolicy) : Tracker :=
  (t.directiveGlobals.entries.filter fun (name, g) => !g.used && !t.exported.contains name).foldl
    (fun t (name, g) => t.addUnused policy ⟨name, g.line, g.column, .global⟩) t

/-- Reports the pending uses of a name that were made while undefined names are reported. -/
def reportUndefined (t : Tracker) (entry : String × List Pending) : Tracker :=
  t.reportAt (.notDefined entry.1) ((entry.2.filter (·.undef)).map fun r => (r.line, r.column))

/-- The lines of the other pending uses of a name, if there are any. -/
def implied? (entry : String × List Pending) : Option ImpliedGlobal :=
  let lines := (entry.2.filter (!·.undef)).map (·.line)
  if lines.isEmpty then none else some ⟨entry.1, lines⟩

/-- Ends the run: leaves every frame, lists what is unused and settles what is pending. -/
def finish (t : Tracker) (layers : Layers) : Outcome × Tracker :=
  let t := t.exitMany layers t.active.below.length
  let policy := layers.unusedPolicy
  let t := (t.evaluateUnused 0 policy false).evaluateGlobals policy
  let pending := t.pending.entries.map fun (name, uses) => (name, uses.reverse)
  let t := pending.foldl reportUndefined t
  ({ implied := pending.filterMap implied?
     unused := t.unused
     globals := (t.frame 0).bindings.keys },
   { t with pending := {}, unused := [] })

end Tracker

end ScriptLint.Scope
