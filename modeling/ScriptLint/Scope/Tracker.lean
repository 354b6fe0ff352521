import ScriptLint.Finding
import ScriptLint.Predefined.Table
import ScriptLint.Scope.Frame

/-!
# The scope tracker

Frames live in an array, so that a frame can still be looked at after it was left. A name that does
not resolve where it is used becomes pending; a later declaration can still claim it.
-/

namespace ScriptLint

/-- A finding and where it was made. -/
structure PlacedFinding where
  finding : Finding
  line : Nat
  column : Nat
deriving DecidableEq

namespace Scope

/-- The scopes of one run. -/
structure Tracker where
  frames : Array Frame := #[.program]
  /-- The frames around the current place, innermost on top; the program's is at the bottom. -/
  active : Stack FrameId := ⟨0, []⟩
  /-- The pending uses of each name, latest first. -/
  pending : OrderedMap String (List Pending) := {}
  predefined : Predefined.Table := {}
  directiveGlobals : OrderedMap String DirectiveGlobal := {}
  exported : List String := []
  unused : List UnusedBinding := []
  /-- Findings that were not forwarded yet. -/
  findings : List PlacedFinding := []

namespace Tracker

/-! ## Looking around -/

/-- The innermost frame. -/
def current (t : Tracker) : FrameId := t.active.top

/-- The frame with the index. -/
def frame (t : Tracker) (id : FrameId) : Frame := t.frames.getD id .program

/-- The function frame around the current place. -/
def functionFrame (t : Tracker) : FrameId := (t.frame t.current).function

/-- Whether the current place lies outside every function. -/
def inGlobalCode (t : Tracker) : Bool := t.functionFrame == 0

/-- Number of active frames. -/
def depth (t : Tracker) : Nat := t.active.depth

/-- The binding of a name in a frame. -/
def binding? (t : Tracker) (id : FrameId) (name : String) : Option Binding :=
  (t.frame id).bindings.get? name

/-- Whether the frame declares the name. -/
def binds (t : Tracker) (name : String) (id : FrameId) : Bool :=
  (t.frame id).bindings.contains name

/-- The frames around the current place, from the inside out. -/
def enclosing (t : Tracker) : List FrameId := lineage t.frames t.current

/-- The innermost frame that declares the name. -/
def lookup (t : Tracker) (name : String) : Option FrameId :=
  t.enclosing.find? (t.binds name)

/-- The pending uses of a name in the order in which they were made. -/
def pendingUses (t : Tracker) (name : String) : List Pending :=
  ((t.pending.get? name).getD []).reverse

/-! ## Small changes -/

/-- Adds a finding. -/
def report (t : Tracker) (finding : Finding) (line column : Nat) : Tracker :=
  { t with findings := t.findings ++ [⟨finding, line, column⟩] }

/-- Adds a finding at each of the places, given as line and column. -/
def reportAt (t : Tracker) (finding : Finding) (places : List (Nat × Nat)) : Tracker :=
  { t with
    findings := t.findings ++ places.map fun (line, column) => ⟨finding, line, column⟩ }

/-- Changes a frame. -/
def modifyFrame (t : Tracker) (id : FrameId) (f : Frame → Frame) : Tracker :=
  { t with frames := t.frames.modify id f }

/-- Gives a name a binding in a frame. -/
def bind (t : Tracker) (id : FrameId) (name : String) (binding : Binding) : Tracker :=
  t.modifyFrame id fun f => { f with bindings := f.bindings.insert name binding }

/-- Changes the binding of a name in a frame. -/
def modifyBinding (t : Tracker) (id : FrameId) (name : String) (f : Binding → Binding) : Tracker :=
  t.modifyFrame id fun frame => { frame with bindings := frame.bindings.modify name f }

/-- Notes a read of a name that the frame declares. -/
def markUsed (t : Tracker) (id : FrameId) (name : String) (line : Nat) : Tracker :=
  t.modifyBinding id name (·.use line)

/-- Opens a frame inside the current one. -/
def enter (t : Tracker) (kind : FrameKind) : Tracker :=
  let id := t.frames.size
  let function := if kind = .function then id else t.functionFrame
  { t with
    frames := t.frames.push { kind, parent := some t.current, function }
    active := t.active.push id }

/-- Adds a label to the current frame. -/
def addLabel (t : Tracker) (label : String) : Tracker :=
  t.modifyFrame t.current fun f => { f with labels := f.labels ++ [label] }

/-- Whether the label encloses the current place within its function. -/
def hasLabel (t : Tracker) (label : String) : Bool :=
  (upTo t.functionFrame t.enclosing).any fun id => (t.frame id).labels.contains label

/-- Marks a name as used by other files. -/
def exportName (t : Tracker) (name : String) : Tracker :=
  { t with exported := name :: t.exported }

/-- Takes the pending uses of a name that lie within a frame out of the map: those uses in the order
in which they were made, and the tracker without them. The others stay pending. -/
def takePending (t : Tracker) (name : String) (ancestor : FrameId) : List Pending × Tracker :=
  match t.pending.get? name with
  | none => ([], t)
  | some refs =>
    let (claimed, rest) := refs.partition fun r => isWithin t.frames r.frame ancestor
    let pending :=
      if rest.isEmpty then t.pending.erase name else t.pending.modify name fun _ => rest
    (claimed.reverse, { t with pending })

/-- Notes those of the uses that are reads as reads of a binding. -/
def markReads (t : Tracker) (id : FrameId) (name : String) (refs : List Pending) : Tracker :=
  (refs.filter (!·.isWrite)).foldl (fun t r => t.markUsed id name r.line) t

end Tracker

end Scope

end ScriptLint
