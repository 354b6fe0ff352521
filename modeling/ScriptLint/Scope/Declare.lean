import ScriptLint.Scope.Tracker

/-!
# Declaring names

A declaration goes to the innermost frame that is not a label. It claims the pending uses of the
name that lie inside that frame.
-/

namespace ScriptLint.Scope.Tracker

open Setting (Layers LateDefPolicy ShadowPolicy)

/-- The innermost frame that is not a label. -/
def declarationFrame (t : Tracker) : FrameId :=
  (t.enclosing.find? fun id => (t.frame id).kind ≠ .label).getD 0

/-- What is wrong with declaring the name once more: it is declared in the same function, or, if
that is to be reported, in a function around it. The name of a function expression may be
redeclared. -/
def redefinition? (t : Tracker) (name : String) (shadow : ShadowPolicy) : Option Finding :=
  let declared? (ids : List FrameId) : Option Binding :=
    (ids.find? (t.binds name)).bind fun id => t.binding? id name
  let reported (b : Binding) (finding : Finding) : Option Finding :=
    if b.kind = .functionName then none else some finding
  let function := t.functionFrame
  if shadow = .allow then none
  else match declared? (upTo function t.enclosing) with
    | some b => reported b (.alreadyDefined name)
    | none =>
      if shadow = .outer then
        (declared? (beyond function t.enclosing)).bind
          fun b => reported b (.definedInOuterScope name)
      else none

/-- Whether a pending use in the declaring function makes the declaration late. -/
def isLate (function : FrameId) (kind : BindingKind) (r : Pending) : Bool :=
  r.function = function && match r.lateDef with
    | .all => true
    | .noFunc => kind ≠ .function
    | .off => false

/-- Gives the pending uses of a name inside a frame to the binding declared there. -/
def claimPending (t : Tracker) (name : String) (id : FrameId) (kind : BindingKind)
    (line column : Nat) : Tracker :=
  let (claimed, t) := t.takePending name id
  let late := claimed.any (isLate (t.frame id).function kind)
  let t := t.markReads id name claimed
  if late && kind ≠ .param then t.report (.usedBeforeDefined name) line column else t

/-- Reports a finding, if there is one. -/
def reportAny (t : Tracker) (finding : Option Finding) (line column : Nat) : Tracker :=
  match finding with
  | some f => t.report f line column
  | none => t

/-- Reports that a predefined name is declared in the program's frame. -/
def reportPredefined (t : Tracker) (name : String) (id : FrameId) (kind : BindingKind)
    (shadow : ShadowPolicy) (line column : Nat) : Tracker :=
  if (t.frame id).kind = .global && kind ≠ .exception && kind ≠ .functionName
      && t.predefined.contains name && shadow ≠ .allow then
    t.report (.redefinition name) line column
  else t

/-- Binds the name in the frame, unless it is bound there already as anything but the name of a
function expression. -/
def bindNew (t : Tracker) (name : String) (id : FrameId) (kind : BindingKind)
    (line column : Nat) : Tracker :=
  match t.binding? id name with
  | some existing =>
    if existing.kind = .functionName then
      (t.bind id name { line, column, kind }).claimPending name id kind line column
    else t
  | none => (t.bind id name { line, column, kind }).claimPending name id kind line column

/-- Declares a name in the innermost frame that is not a label. A second `let` or `const` of a name
in one frame is refused. -/
def declare (t : Tracker) (name : String) (kind : BindingKind) (line column : Nat)
    (layers : Layers) : Tracker :=
  let id := t.declarationFrame
  let shadow := layers.shadowPolicy
  if kind.isLexical then
    if t.binds name id then t.report (.alreadyDeclared name) line column
    else (t.reportPredefined name id kind shadow line column).bindNew name id kind line column
  else
    let t := match kind with
      | .var | .function | .param => t.reportAny (t.redefinition? name shadow) line column
      | _ => t
    (t.reportPredefined name id kind shadow line column).bindNew name id kind line column

end ScriptLint.Scope.Tracker
