import ScriptLint.OrderedMap
import ScriptLint.Setting.Layers

/-!
# Frames and bindings

A frame is opened by the program, a function, a block, a catch clause or a label. It holds the names
declared in it, in order of declaration.
-/

namespace ScriptLint.Scope

/-- The index of a frame; frames are numbered in the order in which they are opened. -/
abbrev FrameId := Nat

/-- What opened a frame. -/
inductive FrameKind where
  | global
  | function
  | block
  | catchClause
  | label
deriving DecidableEq

/-- How a name was declared. -/
inductive BindingKind where
  | var
  | lexical
  | constant
  | function
  | param
  | exception
  /-- The name of a function expression, bound inside the function itself. -/
  | functionName
  /-- Declared by a directive. -/
  | global
deriving DecidableEq

namespace BindingKind

/-- The name in reports. -/
def name : BindingKind → String
  | var => "var"
  | lexical => "let"
  | constant => "const"
  | function => "function"
  | param => "param"
  | exception => "exception"
  | functionName => "function-name"
  | global => "global"

/-- Every kind. -/
def all : List BindingKind :=
  [var, lexical, constant, function, param, exception, functionName, global]

/-- Finds a kind by its name. -/
def ofName? (word : String) : Option BindingKind :=
  all.find? (·.name == word)

/-- Variables and functions move to the function frame when their block closes. -/
def hoists : BindingKind → Bool
  | var | function => true
  | _ => false

/-- Whether the binding belongs to its block alone. -/
def isLexical : BindingKind → Bool
  | lexical | constant => true
  | _ => false

end BindingKind

/-- A declared name: where, how, and on which lines it was read. -/
structure Binding where
  line : Nat
  column : Nat
  kind : BindingKind
  /-- Whether it was read. -/
  used : Bool := false
  /-- The lines of its reads, latest first. -/
  reads : List Nat := []
  /-- Moved here when the block that declared it closed. -/
  hoisted : Bool := false
deriving DecidableEq

namespace Binding

/-- The lines of the reads, in the order in which they were made. -/
def useLines (b : Binding) : List Nat := b.reads.reverse

/-- Notes a read. -/
def use (b : Binding) (line : Nat) : Binding :=
  { b with used := true, reads := line :: b.reads }

/-- Adds the reads of another binding after its own. -/
def join (b other : Binding) : Binding :=
  { b with used := b.used || other.used, reads := other.reads ++ b.reads }

@[simp] theorem useLines_use (b : Binding) (line : Nat) :
    (b.use line).useLines = b.useLines ++ [line] := by
  simp [useLines, use]

@[simp] theorem useLines_join (b other : Binding) :
    (b.join other).useLines = b.useLines ++ other.useLines := by
  simp [useLines, join]

end Binding

/-- A frame: what opened it, where it lies, and what it declares. -/
structure Frame where
  kind : FrameKind
  parent : Option FrameId
  /-- The function or program frame it belongs to; a function frame belongs to itself. -/
  function : FrameId
  bindings : OrderedMap String Binding := {}
  labels : List String := []

/-- The frame of the program. -/
def Frame.program : Frame := { kind := .global, parent := none, function := 0 }

instance : Inhabited Frame := ⟨.program⟩

/-- A use of a name that nothing declared so far, with the settings in force at the use. -/
structure Pending where
  line : Nat
  column : Nat
  frame : FrameId
  function : FrameId
  isWrite : Bool
  undef : Bool
  lateDef : Setting.LateDefPolicy
deriving DecidableEq

/-- A global that a directive declared. -/
structure DirectiveGlobal where
  line : Nat
  column : Nat
  used : Bool := false
deriving DecidableEq

/-- A binding that nobody reads. -/
structure UnusedBinding where
  name : String
  line : Nat
  column : Nat
  kind : BindingKind
deriving DecidableEq

/-- An undeclared name and the lines that use it. -/
structure ImpliedGlobal where
  name : String
  lines : List Nat
deriving DecidableEq

/-- The frames from `id` outwards. A frame lies inside frames opened before it, so its parent has a
smaller index. -/
def lineage (frames : Array Frame) (id : FrameId) : List FrameId :=
  id :: match frames[id]?.bind Frame.parent with
    | some parent => if parent < id then lineage frames parent else []
    | none => []
termination_by id

/-- Whether `frame` is `ancestor` or lies inside it. -/
def isWithin (frames : Array Frame) (frame ancestor : FrameId) : Bool :=
  (lineage frames frame).contains ancestor

/-- The frames up to `stop`, which is included. -/
def upTo (stop : FrameId) : List FrameId → List FrameId
  | [] => []
  | id :: rest => if id = stop then [id] else id :: upTo stop rest

/-- The frames after `stop`. -/
def beyond (stop : FrameId) : List FrameId → List FrameId
  | [] => []
  | id :: rest => if id = stop then rest else beyond stop rest

end ScriptLint.Scope
