import ScriptLint.OrderedMap
import ScriptLint.Stack
import ScriptLint.Setting.Catalogue

/-!
# Settings in force

One run reads its settings from a base layer and a stack of overlays. Directive comments write into
the innermost overlay; an overlay opens with a function body and closes with it, so that a directive
inside a function affects that function only. Looking a setting up goes through the overlays from
the inside out, then to the base; what is set nowhere is off.
-/

namespace ScriptLint

/-- The options given to a run: names and values in the order given. Names need not be valid. -/
abbrev Options := OrderedMap String Setting.Value

namespace Options

/-- Codes that keys such as `-W034` switch off. -/
def ignoredCodes (options : Options) : List String :=
  (options.entries.filter (·.2.isOn)).filterMap fun entry => Setting.ignoredCode? entry.1

end Options

namespace Setting

/-- A value in an overlay; it is explicit unless another setting implied it. -/
structure Entry where
  value : Value
  explicit : Bool

/-- The values that the directives of one function body have set. -/
abbrev Overlay := OrderedMap Setting Entry

/-- How far the check for unused bindings goes. -/
inductive UnusedPolicy where
  | off
  | lastParam
  | vars
  | strict
deriving DecidableEq

/-- Which late definitions are reported. -/
inductive LateDefPolicy where
  | off
  | all
  | noFunc
deriving DecidableEq

/-- Which redefinitions are reported. -/
inductive ShadowPolicy where
  | inner
  | outer
  | allow
deriving DecidableEq

/-- Which quotation marks are reported. -/
inductive QuotePolicy where
  | off
  | consistent
  | single
  | double
deriving DecidableEq

/-- The settings of one run: a base layer and the open overlays. -/
structure Layers where
  base : OrderedMap Setting Value := {}
  overlays : Stack Overlay := ⟨{}, []⟩

namespace Layers

/-! ## Looking settings up -/

/-- The value that the nearest layer gives the setting. -/
def resolve (layers : Layers) (s : Setting) : Value :=
  match layers.overlays.toList.findSome? (·.get? s) with
  | some entry => entry.value
  | none => (layers.base.get? s).getD (.flag false)

/-- Whether the setting is on. -/
def enabled (layers : Layers) (s : Setting) : Bool :=
  (layers.resolve s).isOn

/-- The bound of a setting, if one is set. -/
def limit? (layers : Layers) (s : Setting) : Option Nat :=
  (layers.resolve s).limit?.map UInt32.toNat

/-- Settings that are on, in catalogue order. -/
def enabledSettings (layers : Layers) : List Setting :=
  Setting.all.filter layers.enabled

/-- The setting `unused` as a policy. -/
def unusedPolicy (layers : Layers) : UnusedPolicy :=
  match layers.resolve .unused with
  | .level "vars" => .vars
  | .level "strict" => .strict
  | value => if value.isOn then .lastParam else .off

/-- The setting `latedef` as a policy. -/
def lateDefPolicy (layers : Layers) : LateDefPolicy :=
  match layers.resolve .latedef with
  | .level "nofunc" => .noFunc
  | value => if value.isOn then .all else .off

/-- The setting `shadow` as a policy. -/
def shadowPolicy (layers : Layers) : ShadowPolicy :=
  match layers.resolve .shadow with
  | .level word => if word = "outer" then .outer else .inner
  | value => if value.isOn then .allow else .inner

/-- The setting `quotmark` as a policy. -/
def quotePolicy (layers : Layers) : QuotePolicy :=
  match layers.resolve .quotmark with
  | .level "single" => .single
  | .level "double" => .double
  | value => if value.isOn then .consistent else .off

/-! ## Changing settings -/

/-- Number of open overlays, the global one included. -/
def depth (layers : Layers) : Nat := layers.overlays.depth

/-- Opens an overlay. -/
def push (layers : Layers) : Layers :=
  { layers with overlays := layers.overlays.push {} }

/-- Closes the innermost overlay; the global one stays open. -/
def pop (layers : Layers) : Layers :=
  { layers with overlays := layers.overlays.pop }

/-- Writes a value into the innermost overlay. -/
def write (layers : Layers) (s : Setting) (value : Value) (explicit : Bool) : Layers :=
  { layers with overlays := layers.overlays.modifyTop (·.insert s ⟨value, explicit⟩) }

/-- Whether the nearest explicit value of the setting is off. -/
def explicitlyOff (layers : Layers) (s : Setting) : Bool :=
  let explicit? (overlay : Overlay) := (overlay.get? s).filter (·.explicit)
  match layers.overlays.toList.findSome? explicit? with
  | some entry => !entry.value.isOn
  | none => match layers.base.get? s with
    | some value => !value.isOn
    | none => false

/-- Switches on what a setting implies, unless that was explicitly switched off. -/
def applyImplied (layers : Layers) (trigger : Setting) : Layers :=
  match trigger.implied? with
  | some s => if layers.explicitlyOff s then layers else layers.write s (.flag true) false
  | none => layers

/-- Sets a value in the innermost overlay. `validthis` is refused in global code; a refused value
leaves the settings as they were. -/
def set (layers : Layers) (s : Setting) (value : Value) (atGlobal : Bool) :
    Except Problem Layers :=
  match s.validate value with
  | .error problem => .error problem
  | .ok () =>
    if s = .validthis && atGlobal then .error .validThisInGlobal
    else
      let written := layers.write s value true
      .ok (if value.isOn then written.applyImplied s else written)

/-- Sets a value by the name of the setting. -/
def setNamed (layers : Layers) (name : String) (value : Value) (atGlobal : Bool) :
    Except Problem Layers :=
  match ofName? name with
  | none => .error (.unknownOption name)
  | some s => layers.set s value atGlobal

/-! ## From the options of a run -/

/-- The valid entries of the options, and what is wrong with the others. Keys that name a code to
ignore are neither. -/
def readBase (options : Options) : OrderedMap Setting Value × List Problem :=
  options.entries.foldl step ({}, [])
where
  /-- Sorts one entry into the valid values or the problems. -/
  step (acc : OrderedMap Setting Value × List Problem) (entry : String × Value) :
      OrderedMap Setting Value × List Problem :=
    if (ignoredCode? entry.1).isSome then acc
    else match ofName? entry.1 with
      | none => (acc.1, acc.2 ++ [.unknownOption entry.1])
      | some s => match s.validate entry.2 with
        | .ok () => (acc.1.insert s entry.2, acc.2)
        | .error problem => (acc.1, acc.2 ++ [problem])

/-- The settings that the options of a run give, with the global overlay open, and the entries that
were rejected. -/
def ofOptions (options : Options) : Layers × List Problem :=
  let (base, problems) := readBase options
  let triggers := (base.entries.filter (·.2.isOn)).map Prod.fst
  (triggers.foldl applyImplied { base := base }, problems)

end Layers

end Setting

end ScriptLint
