import ScriptLint.Json.Reader
import ScriptLint.Predefined.Table
import ScriptLint.Setting.Layers

/-!
# Configuration

Options and globals come as JSON; single options can be overridden with `key=value`. A JSON text is
refused as a whole if any part of it has the wrong shape.
-/

namespace ScriptLint

/-! ## From JSON -/

/-- The value of a setting: a truth value, a number of 32 bits, a word or a set of names. -/
def Setting.Value.ofJson? : Json → Option Setting.Value
  | .bool on => some (.flag on)
  | .natural n => if n < 4294967296 then some (.limit (UInt32.ofNat n)) else none
  | .string word => some (.level word)
  | json => json.strings?.map Setting.Value.ofNames

/-- A setting's value as JSON. -/
def Setting.Value.toJson : Setting.Value → Json
  | .flag on => .bool on
  | .limit bound => .natural bound.toNat
  | .level word => .string word
  | .names members => .array (members.map .string)

/-- Options from an object; a repeated name keeps its first place and its last value. -/
def Options.ofJson? (json : Json) : Option Options := do
  let members ← json.object?
  let pairs ← members.mapM fun (name, value) => (Setting.Value.ofJson? value).map (name, ·)
  return OrderedMap.ofList pairs

/-- Globals from an object of truth values or an array of names. -/
def Predefined.Globals.ofJson? : Json → Option Predefined.Globals
  | .object members => do
    let pairs ← members.mapM fun (name, value) => value.bool?.map (name, ·)
    return .map (OrderedMap.ofList pairs)
  | json => json.strings?.map .list

/-- Globals as JSON, in the shape in which they were given. -/
def Predefined.Globals.toJson : Predefined.Globals → Json
  | .map names => .object (names.entries.map fun (name, writable) => (name, .bool writable))
  | .list names => .array (names.map .string)

/-- The configuration of a run. -/
structure Config where
  options : Options := {}
  globals : Option Predefined.Globals := none

namespace Config

/-- One member of a configuration object. A repeated or unknown member is refused. -/
def addMember (config : Config) (seen : List String) (member : String × Json) : Option Config :=
  if seen.contains member.1 then none
  else if member.1 = "options" then
    (Options.ofJson? member.2).map ({ config with options := · })
  else if member.1 = "globals" then
    match member.2 with
    | .null => some { config with globals := none }
    | json => (Predefined.Globals.ofJson? json).map ({ config with globals := some · })
  else none

/-- The members of a configuration object, one after the other. -/
def addMembers (config : Config) (seen : List String) :
    List (String × Json) → Option Config
  | [] => some config
  | member :: rest =>
    (config.addMember seen member).bind (·.addMembers (member.1 :: seen) rest)

/-- The configuration that a text holds. -/
def parse? (text : String) : Option Config := do
  let json ← Json.parse? text
  let members ← json.object?
  ({} : Config).addMembers [] members

end Config

/-! ## Overrides -/

/-- Why an override was refused. -/
inductive OverrideError where
  | badOption (raw : String) (problem : Setting.Problem)
  | notKeyValue (raw : String)
deriving DecidableEq

/-- The text shown to the user. -/
def OverrideError.message : OverrideError → String
  | badOption raw problem => s!"bad option '{raw}': {problem.message}"
  | notKeyValue raw => s!"bad option '{raw}': expected key=value"

namespace Config

/-- The value that an override gives its key: a truth value for a code to ignore, otherwise what the
setting reads. -/
def overrideValue (key value : String) : Except Setting.Problem Setting.Value :=
  if (Setting.ignoredCode? key).isSome then
    if value = "true" then .ok (.flag true)
    else if value = "false" then .ok (.flag false)
    else .error (.badValue value)
  else match Setting.ofName? key with
    | none => .error (.unknownOption key)
    | some setting => setting.read value

/-- Applies an override of the form `key=value`; white space around key and value does not count. -/
def override (config : Config) (raw : String) : Except OverrideError Config :=
  let cs := raw.toList
  let key := Text.trimText (String.ofList (cs.takeWhile (· ≠ '=')))
  match cs.dropWhile (· ≠ '=') with
  | [] => .error (.notKeyValue raw)
  | _ :: rest =>
    if key.isEmpty then .error (.notKeyValue raw)
    else match overrideValue key (Text.trimText (String.ofList rest)) with
      | .ok value => .ok { config with options := config.options.insert key value }
      | .error problem => .error (.badOption raw problem)

/-- Applies overrides in order, up to the first that is refused. -/
def overrideAll (config : Config) : List String → Except OverrideError Config
  | [] => .ok config
  | raw :: rest =>
    match config.override raw with
    | .ok config => config.overrideAll rest
    | .error e => .error e

end Config

end ScriptLint
