import ScriptLint.Setting.Value
import ScriptLint.Setting.Problem
import ScriptLint.Text.Blank

/-!
# The catalogue of settings

Every setting the linter understands, the kind of value it takes and the group it belongs to. All
settings are off unless configured. Two readers check values: `read` takes the text of a directive
or an override, `validate` a value that already has a type.
-/

namespace ScriptLint

/-- The settings, in catalogue order: those that turn checks on, those that tolerate something
reported by default, and the environments. -/
inductive Setting where
  | bitwise | camelcase | curly | eqeqeq | forin | globalstrict | latedef | maxcomplexity
  | maxdepth | maxlen | maxparams | maxstatements | newcap | noarg | noempty | nonew | plusplus
  | quotmark | strict | undef | unused | asi | boss | debug | eqnull | evil | expr | funcscope
  | lastsemic | loopfunc | multistr | passfail | proto | scripturl | shadow | sub | supernew
  | validthis | withstmt | browser | devel | jquery | node | nonstandard | worker
deriving DecidableEq

namespace Setting

/-- Which values a setting takes. Every setting takes `true` and `false`. -/
inductive Kind where
  | flag
  | limit
  | graded (levels : List String)
deriving DecidableEq

/-- What a setting is for. -/
inductive Category where
  | enforcing
  | relaxing
  | environment
deriving DecidableEq

/-- The catalogue. -/
def all : List Setting :=
  [
   .bitwise, .camelcase, .curly, .eqeqeq, .forin, .globalstrict, .latedef, .maxcomplexity,
   .maxdepth, .maxlen, .maxparams, .maxstatements, .newcap, .noarg, .noempty, .nonew, .plusplus,
   .quotmark, .strict, .undef, .unused, .asi, .boss, .debug, .eqnull, .evil, .expr, .funcscope,
   .lastsemic, .loopfunc, .multistr, .passfail, .proto, .scripturl, .shadow, .sub, .supernew,
   .validthis, .withstmt, .browser, .devel, .jquery, .node, .nonstandard, .worker]

/-- The name used in configuration and directives. -/
def name : Setting → String
  | bitwise => "bitwise"
  | camelcase => "camelcase"
  | curly => "curly"
  | eqeqeq => "eqeqeq"
  | forin => "forin"
  | globalstrict => "globalstrict"
  | latedef => "latedef"
  | maxcomplexity => "maxcomplexity"
  | maxdepth => "maxdepth"
  | maxlen => "maxlen"
  | maxparams => "maxparams"
  | maxstatements => "maxstatements"
  | newcap => "newcap"
  | noarg => "noarg"
  | noempty => "noempty"
  | nonew => "nonew"
  | plusplus => "plusplus"
  | quotmark => "quotmark"
  | strict => "strict"
  | undef => "undef"
  | unused => "unused"
  | asi => "asi"
  | boss => "boss"
  | debug => "debug"
  | eqnull => "eqnull"
  | evil => "evil"
  | expr => "expr"
  | funcscope => "funcscope"
  | lastsemic => "lastsemic"
  | loopfunc => "loopfunc"
  | multistr => "multistr"
  | passfail => "passfail"
  | proto => "proto"
  | scripturl => "scripturl"
  | shadow => "shadow"
  | sub => "sub"
  | supernew => "supernew"
  | validthis => "validthis"
  | withstmt => "withstmt"
  | browser => "browser"
  | devel => "devel"
  | jquery => "jquery"
  | node => "node"
  | nonstandard => "nonstandard"
  | worker => "worker"

/-- Finds a setting by its name. -/
def ofName? (word : String) : Option Setting :=
  all.find? (·.name == word)

/-- The kind of value the setting takes. -/
def kind : Setting → Kind
  | maxcomplexity | maxdepth | maxlen | maxparams | maxstatements => .limit
  | latedef => .graded ["nofunc"]
  | quotmark => .graded ["single", "double"]
  | unused => .graded ["vars", "strict"]
  | shadow => .graded ["inner", "outer"]
  | _ => .flag

/-- The group of the setting. -/
def category : Setting → Category
  | browser | devel | jquery | node | nonstandard | worker => .environment
  | asi | boss | debug | eqnull | evil | expr | funcscope | lastsemic | loopfunc | multistr
  | passfail | proto | scripturl | shadow | sub | supernew | validthis | withstmt => .relaxing
  | _ => .enforcing

/-- Whether the setting adds a set of predefined globals. -/
def isEnvironment (s : Setting) : Bool :=
  s.category == .environment

/-- The setting that is switched on along with this one. -/
def implied? : Setting → Option Setting
  | globalstrict => some strict
  | _ => none

/-! ## Numbers in text -/

/-- The number written in decimal digits after an optional plus sign, if it fits 32 bits. -/
def readNumber? (text : List Char) : Option UInt32 :=
  let digits := match text with
    | '+' :: rest => rest
    | _ => text
  if digits.isEmpty || !digits.all Char.isDigit then none
  else
    let value := digits.foldl (fun sum c => sum * 10 + (c.toNat - '0'.toNat)) 0
    if value < 4294967296 then some (UInt32.ofNat value) else none

/-! ## Readers of values -/

/-- Reads the text of a value; white space around it does not count. -/
def read (s : Setting) (raw : String) : Except Problem Value :=
  let text := Text.trimText raw
  match s.kind with
  | .flag =>
    if text = "true" then .ok (.flag true)
    else if text = "false" then .ok (.flag false)
    else .error (.badValue text)
  | .limit =>
    if text = "false" then .ok (.flag false)
    else match readNumber? text.toList with
      | some bound => if bound > 0 then .ok (.limit bound) else .error (.badInteger text)
      | none => .error (.badInteger text)
  | .graded levels =>
    if text = "true" then .ok (.flag true)
    else if text = "false" then .ok (.flag false)
    else if levels.contains text then .ok (.level text)
    else .error (.badValue text)

/-- Checks a value that already has a type. -/
def validate (s : Setting) (value : Value) : Except Problem Unit :=
  match value, s.kind with
  | .flag _, _ => .ok ()
  | .limit bound, .limit => if bound > 0 then .ok () else .error (.badInteger value.describe)
  | _, .limit => .error (.badInteger value.describe)
  | .level word, .graded levels =>
    if levels.contains word then .ok () else .error (.badValue value.describe)
  | _, _ => .error (.badValue value.describe)

/-! ## Keys that name a diagnostic code -/

/-- The code in a key such as `-W034`: a minus sign, one of the letters E, W and I, and digits. -/
def ignoredCode? (key : String) : Option String :=
  match key.toList with
  | '-' :: letter :: digits =>
    if (letter == 'E' || letter == 'W' || letter == 'I') && !digits.isEmpty
        && digits.all Char.isDigit then
      some (String.ofList (letter :: digits))
    else none
  | _ => none

end Setting

end ScriptLint
