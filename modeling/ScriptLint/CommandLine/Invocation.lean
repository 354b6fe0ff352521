/-!
# Arguments of the command line

Arguments are files or options; options have a long and a short name, and two dashes alone end the
options. Short options can be joined (`-vv`), and a value can be attached to its option (`-rjson`,
`-r=json`, `--reporter=json`) or be the argument after it.

A value in an argument of its own, and a run of files, are looked at only once the argument after
them has been recognised: an unknown option takes precedence over a bad value right before it.
-/

namespace ScriptLint.CommandLine

/-- How reports are printed. -/
inductive Reporter where
  | text
  | json
deriving DecidableEq

namespace Reporter

/-- The name on the command line. -/
def name : Reporter → String
  | text => "text"
  | json => "json"

/-- Finds a reporter by its name. -/
def ofName? (word : String) : Option Reporter :=
  [text, json].find? (·.name == word)

end Reporter

/-- Options that take a value. -/
inductive ValueOption where
  | config
  | override
  | reporter
deriving DecidableEq

/-- Options that stand for themselves. -/
inductive Switch where
  | verbose
  | help
  | version
deriving DecidableEq

/-- What an option's name stands for. -/
inductive OptionName where
  | valued (option : ValueOption)
  | switch (s : Switch)
deriving DecidableEq

namespace OptionName

/-- The options by their long and their short name. -/
def all : List (String × Char × OptionName) :=
  [("config", 'c', .valued .config), ("option", 'o', .valued .override),
   ("reporter", 'r', .valued .reporter), ("verbose", 'v', .switch .verbose),
   ("help", 'h', .switch .help), ("version", 'V', .switch .version)]

/-- Finds an option by its long name. -/
def ofLong? (name : String) : Option OptionName :=
  (all.find? (·.1 == name)).map (·.2.2)

/-- Finds an option by its short name. -/
def ofShort? (c : Char) : Option OptionName :=
  (all.find? (·.2.1 == c)).map (·.2.2)

end OptionName

/-- Why the arguments do not describe a run: they are wrong, or ask for something else. -/
inductive Refusal where
  | missingFile
  /-- A value is missing, empty where it must not be, or not one of those allowed. -/
  | badValue
  | unknownOption
  /-- An option that can be given once was given again. -/
  | repeatedOption
  /-- A value is attached to an option that takes none. -/
  | excessValue
  | help
  | version
deriving DecidableEq

/-- The exit code: asking for help is no error. -/
def Refusal.exitCode : Refusal → Nat
  | help | version => 0
  | _ => 2

/-- A run as the command line describes it. -/
structure Invocation where
  files : List String := []
  config : Option String := none
  overrides : List String := []
  reporter : Option Reporter := none
  /-- How often more detail in the log was asked for. -/
  verbosity : Nat := 0
deriving DecidableEq

/-- How much goes to the log. -/
inductive LogLevel where
  | warn
  | info
  | debug
  | trace
deriving DecidableEq

/-- The name of a level. -/
def LogLevel.name : LogLevel → String
  | warn => "WARN"
  | info => "INFO"
  | debug => "DEBUG"
  | trace => "TRACE"

namespace Invocation

/-- The log level that the verbosity asks for. -/
def logLevel (i : Invocation) : LogLevel :=
  match i.verbosity with
  | 0 => .warn
  | 1 => .info
  | 2 => .debug
  | _ => .trace

/-- Adds the value of an option. A configuration must have a name, and a reporter must exist. -/
def store (i : Invocation) (option : ValueOption) (value : String) : Except Refusal Invocation :=
  match option with
  | .override => .ok { i with overrides := i.overrides ++ [value] }
  | .config =>
    if i.config.isSome then .error .repeatedOption
    else if value.isEmpty then .error .badValue
    else .ok { i with config := some value }
  | .reporter =>
    if i.reporter.isSome then .error .repeatedOption
    else match Reporter.ofName? value with
      | some reporter => .ok { i with reporter := some reporter }
      | none => .error .badValue

/-- Carries out an option without a value. Asking for detail counts up to 255. -/
def flip (i : Invocation) : Switch → Except Refusal Invocation
  | .verbose => .ok { i with verbosity := min (i.verbosity + 1) 255 }
  | .help => .error .help
  | .version => .error .version

end Invocation

/-! ## Reading arguments one by one -/

/-- What was read but not looked at yet: an option with the value that came after it, if one did, or
files. -/
inductive Waiting where
  | nothing
  | option (option : ValueOption) (value : Option String)
  | files (names : List String)
deriving DecidableEq

/-- The arguments read so far. -/
structure Reading where
  invocation : Invocation := {}
  waiting : Waiting := .nothing
  /-- Options have ended: every argument is a file. -/
  filesOnly : Bool := false

namespace Reading

/-- Looks at what is waiting. -/
def settle (r : Reading) : Except Refusal Reading :=
  match r.waiting with
  | .nothing => .ok r
  | .option _ none => .error .badValue
  | .option option (some value) => do
    return { r with invocation := ← r.invocation.store option value, waiting := .nothing }
  | .files names =>
    if names.any String.isEmpty then .error .badValue
    else .ok { r with
      invocation := { r.invocation with files := r.invocation.files ++ names }
      waiting := .nothing }

/-- An option without a value. -/
def addSwitch (r : Reading) (s : Switch) : Except Refusal Reading := do
  let r ← r.settle
  return { r with invocation := ← r.invocation.flip s }

/-- An option with its value, or one whose value comes next. -/
def addOption (r : Reading) (option : ValueOption) (value : Option String) :
    Except Refusal Reading := do
  let r ← r.settle
  match value with
  | some value => return { r with invocation := ← r.invocation.store option value }
  | none => return { r with waiting := .option option none }

/-- A file. -/
def addFile (r : Reading) (name : String) : Except Refusal Reading :=
  match r.waiting with
  | .files names => .ok { r with waiting := .files (names ++ [name]) }
  | _ => do
    let r ← r.settle
    return { r with waiting := .files [name] }

/-- A long option, by the characters after its dashes. -/
def addLong (r : Reading) (cs : List Char) : Except Refusal Reading :=
  let name := String.ofList (cs.takeWhile (· ≠ '='))
  let value := match cs.dropWhile (· ≠ '=') with
    | [] => none
    | _ :: rest => some (String.ofList rest)
  match OptionName.ofLong? name, value with
  | none, _ => .error .unknownOption
  | some (.valued option), value => r.addOption option value
  | some (.switch _), some _ => .error .excessValue
  | some (.switch s), none => r.addSwitch s

/-- The value attached to a short option, by the characters after its letter. -/
def attachedValue : List Char → Option String
  | [] => none
  | '=' :: rest => some (String.ofList rest)
  | cs => some (String.ofList cs)

/-- Short options joined to one argument, by the characters after its dash. -/
def addShort (r : Reading) : List Char → Except Refusal Reading
  | [] => .ok r
  | c :: rest =>
    match OptionName.ofShort? c with
    | none => .error .unknownOption
    | some (.valued option) => r.addOption option (attachedValue rest)
    | some (.switch s) => do (← r.addSwitch s).addShort rest

/-- An argument that is no option: the value that an option waits for, or a file. -/
def addPlain (r : Reading) (arg : String) : Except Refusal Reading :=
  match r.waiting with
  | .option option none => .ok { r with waiting := .option option (some arg) }
  | _ => r.addFile arg

/-- Reads one argument. The value of an override may look like an option. -/
def add (r : Reading) (arg : String) : Except Refusal Reading :=
  if r.filesOnly then r.addFile arg
  else if r.waiting = .option .override none then r.addPlain arg
  else match arg.toList with
    | ['-', '-'] => .ok { r with filesOnly := true }
    | '-' :: '-' :: cs => r.addLong cs
    | ['-'] => r.addPlain arg
    | '-' :: cs => r.addShort cs
    | _ => r.addPlain arg

end Reading

namespace Invocation

/-- The run that the arguments describe; there must be a file. -/
def ofArgs (args : List String) : Except Refusal Invocation := do
  let r ← args.foldlM Reading.add {}
  let i := (← r.settle).invocation
  if i.files.isEmpty then throw .missingFile else return i

end Invocation

end ScriptLint.CommandLine
