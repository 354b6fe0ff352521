import ScriptLint.Setting.Catalogue

/-!
# Directive comments

A comment whose first word is `jshint`, `jslint`, `global`, `globals` or `exported` configures the
run. Its items are separated by commas and white space; white space around a colon belongs to the
item. Items that cannot be read become problems of the directive.
-/

namespace ScriptLint

namespace Directive

/-- What a directive is about. -/
inductive Family where
  | options
  | globals
  | exported
deriving DecidableEq

/-- Which lines an `ignore` item silences: from this line on, up to this line, this line only. -/
inductive Marker where
  | start
  | stop
  | line
deriving DecidableEq

/-- One item of a directive. -/
inductive Entry where
  | setOption (setting : Setting) (value : Setting.Value)
  | ignoreCode (code : String)
  | ignore (marker : Marker)
  | declareGlobal (name : String) (writable : Bool)
  | removeGlobal (name : String)
  | exportName (name : String)
deriving DecidableEq

/-- The family that a first word stands for. -/
def Family.ofWord? (word : String) : Option Family :=
  if word = "jshint" || word = "jslint" then some .options
  else if word = "global" || word = "globals" then some .globals
  else if word = "exported" then some .exported
  else none

/-! ## Items -/

/-- Removes the white space around colons. -/
def tightenColons (cs : List Char) : List Char :=
  cs.foldr (fun c rest =>
    if c = ':' then ':' :: rest.dropWhile Text.isBlank
    else if Text.isBlank c && rest.head? == some ':' then rest
    else c :: rest) []

/-- Commas and white space separate items. -/
def isSeparator (c : Char) : Bool := c = ',' || Text.isBlank c

/-- The longest pieces without a separator, empty ones included. -/
def pieces (cs : List Char) : List (List Char) :=
  cs.foldr (fun c parts =>
    if isSeparator c then [] :: parts
    else match parts with
      | [] => [[c]]
      | part :: rest => (c :: part) :: rest) [[]]

/-- The items of a directive in source order. -/
def items (cs : List Char) : List (List Char) :=
  (pieces (tightenColons cs)).filter (!·.isEmpty)

/-- Splits an item at its first colon. -/
def splitItem (item : List Char) : String × Option String :=
  let key := item.takeWhile (· ≠ ':')
  match item.dropWhile (· ≠ ':') with
  | [] => (String.ofList key, none)
  | _ :: value => (String.ofList key, some (String.ofList value))

/-- An item of an options directive: a code to ignore, a marker, or a setting with its value. The
answer is empty for a code that is explicitly not ignored. -/
def optionItem (key : String) (value : Option String) : Except Setting.Problem (Option Entry) :=
  match Setting.ignoredCode? key with
  | some code => match value with
    | none | some "true" => .ok (some (.ignoreCode code))
    | some "false" => .ok none
    | some other => .error (.badValue other)
  | none =>
    if key = "ignore" then
      match value with
      | some "start" => .ok (some (.ignore .start))
      | some "end" => .ok (some (.ignore .stop))
      | some "line" => .ok (some (.ignore .line))
      | other => .error (.badValue (other.getD ""))
    else match Setting.ofName? key with
      | none => .error (.unknownOption key)
      | some setting => match value with
        | none => .error (.badValue key)
        | some raw => match setting.read raw with
          | .ok typed => .ok (some (.setOption setting typed))
          | .error problem => .error problem

/-- An item of a globals directive: a name to remove, or a name with its writability. -/
def globalItem (key : String) (value : Option String) : Except Setting.Problem (Option Entry) :=
  match key.toList with
  | '-' :: name => .ok (some (.removeGlobal (String.ofList name)))
  | _ => match value with
    | none | some "false" => .ok (some (.declareGlobal key false))
    | some "true" => .ok (some (.declareGlobal key true))
    | some other => .error (.badValue other)

/-- One item, read as its family demands. -/
def readItem (family : Family) (item : List Char) : Except Setting.Problem (Option Entry) :=
  let (key, value) := splitItem item
  match family with
  | .options => optionItem key value
  | .globals => globalItem key value
  | .exported => .ok (some (.exportName key))

end Directive

/-- A directive comment: the items that could be read, and what is wrong with the others. -/
structure Directive where
  family : Directive.Family
  entries : List Directive.Entry := []
  problems : List Setting.Problem := []
deriving DecidableEq

namespace Directive

/-- Adds one item to a directive. -/
def addItem (d : Directive) (item : List Char) : Directive :=
  match readItem d.family item with
  | .ok (some entry) => { d with entries := d.entries ++ [entry] }
  | .ok none => d
  | .error problem => { d with problems := d.problems ++ [problem] }

/-- The directive that the body of a comment holds, if it holds one: a first word of ASCII letters
that names a family, then the end of the comment or white space. -/
def ofComment? (body : String) : Option Directive :=
  let text := Text.trimLeft body.toList
  let word := text.takeWhile Char.isAlpha
  let rest := text.dropWhile Char.isAlpha
  if rest.head?.all Text.isBlank then
    (Family.ofWord? (String.ofList word)).map fun family =>
      (items rest).foldl addItem { family }
  else none

end Directive

end ScriptLint
