import ScriptLint.OrderedMap
import ScriptLint.Predefined.Environment

/-!
# The table of predefined globals

A set adds its names and makes those writable that it allows to be assigned; it never takes anything
away. A declaration gives its name exactly the writability it states, and a removed name stays away
however often a set brings it, until it is declared again.
-/

namespace ScriptLint

namespace Predefined

/-- One edit of the table. -/
inductive Change where
  | declare (name : String) (writable : Bool)
  | remove (name : String)
deriving DecidableEq

/-- An edit as the caller writes it: a leading minus sign removes the name. -/
def Change.ofName (name : String) (writable : Bool) : Change :=
  match name.toList with
  | '-' :: removed => .remove (String.ofList removed)
  | _ => .declare name writable

/-- The caller's globals: names with their writability, or a list of read-only names. -/
inductive Globals where
  | map (names : OrderedMap String Bool)
  | list (names : List String)

/-- The edits in the order given. -/
def Globals.changes : Globals → List Change
  | map names => names.entries.map fun (name, writable) => .ofName name writable
  | list names => names.map (.ofName · false)

/-- The names predefined in a run, and those removed for good. -/
structure Table where
  entries : OrderedMap String Bool := {}
  removed : List String := []

namespace Table

/-- Adds one name of a set, unless it was removed. -/
def addName (table : Table) (entry : String × Bool) : Table :=
  if table.removed.contains entry.1 then table
  else
    let writable := (table.entries.get? entry.1).getD false || entry.2
    { table with entries := table.entries.insert entry.1 writable }

/-- Adds a set. -/
def addSet (table : Table) (set : GlobalSet) : Table :=
  set.foldl addName table

/-- The table of the language's built-ins. -/
def standard : Table := ({} : Table).addSet languageSet

/-- Applies one edit. -/
def apply (table : Table) : Change → Table
  | .declare name writable =>
    { entries := table.entries.insert name writable
      removed := table.removed.filter (· != name) }
  | .remove name =>
    { entries := table.entries.erase name
      removed := name :: table.removed }

/-- Applies edits one after the other. -/
def applyAll (table : Table) (changes : List Change) : Table :=
  changes.foldl apply table

/-- Whether programs may assign to the name, if it is predefined. -/
def lookup (table : Table) (name : String) : Option Bool := table.entries.get? name

/-- Whether the name is predefined. -/
def contains (table : Table) (name : String) : Bool := table.entries.contains name

end Table

end Predefined

end ScriptLint
