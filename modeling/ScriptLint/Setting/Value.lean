/-!
# Values of settings

A setting is switched on or off, bounded by a number, graded by a level, or given a set of names.
-/

namespace ScriptLint.Setting

/-- The value of one setting. The names of a set are sorted and occur once. -/
inductive Value where
  | flag (on : Bool)
  | limit (bound : UInt32)
  | level (word : String)
  | names (members : List String)
deriving DecidableEq, Inhabited

namespace Value

/-- Whether the setting is switched on at all. -/
def isOn : Value → Bool
  | flag on => on
  | limit bound => bound > 0
  | level word => word != "" && word != "false"
  | names members => !members.isEmpty

/-- The level of a graded value. -/
def level? : Value → Option String
  | level word => some word
  | _ => none

/-- The bound, if the value is a positive number. -/
def limit? : Value → Option UInt32
  | limit bound => if bound > 0 then some bound else none
  | _ => none

/-- The value as text; a set lists its names with commas between them. -/
def describe : Value → String
  | flag on => if on then "true" else "false"
  | limit bound => toString bound.toNat
  | level word => word
  | names members => ",".intercalate members

/-- The set of the given names: sorted, without repetition. -/
def ofNames (members : List String) : Value :=
  names (members.foldl insertSorted [])
where
  /-- Inserts a name into a sorted list that does not hold it yet. -/
  insertSorted (sorted : List String) (name : String) : List String :=
    match sorted with
    | [] => [name]
    | first :: rest =>
      if name = first then sorted
      else if name < first then name :: sorted
      else first :: insertSorted rest name

end Value

end ScriptLint.Setting
