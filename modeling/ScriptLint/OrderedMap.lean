/-!
# Maps that remember the order of their keys

A key keeps the place of its first insertion when its value is replaced, and loses it when it is
erased. The list of entries is the only view of a map.
-/

namespace ScriptLint

/-- Entries in the order in which their keys were first inserted. -/
structure OrderedMap (κ ν : Type) where
  entries : List (κ × ν) := []

namespace OrderedMap

variable {κ ν : Type} [DecidableEq κ]

/-- The map without entries. -/
def empty : OrderedMap κ ν := ⟨[]⟩

/-- Keys in order. -/
def keys (m : OrderedMap κ ν) : List κ := m.entries.map Prod.fst

/-- Number of entries. -/
def size (m : OrderedMap κ ν) : Nat := m.entries.length

/-- The value of a key. -/
def get? (m : OrderedMap κ ν) (key : κ) : Option ν := m.entries.lookup key

/-- Whether the key has a value. -/
def contains (m : OrderedMap κ ν) (key : κ) : Bool := (m.get? key).isSome

/-- Changes the value of a key that is present. -/
def modify (m : OrderedMap κ ν) (key : κ) (f : ν → ν) : OrderedMap κ ν :=
  ⟨m.entries.map fun entry => if entry.1 = key then (entry.1, f entry.2) else entry⟩

/-- Gives the key a value: a present key keeps its place, a new one comes last. -/
def insert (m : OrderedMap κ ν) (key : κ) (value : ν) : OrderedMap κ ν :=
  if m.contains key then m.modify key fun _ => value else ⟨m.entries ++ [(key, value)]⟩

/-- Gives the key a value unless it has one. -/
def insertIfNew (m : OrderedMap κ ν) (key : κ) (value : ν) : OrderedMap κ ν :=
  if m.contains key then m else ⟨m.entries ++ [(key, value)]⟩

/-- Removes a key; the others keep their order. -/
def erase (m : OrderedMap κ ν) (key : κ) : OrderedMap κ ν :=
  ⟨m.entries.filter fun entry => entry.1 ≠ key⟩

/-- Inserts the pairs one after the other. -/
def ofList (pairs : List (κ × ν)) : OrderedMap κ ν :=
  pairs.foldl (fun m pair => m.insert pair.1 pair.2) empty

@[simp] theorem keys_modify (m : OrderedMap κ ν) (key : κ) (f : ν → ν) :
    (m.modify key f).keys = m.keys := by
  simp only [keys, modify, List.map_map]
  refine List.map_congr_left fun entry _ => ?_
  by_cases h : entry.1 = key <;> simp [h]

@[simp] theorem keys_erase (m : OrderedMap κ ν) (key : κ) :
    (m.erase key).keys = m.keys.filter (· ≠ key) := by
  simp [keys, erase, List.filter_map, Function.comp_def]

end OrderedMap

end ScriptLint
