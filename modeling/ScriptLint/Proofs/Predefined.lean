import ScriptLint.Predefined.Table
import ScriptLint.Proofs.OrderedMap

/-!
# Sets and edits of the predefined globals

The table answers for each name on its own. A set that is added can only raise the answer, from no
answer to read-only and from there to writable, and has no effect on a removed name; an edit gives
the answer itself.

- `granted`: what the entries of sets say of a name.
- `Table.lookup_addSet`, `Table.lookup_apply`: what a set and an edit do to the answer.
- `Table.lookup_addSets`: sets count by what they hold, not by how often or in which order they are
  added.
- `lookup_settled`: the answer after any run of sets and edits.
-/

namespace ScriptLint.Predefined

/-- Answers are joined in any order of the three. -/
theorem max_assoc_answer (a b c : Option Bool) : max (max a b) c = max a (max b c) := by
  cases a <;> cases b <;> cases c <;> simp [Bool.max_eq_or, Bool.or_assoc]

/-- The name that an edit is about. -/
def Change.name : Change → String
  | declare name _ => name
  | remove name => name

/-- What the table answers for that name right after the edit. -/
def Change.answer : Change → Option Bool
  | declare _ writable => some writable
  | remove _ => none

/-- The writability that the entries give a name. -/
def flags (entries : GlobalSet) (name : String) :
    List Bool := (entries.filter (·.1 = name)).map (·.2)

/-- What the entries say of a name: nothing if none has it, otherwise whether one of them makes it
writable. -/
def granted (entries : GlobalSet) (name : String) : Option Bool :=
  if (flags entries name).isEmpty then none else some ((flags entries name).any id)

section Granted

variable {entries entries' : GlobalSet} {name : String}

/-- The flags of a name are those of its entries. -/
theorem mem_flags {writable : Bool} :
    writable ∈ flags entries name ↔ (name, writable) ∈ entries := by
  simp [flags]

/-- A name is writable if an entry says so. -/
theorem any_flags : (flags entries name).any id = true ↔ (name, true) ∈ entries := by
  rw [← mem_flags]
  simp

theorem granted_nil (name : String) : granted [] name = none := rfl

/-- Each entry raises the answer to what it says itself. -/
theorem granted_cons (entry : String × Bool) (rest : GlobalSet) (name : String) :
    granted (entry :: rest) name =
      max (if entry.1 = name then some entry.2 else none) (granted rest name) := by
  by_cases hName : entry.1 = name
  · have hFlags : flags (entry :: rest) name = entry.2 :: flags rest name := by simp [flags, hName]
    unfold granted
    rw [if_pos hName, hFlags]
    cases flags rest name with
    | nil => simp
    | cons flag others => simp [Bool.max_eq_or]
  · have hFlags : flags (entry :: rest) name = flags rest name := by simp [flags, hName]
    unfold granted
    rw [if_neg hName, hFlags]
    split <;> rfl

/-- Two sets grant the greater of their answers. -/
theorem granted_append (entries rest : GlobalSet) (name : String) :
    granted (entries ++ rest) name = max (granted entries name) (granted rest name) := by
  induction entries with
  | nil => rw [List.nil_append, granted_nil, Option.max_none_left]
  | cons entry others ih => rw [List.cons_append, granted_cons, granted_cons, ih, max_assoc_answer]

/-- What the entries add to an answer that was there before. -/
theorem max_granted (writable : Bool) (entries : GlobalSet) (name : String) :
    max (some writable) (granted entries name) =
      some (writable || (flags entries name).any id) := by
  unfold granted
  split
  · next h => simp [List.isEmpty_iff.mp h]
  · rfl

/-- Only which entries there are counts, not their order and not how often one of them stands
there. -/
theorem granted_congr (h : ∀ entry, entry ∈ entries ↔ entry ∈ entries') :
    granted entries name = granted entries' name := by
  have hMem (writable : Bool) : writable ∈ flags entries name ↔ writable ∈ flags entries' name := by
    rw [mem_flags, mem_flags, h]
  have hEmpty : (flags entries name).isEmpty = (flags entries' name).isEmpty := by
    rw [Bool.eq_iff_iff, List.isEmpty_iff, List.isEmpty_iff, List.eq_nil_iff_forall_not_mem,
      List.eq_nil_iff_forall_not_mem]
    exact forall_congr' fun writable => not_congr (hMem writable)
  have hAny : (flags entries name).any id = (flags entries' name).any id := by
    rw [Bool.eq_iff_iff, any_flags, any_flags, h]
  unfold granted
  rw [hEmpty, hAny]

end Granted

/-! ## What a set and an edit do -/

namespace Table

variable (table : Table) (name : String)

/-- Adding removes nothing. -/
theorem removed_addName (entry : String × Bool) :
    (table.addName entry).removed = table.removed := by
  unfold addName
  split <;> rfl

/-- A name that is added answers with the greater flag, unless it was removed. -/
theorem lookup_addName (entry : String × Bool) : (table.addName entry).lookup name =
    if name ∈ table.removed then table.lookup name
    else max (table.lookup name) (if entry.1 = name then some entry.2 else none) := by
  unfold addName
  -- a removed name is not added, and any other is joined with what it had
  by_cases hRemoved : entry.1 ∈ table.removed
  · rw [if_pos (List.contains_iff_mem.mpr hRemoved)]
    by_cases hName : entry.1 = name
    · rw [if_pos (hName ▸ hRemoved)]
    · rw [if_neg hName]
      split
      · rfl
      · exact Option.max_none_right.symm
  · rw [if_neg fun h => hRemoved (List.contains_iff_mem.mp h)]
    dsimp only [lookup]
    rw [OrderedMap.get?_insert]
    by_cases hName : entry.1 = name
    · subst hName
      rw [if_pos rfl, if_neg hRemoved, if_pos rfl]
      cases table.entries.get? entry.1 <;> simp [Bool.max_eq_or]
    · rw [if_neg (Ne.symm hName), if_neg hName]
      split
      · rfl
      · exact Option.max_none_right.symm

theorem removed_addSet (set : GlobalSet) : (table.addSet set).removed = table.removed := by
  unfold addSet
  induction set generalizing table with
  | nil => rfl
  | cons entry rest ih => exact (ih _).trans (removed_addName table entry)

/-- A set raises the answer to what it grants, unless the name was removed. -/
theorem lookup_addSet (set : GlobalSet) : (table.addSet set).lookup name =
    if name ∈ table.removed then
      table.lookup name else max (table.lookup name) (granted set name) := by
  unfold addSet
  induction set generalizing table with
  | nil =>
    rw [granted_nil, Option.max_none_right, ite_self]
    rfl
  | cons entry rest ih =>
    rw [List.foldl_cons, ih, lookup_addName, removed_addName, granted_cons]
    split
    · rfl
    · exact max_assoc_answer ..

/-- An edit decides the answer for its own name. -/
theorem lookup_apply (change : Change) : (table.apply change).lookup name =
    if change.name = name then change.answer else table.lookup name := by
  cases change with
  | declare other writable =>
    simp only [apply, lookup, OrderedMap.get?_insert, eq_comm, Change.name, Change.answer]
  | remove other =>
    simp only [apply, lookup, OrderedMap.get?_erase, eq_comm, Change.name, Change.answer]

/-- An edit of a name decides whether the name counts as removed: exactly if it has no answer. -/
theorem mem_removed_apply (change : Change) : name ∈ (table.apply change).removed ↔
    if change.name = name then change.answer = none else name ∈ table.removed := by
  cases change with
  | declare other writable =>
    by_cases h : other = name <;> simp [apply, Change.name, Change.answer, h, eq_comm (a := name)]
  | remove other =>
    by_cases h : other = name <;> simp [apply, Change.name, Change.answer, h, eq_comm (a := name)]

end Table

/-! ## Runs -/

/-- What is done to a table. -/
inductive Step where
  | add (set : GlobalSet)
  | edit (change : Change)

/-- The table after a step. -/
def Table.perform (table : Table) : Step → Table
  | .add set => table.addSet set
  | .edit change => table.apply change

/-- The table after a run. -/
def Table.run (table : Table) (steps : List Step) : Table := steps.foldl Table.perform table

/-- Whether the step is an edit of the name. -/
def Step.edits (name : String) : Step → Bool
  | add _ => false
  | edit change => change.name = name

/-- The entries that the sets of a run bring. -/
def added (steps : List Step) : GlobalSet :=
  steps.flatMap fun
    | .add set => set
    | .edit _ => []

namespace Table

variable {table table' : Table} {name : String}

/-- Between two edits of a name the sets raise its answer, unless it was removed. By induction on
the steps. -/
theorem lookup_run {steps : List Step} (h : ∀ step ∈ steps, step.edits name = false) :
    (table.run steps).lookup name =
      if name ∈ table.removed then
        table.lookup name else max (table.lookup name) (granted (added steps) name) := by
  induction steps generalizing table with
  | nil =>
    have hAdded : added [] = [] := rfl
    rw [hAdded, granted_nil, Option.max_none_right, ite_self]
    rfl
  | cons step rest ih =>
    obtain ⟨hFirst, hRest⟩ := List.forall_mem_cons.mp h
    refine (ih hRest).trans ?_
    cases step with
    | add set =>
      have hAdded : added (.add set :: rest) = set ++ added rest := rfl
      rw [perform, lookup_addSet, removed_addSet, hAdded, granted_append]
      split
      · rfl
      · exact max_assoc_answer ..
    | edit change =>
      have hOther : change.name ≠ name := of_decide_eq_false hFirst
      have hRemoved := mem_removed_apply table name change
      rw [if_neg hOther] at hRemoved
      rw [perform, lookup_apply, if_neg hOther]
      simp only [hRemoved]
      rfl

/-- Two tables that answer alike for a name, and will do so whatever is added. -/
structure Agrees (name : String) (table table' : Table) : Prop where
  lookup : table'.lookup name = table.lookup name
  removed : name ∈ table'.removed ↔ name ∈ table.removed

/-- Tables that agree on a name agree after a step. -/
theorem Agrees.perform (h : Agrees name table table') (step : Step) :
    Agrees name (table.perform step) (table'.perform step) := by
  cases step with
  | add set =>
    constructor
    · simp only [Table.perform, lookup_addSet, h.lookup, h.removed]
    · simp only [Table.perform, removed_addSet, h.removed]
  | edit change =>
    constructor
    · simp only [Table.perform, lookup_apply, h.lookup]
    · simp only [Table.perform, mem_removed_apply, h.removed]

/-- And after many. -/
theorem Agrees.run (h : Agrees name table table') (steps : List Step) :
    Agrees name (table.run steps) (table'.run steps) := by
  induction steps generalizing table table' with
  | nil => exact h
  | cons step rest ih => exact ih (h.perform step)

/-- Sets count by what they hold: not by their order, and not by how often one of them is added. -/
theorem agrees_sets (table : Table) {sets sets' : List GlobalSet}
    (h : ∀ set, set ∈ sets ↔ set ∈ sets') :
    Agrees name (table.run (sets.map .add)) (table.run (sets'.map .add)) := by
  have hUnedited (sets : List GlobalSet) : ∀ step ∈ sets.map Step.add, step.edits name = false := by
    simp [Step.edits]
  have hRemoved (sets : List GlobalSet) (table : Table) :
      (table.run (sets.map .add)).removed = table.removed := by
    induction sets generalizing table with
    | nil => rfl
    | cons set rest ih => exact (ih _).trans (removed_addSet table set)
  have hEntries : ∀ entry, entry ∈ added (sets'.map .add) ↔ entry ∈ added (sets.map .add) := by
    simp [added, List.mem_flatMap, h]
  constructor
  · rw [lookup_run (hUnedited sets), lookup_run (hUnedited sets'), granted_congr hEntries]
  · rw [hRemoved, hRemoved]

end Table

/-- How the table answers for a name after a run that starts with the built-ins of the language. -/
structure Settled (steps : List Step) (name : String) : Prop where
  /-- Without an edit of the name the sets decide. -/
  unedited : (∀ step ∈ steps, step.edits name = false) →
    (Table.standard.run steps).lookup name = granted (languageSet ++ added steps) name
  /-- A name that was removed last has no answer, whatever sets were added since. -/
  removed : ∀ before later, steps = before ++ .edit (.remove name) :: later →
    (∀ step ∈ later, step.edits name = false) → (Table.standard.run steps).lookup name = none
  /-- A name that was declared last is writable if the declaration or a set that was added since
  says so. -/
  declared : ∀ before writable later, steps = before ++ .edit (.declare name writable) :: later →
    (∀ step ∈ later, step.edits name = false) →
    (Table.standard.run steps).lookup name = some (writable || (flags (added later) name).any id)
  /-- So a declaration is overruled exactly if it says read-only and a set that was added since says
  writable. -/
  overruled : ∀ before writable later, steps = before ++ .edit (.declare name writable) :: later →
    (∀ step ∈ later, step.edits name = false) →
    ((Table.standard.run steps).lookup name ≠ some writable ↔ writable = false ∧
    (name, true) ∈ added later)
  /-- Sets that are added one after the other can be added in any order and any number of times. -/
  order : ∀ before (sets sets' : List GlobalSet) later, steps = before ++ sets.map .add ++ later →
    (∀ set, set ∈ sets ↔ set ∈ sets') →
    (Table.standard.run (before ++ sets'.map .add ++ later)).lookup name =
    (Table.standard.run steps).lookup name

/-- The last edit of a name and the sets added since decide what the table answers for it. -/
theorem lookup_settled (steps : List Step) (name : String) : Settled steps name := by
  have hRun (table : Table) (before later : List Step) :
      table.run (before ++ later) = (table.run before).run later := List.foldl_append
  -- a declaration takes the name back, and later sets may only make it writable
  have hDeclared (before : List Step) (writable : Bool) (later : List Step)
      (h : steps = before ++ .edit (.declare name writable) :: later)
      (hLater : ∀ step ∈ later, step.edits name = false) :
      (Table.standard.run steps).lookup name =
        some (writable || (flags (added later) name).any id) := by
    have hAnswer :=
      (Table.lookup_apply (Table.standard.run before) name (.declare name writable)).trans
        (if_pos rfl)
    have hKept : name ∉ ((Table.standard.run before).apply (.declare name writable)).removed := by
      simp [Table.mem_removed_apply, Change.name, Change.answer]
    rw [h, hRun]
    refine (Table.lookup_run hLater).trans ?_
    rw [Table.perform, if_neg hKept, hAnswer]
    exact max_granted ..
  refine ⟨fun h => ?_, fun before later h hLater => ?_, hDeclared,
    fun before writable later h hLater => ?_, fun before sets sets' later h hSame => ?_⟩
  -- the table starts with the names of the language, and nothing removed
  · have hRemoved : name ∉ Table.standard.removed := by simp [Table.standard, Table.removed_addSet]
    have hBuiltIn : Table.standard.lookup name = granted languageSet name := by
      have hEmpty : ({} : Table).lookup name = none := rfl
      rw [Table.standard, Table.lookup_addSet, if_neg List.not_mem_nil, hEmpty,
        Option.max_none_left]
    rw [Table.lookup_run h, if_neg hRemoved, hBuiltIn, granted_append]
  · have hAnswer :=
      (Table.lookup_apply (Table.standard.run before) name (.remove name)).trans (if_pos rfl)
    have hRemoved : name ∈ ((Table.standard.run before).apply (.remove name)).removed := by
      simp [Table.mem_removed_apply, Change.name, Change.answer]
    rw [h, hRun]
    refine (Table.lookup_run hLater).trans ?_
    rw [Table.perform, if_pos hRemoved, hAnswer]
    rfl
  · rw [hDeclared before writable later h hLater, ← any_flags]
    cases writable <;> simp
  · rw [h, hRun, hRun, hRun Table.standard, hRun Table.standard]
    exact ((Table.agrees_sets _ hSame).run later).lookup

end ScriptLint.Predefined
