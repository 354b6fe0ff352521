import ScriptLint.OrderedMap

/-!
# What the operations on ordered maps do to values and keys

- `get?_insert`, `get?_insertIfNew`, `get?_modify`, `get?_erase`: the value of a key afterwards.
- `keys_insert`: the order of the keys afterwards.
- `mem_entries_iff`: the entries of a map without double keys are its values.
- `entries_eq_map_keys`: a map without double keys is determined by its keys and their values.
- `update_comm`, `update_insert`: changes of different keys do not depend on their order.
-/

namespace ScriptLint.OrderedMap

variable {κ ν : Type} [DecidableEq κ] (m : OrderedMap κ ν)

/-- A map contains its keys. -/
theorem contains_eq_true_iff (key : κ) : m.contains key = true ↔ key ∈ m.keys := by
  obtain ⟨entries⟩ := m
  show (entries.lookup key).isSome = true ↔ key ∈ entries.map Prod.fst
  induction entries with
  | nil => simp
  | cons entry rest ih =>
    rw [List.lookup_cons, List.map_cons, List.mem_cons]
    by_cases h : key = entry.1
    · simp [h]
    · rw [beq_false_of_ne h, or_iff_right h]
      exact ih

/-- And nothing else. -/
theorem get?_eq_none_iff (key : κ) : m.get? key = none ↔ key ∉ m.keys := by
  rw [← contains_eq_true_iff, contains]
  cases m.get? key <;> simp

/-- Only the value at the key is modified. -/
theorem get?_modify (key key' : κ) (f : ν → ν) :
    (m.modify key f).get? key' = if key' = key then (m.get? key).map f else m.get? key' := by
  obtain ⟨entries⟩ := m
  show (entries.map _).lookup key' = if key' = key then
    (entries.lookup key).map f else entries.lookup key'
  -- by induction on the entries, asking for each whether it is at `key`, and `key` at `key'`
  induction entries with
  | nil => simp
  | cons entry rest ih =>
    rw [List.map_cons, List.lookup_cons, List.lookup_cons, List.lookup_cons, ih]
    by_cases hEntry : entry.1 = key
    · rw [if_pos hEntry, hEntry, beq_self_eq_true]
      by_cases hKey : key' = key
      · rw [if_pos hKey, if_pos hKey, hKey, beq_self_eq_true]
        rfl
      · rw [if_neg hKey, if_neg hKey, beq_false_of_ne hKey]
    · rw [if_neg hEntry, beq_false_of_ne (Ne.symm hEntry)]
      by_cases hKey : key' = key
      · rw [if_pos hKey, if_pos hKey, hKey, beq_false_of_ne (Ne.symm hEntry)]
      · rw [if_neg hKey, if_neg hKey]

/-- Only the value at the key is erased. -/
theorem get?_erase (key key' : κ) :
    (m.erase key).get? key' = if key' = key then none else m.get? key' := by
  obtain ⟨entries⟩ := m
  show (entries.filter _).lookup key' = if key' = key then none else entries.lookup key'
  -- by induction on the entries: those at `key` are gone
  induction entries with
  | nil => simp
  | cons entry rest ih =>
    rw [List.filter_cons, List.lookup_cons]
    by_cases hEntry : entry.1 = key
    · rw [if_neg (by simpa using hEntry), ih, hEntry]
      by_cases hKey : key' = key
      · rw [if_pos hKey, if_pos hKey]
      · rw [if_neg hKey, if_neg hKey, beq_false_of_ne hKey]
    · rw [if_pos (by simpa using hEntry), List.lookup_cons, ih]
      by_cases hKey : key' = key
      · rw [if_pos hKey, if_pos hKey, hKey, beq_false_of_ne (Ne.symm hEntry)]
      · rw [if_neg hKey, if_neg hKey]

/-- Only the value at the key is set. -/
theorem get?_insert (key key' : κ) (value : ν) :
    (m.insert key value).get? key' = if key' = key then some value else m.get? key' := by
  unfold insert
  split
  · next h =>
    obtain ⟨old, hOld⟩ := Option.isSome_iff_exists.mp h
    rw [get?_modify, hOld]
    rfl
  · next h =>
    have hNone : m.get? key = none := by simpa [contains] using h
    show (m.entries ++ [(key, value)]).lookup key' = _
    rw [List.lookup_append]
    show (m.get? key').or _ = _
    by_cases hKey : key' = key
    · rw [if_pos hKey, hKey, hNone]
      simp
    · rw [if_neg hKey]
      rw [List.lookup_cons, beq_false_of_ne hKey]
      exact Option.or_none

/-- An old value is kept. -/
theorem get?_insertIfNew (key key' : κ) (value : ν) :
    (m.insertIfNew key value).get? key' = if key' = key then
    some ((m.get? key).getD value) else m.get? key' := by
  unfold insertIfNew
  split
  · next h =>
    obtain ⟨old, hOld⟩ := Option.isSome_iff_exists.mp h
    split
    · next hKey => rw [hKey, hOld, Option.getD_some]
    · rfl
  · next h =>
    have hNone : m.get? key = none := by simpa [contains] using h
    rw [hNone, Option.getD_none, ← get?_insert, insert, if_neg h]

/-- A new key comes last, an old one keeps its place. -/
theorem keys_insert (key : κ) (value : ν) :
    (m.insert key value).keys = if key ∈ m.keys then m.keys else m.keys ++ [key] := by
  unfold insert
  simp only [contains_eq_true_iff]
  split
  · exact keys_modify ..
  · simp [keys]

/-- Keys stay distinct. -/
theorem nodup_keys_insert (key : κ) (value : ν) (h : m.keys.Nodup) :
    (m.insert key value).keys.Nodup := by
  rw [keys_insert]
  split
  · exact h
  · next hNew => grind [List.nodup_append]

theorem nodup_keys_insertIfNew (key : κ) (value : ν) (h : m.keys.Nodup) :
    (m.insertIfNew key value).keys.Nodup := by
  have hInsert := m.nodup_keys_insert key value h
  unfold insertIfNew
  split
  · exact h
  · next hNew => rwa [insert, if_neg hNew] at hInsert

/-- With distinct keys the entries are the values that are found. -/
theorem mem_entries_iff (h : m.keys.Nodup) (key : κ) (value : ν) :
    (key, value) ∈ m.entries ↔ m.get? key = some value := by
  obtain ⟨entries⟩ := m
  show (key, value) ∈ entries ↔ entries.lookup key = some value
  -- by induction on the entries: what is first at a key is all there is at it
  induction entries with
  | nil => simp
  | cons entry rest ih =>
    obtain ⟨hNew, hRest⟩ := List.nodup_cons.mp h
    rw [List.mem_cons, List.lookup_cons, ih hRest]
    by_cases hKey : key = entry.1
    · have hAbsent : rest.lookup key ≠ some value := fun hSome =>
        hNew (hKey ▸ List.mem_map_of_mem ((ih hRest).2 hSome))
      rw [or_iff_left hAbsent, hKey, beq_self_eq_true]
      exact ⟨fun hEq => hEq ▸ rfl, fun hEq => by rw [← Option.some.inj hEq]⟩
    · have hOther : (key, value) ≠ entry := fun hEq => hKey (hEq ▸ rfl)
      rw [or_iff_right hOther, beq_false_of_ne hKey]

/-- A map without double keys is determined by its keys and their values. -/
theorem entries_eq_map_keys (default : ν) (h : m.keys.Nodup) :
    m.entries = m.keys.map fun key => (key, (m.get? key).getD default) := by
  obtain ⟨entries⟩ := m
  show entries = (entries.map Prod.fst).map fun key => (key, (entries.lookup key).getD default)
  induction entries with
  | nil => rfl
  | cons entry rest ih =>
    obtain ⟨hNew, hRest⟩ := List.nodup_cons.mp h
    have hTail :
        (rest.map Prod.fst).map (fun key => (key, ((entry :: rest).lookup key).getD default)) =
        (rest.map Prod.fst).map fun key => (key, (rest.lookup key).getD default) := by
      refine List.map_congr_left fun key hKey => ?_
      have hOther : key ≠ entry.1 := fun hSame => hNew (hSame ▸ hKey)
      rw [List.lookup_cons, beq_false_of_ne hOther]
    rw [List.map_cons, List.map_cons, hTail, ← ih hRest, List.lookup_cons_self]
    rfl

/-! ## Changes of different keys -/

/-- Changes the value of a key that is present, or removes it. -/
def update (m : OrderedMap κ ν) (key : κ) (f : ν → Option ν) : OrderedMap κ ν :=
  ⟨m.entries.filterMap fun entry => if entry.1 =
    key then (f entry.2).map (entry.1, ·) else some entry⟩

/-- Erasing updates to nothing. -/
theorem erase_eq_update (key : κ) : m.erase key = m.update key fun _ => none := by
  unfold erase update
  rw [← List.filterMap_eq_filter]
  congr 2
  funext entry
  by_cases h : entry.1 = key <;> simp [h, Option.guard]

theorem modify_eq_update (key : κ) (f : ν → ν) :
    m.modify key f = m.update key fun v => some (f v) := by
  unfold modify update
  rw [← List.filterMap_eq_map]
  congr 2
  funext entry
  by_cases h : entry.1 = key <;> simp [h]

/-- Changes of two keys do not depend on their order. -/
theorem update_comm {key key' : κ} (h : key ≠ key') (f g : ν → Option ν) :
    (m.update key f).update key' g = (m.update key' g).update key f := by
  unfold update
  simp only [List.filterMap_filterMap]
  congr 2
  funext entry
  by_cases hKey : entry.1 = key
  · have hOther : entry.1 ≠ key' := fun hSame => h (hKey.symm.trans hSame)
    cases hValue : f entry.2 <;> simp [hKey, h, hValue]
  · by_cases hOther : entry.1 = key'
    · cases hValue : g entry.2 <;> simp [hOther, Ne.symm h, hValue]
    · simp [hKey, hOther]

/-- Other keys are not updated. -/
theorem get?_update (key : κ) (f : ν → Option ν) {key' : κ} (h : key' ≠ key) :
    (m.update key f).get? key' = m.get? key' := by
  obtain ⟨entries⟩ := m
  show (entries.filterMap _).lookup key' = entries.lookup key'
  -- by induction on the entries: one at `key` was not looked for
  induction entries with
  | nil => rfl
  | cons entry rest ih =>
    rw [List.filterMap_cons, List.lookup_cons]
    by_cases hKey : entry.1 = key
    · rw [hKey, beq_false_of_ne h, if_pos rfl]
      cases f entry.2 with
      | none => exact ih
      | some value =>
        dsimp only [Option.map_some]
        rw [List.lookup_cons, beq_false_of_ne h]
        exact ih
    · rw [if_neg hKey]
      dsimp only
      rw [List.lookup_cons, ih]

/-- An update and an insertion at different keys commute. -/
theorem update_insert {key key' : κ} (h : key' ≠ key) (f : ν → Option ν) (value : ν) :
    (m.insert key' value).update key f = (m.update key f).insert key' value := by
  have hContains : (m.update key f).contains key' = m.contains key' := by
    rw [contains, contains, get?_update m key f h]
  unfold insert
  rw [hContains]
  split
  · rw [modify_eq_update, modify_eq_update, update_comm _ h]
  · simp [update, h]

/-- What a key had before does not matter to a change that does not look at it. -/
theorem update_const_modify (key : κ) (f : ν → ν) (kept : Option ν) :
    (m.modify key f).update key (fun _ => kept) = m.update key fun _ => kept := by
  rw [modify_eq_update]
  unfold update
  rw [List.filterMap_filterMap]
  congr 2
  funext entry
  by_cases hKey : entry.1 = key <;> simp [hKey]

/-- What is replaced anyway may be set before. -/
theorem update_const_insert (key : κ) (value : ν) (kept : Option ν) (h : m.get? key ≠ none) :
    (m.insert key value).update key (fun _ => kept) = m.update key fun _ => kept := by
  have hContains : m.contains key = true := Option.isSome_iff_ne_none.mpr h
  rw [insert, if_pos hContains, update_const_modify]

theorem erase_insert (key : κ) (value : ν) : (m.insert key value).erase key = m.erase key := by
  rw [erase_eq_update, erase_eq_update]
  by_cases h : m.get? key = none
  · rw [insert, if_neg (by simp [contains, h])]
    simp [update]
  · exact m.update_const_insert key value none h

theorem erase_modify (key : κ) (f : ν → ν) : (m.modify key f).erase key = m.erase key := by
  rw [erase_eq_update, erase_eq_update, update_const_modify]

theorem insert_erase_of_ne {key key' : κ} (h : key' ≠ key) (value : ν) :
    (m.insert key' value).erase key = (m.erase key).insert key' value := by
  rw [erase_eq_update, erase_eq_update, update_insert _ h]

theorem modify_erase_of_ne {key key' : κ} (h : key' ≠ key) (f : ν → ν) :
    (m.modify key' f).erase key = (m.erase key).modify key' f := by
  simp only [erase_eq_update, modify_eq_update]
  exact m.update_comm h _ _

theorem erase_erase_of_ne {key key' : κ} (h : key' ≠ key) :
    (m.erase key').erase key = (m.erase key).erase key' := by
  simp only [erase_eq_update]
  exact m.update_comm h _ _

/-- What is not there needs no erasing. -/
theorem erase_of_get?_eq_none {key : κ} (h : m.get? key = none) : m.erase key = m := by
  have hAbsent := (m.get?_eq_none_iff key).mp h
  unfold erase
  congr 1
  refine List.filter_eq_self.mpr fun entry hEntry => decide_eq_true ?_
  exact fun hSame => hAbsent (hSame ▸ List.mem_map_of_mem hEntry)

end ScriptLint.OrderedMap
