import ScriptLint.Config
import ScriptLint.Proofs.Directives.Settings

/-!
# What overrides do to a configuration

An override is split into a key and a text, and the text is read by what the key names. One that is
refused leaves the configuration as it was, so that a configuration made from overrides holds for
every key what the last accepted text gives it. Such options are never rejected by a run.

- `Config.splitOverride`, `Config.override_eq`: an override in two steps.
- `Config.attempt`: trying an override, accepted or not.
- `Config.lastAccepted`: the text of the last accepted override of a key.
- `Config.get?_attempts`: every key has the value of that text.
- `Setting.validate_of_read`: what is read passes the check of typed values.
- `Config.valid_attempts`, `Config.resolve_attempts`, `Config.mem_ignoredCodes_attempts`: what a run
  makes of the options.
-/

namespace ScriptLint

open Setting

/-! ## Values that are read -/

/-- One case for each kind of value. -/
theorem Setting.validate_of_read {s : Setting} {text : String} {value : Value}
    (h : s.read text = .ok value) : s.validate value = .ok () := by
  unfold read at h
  unfold validate
  -- by the kind of the setting, in the order in which its texts are tried
  cases hKind : s.kind with
  | flag =>
    simp only [hKind] at h
    split at h
    · cases h
      rfl
    · split at h
      · cases h
        rfl
      · cases h
  | limit =>
    simp only [hKind] at h
    split at h
    · cases h
      rfl
    · split at h
      · split at h
        · next hPositive =>
          cases h
          exact if_pos hPositive
        · cases h
      · cases h
  | graded levels =>
    simp only [hKind] at h
    split at h
    · cases h
      rfl
    · split at h
      · cases h
        rfl
      · split at h
        · next hLevel =>
          cases h
          exact if_pos hLevel
        · cases h

namespace Config

variable {config : Config} {raw key text : String} {value : Value} {raws : List String}

/-! ## Single overrides -/

/-- The key and the text of the value, if the override has both. -/
def splitOverride (raw : String) : Option (String × String) :=
  let key := Text.trimText (String.ofList (raw.toList.takeWhile (· ≠ '=')))
  match raw.toList.dropWhile (· ≠ '=') with
  | [] => none
  | _ :: rest => if key.isEmpty then none else some (key, Text.trimText (String.ofList rest))

theorem override_eq (config : Config) (raw : String) : config.override raw =
    match splitOverride raw with
    | none => .error (.notKeyValue raw)
    | some (key, text) =>
      match overrideValue key text with
      | .ok value => .ok { config with options := config.options.insert key value }
      | .error problem => .error (.badOption raw problem) := by
  unfold override splitOverride
  dsimp only
  cases raw.toList.dropWhile (· ≠ '=') with
  | nil => rfl
  | cons _ rest =>
    dsimp only
    generalize Text.trimText (String.ofList (raw.toList.takeWhile (· ≠ '='))) = key
    generalize Text.trimText (String.ofList rest) = text
    cases key.isEmpty <;> rfl

/-- The configuration after an override was tried. -/
def attempt (config : Config) (raw : String) : Config :=
  match config.override raw with
  | .ok changed => changed
  | .error _ => config

/-- The key and the text of an override that is accepted. -/
def accepted? (raw : String) : Option (String × String) :=
  (splitOverride raw).filter fun (key, text) => (overrideValue key text).isOk

/-- An accepted override has a value. -/
theorem overrideValue_of_accepted (h : accepted? raw = some (key, text)) :
    ∃ value, overrideValue key text = .ok value := by
  have hOk := (Option.filter_eq_some_iff.mp h).2
  cases hValue : overrideValue key text with
  | ok value => exact ⟨value, rfl⟩
  | error problem =>
    simp only [hValue] at hOk
    cases hOk

/-- The value is written under the key. -/
theorem override_of_accepted (h : accepted? raw = some (key, text))
    (hValue : overrideValue key text = .ok value) (config : Config) :
    config.override raw = .ok { config with options := config.options.insert key value } := by
  rw [override_eq, (Option.filter_eq_some_iff.mp h).1]
  dsimp only
  rw [hValue]

/-- So an accepted attempt changes the options in one place. -/
theorem attempt_of_accepted (h : accepted? raw = some (key, text))
    (hValue : overrideValue key text = .ok value)
    (config : Config) :
    config.attempt raw = { config with options := config.options.insert key value } := by
  rw [attempt, override_of_accepted h hValue]

/-- Whether an override is accepted does not depend on the configuration. -/
theorem attempt_of_refused (h : accepted? raw = none) (config : Config) :
    config.attempt raw = config := by
  rw [attempt, override_eq]
  cases hSplit : splitOverride raw with
  | none => rfl
  | some pair =>
    obtain ⟨key, text⟩ := pair
    rw [accepted?, hSplit, Option.filter_some] at h
    cases hValue : overrideValue key text with
    | ok value => simp [hValue, Except.isOk, Except.toBool] at h
    | error problem =>
      dsimp only
      rw [hValue]

/-! ## Sequences of overrides -/

/-- The configuration after each of the overrides was tried. -/
def attempts (config : Config) (raws : List String) : Config :=
  raws.foldl attempt config

/-- The attempts are made one after the other. -/
theorem attempts_cons (config : Config) (raw : String) (raws : List String) :
    config.attempts (raw :: raws) = (config.attempt raw).attempts raws :=
  rfl

/-- The text of the last accepted override of the key. -/
def lastAccepted (raws : List String) (key : String) : Option String :=
  ((raws.filterMap accepted?).filter (·.1 = key)).getLast?.map (·.2)

/-- The last accepted text for a key stands in one of the overrides. -/
theorem mem_of_lastAccepted (h : lastAccepted raws key = some text) :
    ∃ raw ∈ raws, accepted? raw = some (key, text) := by
  obtain ⟨⟨key', text'⟩, hLast, rfl⟩ := Option.map_eq_some_iff.mp h
  obtain ⟨hMem, hKey⟩ := List.mem_filter.mp (List.mem_of_getLast? hLast)
  obtain ⟨raw, hRaw, hAccepted⟩ := List.mem_filterMap.mp hMem
  exact ⟨raw, hRaw, of_decide_eq_true hKey ▸ hAccepted⟩

/-- A later override for the same key wins over the first one. -/
theorem lastAccepted_cons (raw : String) (raws : List String) (key : String) :
    lastAccepted (raw :: raws) key =
      (lastAccepted raws key).or (((accepted? raw).filter (·.1 = key)).map (·.2)) := by
  unfold lastAccepted
  cases hRaw : accepted? raw with
  | none =>
    rw [List.filterMap_cons_none hRaw]
    exact Option.or_none.symm
  | some pair =>
    rw [List.filterMap_cons_some hRaw, List.filter_cons, Option.filter_some]
    split
    · rw [List.getLast?_cons]
      cases ((raws.filterMap accepted?).filter (·.1 = key)).getLast? <;> rfl
    · exact Option.or_none.symm

/-- By induction on the overrides: every key has the value that the last accepted text gives it. -/
theorem get?_attempts (config : Config) (raws : List String) (key : String) :
    (config.attempts raws).options.get? key =
      ((lastAccepted raws key).bind fun text => (overrideValue key text).toOption).or
        (config.options.get? key) := by
  induction raws generalizing config with
  | nil => rfl
  | cons raw raws ih =>
    rw [attempts_cons, ih, lastAccepted_cons]
    cases hRaw : accepted? raw with
    | none =>
      rw [attempt_of_refused hRaw, Option.filter_none, Option.map_none, Option.or_none]
    | some pair =>
      obtain ⟨named, text⟩ := pair
      obtain ⟨value, hValue⟩ := overrideValue_of_accepted hRaw
      rw [attempt_of_accepted hRaw hValue, OrderedMap.get?_insert, Option.filter_some]
      by_cases hKey : key = named
      · rw [if_pos hKey, if_pos (decide_eq_true hKey.symm), hKey]
        cases hLast : lastAccepted raws named with
        | none => simp [hValue, Except.toOption]
        | some later =>
          obtain ⟨_, -, hAccepted⟩ := mem_of_lastAccepted hLast
          obtain ⟨value', hValue'⟩ := overrideValue_of_accepted hAccepted
          simp [hValue', Except.toOption]
      · rw [if_neg hKey, if_neg (by simpa using Ne.symm hKey), Option.map_none, Option.or_none]

/-- The configuration is made of the accepted overrides alone. -/
theorem overrideAll_accepted (config : Config) (raws : List String) :
    config.overrideAll (raws.filter fun raw => (accepted? raw).isSome) =
      .ok (config.attempts raws) := by
  induction raws generalizing config with
  | nil => rfl
  | cons raw raws ih =>
    rw [List.filter_cons, attempts_cons]
    cases hRaw : accepted? raw with
    | none =>
      rw [attempt_of_refused hRaw]
      exact ih config
    | some pair =>
      obtain ⟨value, hValue⟩ := overrideValue_of_accepted hRaw
      rw [Option.isSome_some, if_pos rfl, overrideAll, override_of_accepted hRaw hValue,
        attempt_of_accepted hRaw hValue]
      exact ih _

/-- No key is written twice. -/
theorem nodup_attempts (config : Config) (h : config.options.keys.Nodup) (raws : List String) :
    (config.attempts raws).options.keys.Nodup := by
  induction raws generalizing config with
  | nil => exact h
  | cons raw raws ih =>
    refine ih _ ?_
    cases hRaw : accepted? raw with
    | none =>
      rw [attempt_of_refused hRaw]
      exact h
    | some pair =>
      obtain ⟨value, hValue⟩ := overrideValue_of_accepted hRaw
      rw [attempt_of_accepted hRaw hValue]
      exact config.options.nodup_keys_insert _ _ h

/-! ## Options made from overrides -/

/-- What the options hold was read from an override. -/
theorem overrideValue_of_mem (h : (key, value) ∈ (attempts {} raws).options.entries) :
    ∃ text, lastAccepted raws key = some text ∧ overrideValue key text = .ok value := by
  rw [OrderedMap.mem_entries_iff _ (nodup_attempts {} List.nodup_nil raws), get?_attempts] at h
  cases hLast : lastAccepted raws key with
  | none =>
    rw [hLast] at h
    cases h
  | some text =>
    obtain ⟨_, -, hAccepted⟩ := mem_of_lastAccepted hLast
    obtain ⟨read, hRead⟩ := overrideValue_of_accepted hAccepted
    rw [hLast, Option.bind_some, hRead] at h
    obtain rfl := Option.some.inj h
    exact ⟨text, rfl, hRead⟩

/-- The value for the name of a setting is the one that the setting reads. -/
theorem overrideValue_name (s : Setting) (text : String) :
    overrideValue s.name text = s.read text := by
  rw [overrideValue, ignoredCode?_name, ofName?_name]
  rfl

/-- A value that was read is accepted once more when the options are read. -/
theorem readBase_step_of_overrideValue {acc : OrderedMap Setting Value × List Problem}
    (h : overrideValue key text = .ok value) :
    (Layers.readBase.step acc (key, value)).2 = acc.2 := by
  unfold overrideValue at h
  unfold Layers.readBase.step
  split at h
  · next hIgnored => rw [if_pos hIgnored]
  · next hIgnored =>
    rw [if_neg hIgnored]
    split at h
    · cases h
    · next s hNamed =>
      dsimp only
      rw [hNamed]
      dsimp only
      rw [validate_of_read h]

/-- Options that are made from overrides are valid. -/
theorem valid_attempts (raws : List String) : (attempts {} raws).options.Valid where
  nodup := nodup_attempts {} List.nodup_nil raws
  accepted := by
    have hAll (entries : List (String × Value)) (acc : OrderedMap Setting Value × List Problem)
        (h : ∀ entry ∈ entries, entry ∈ (attempts {} raws).options.entries) :
        (entries.foldl Layers.readBase.step acc).2 = acc.2 := by
      induction entries generalizing acc with
      | nil => rfl
      | cons entry rest ih =>
        obtain ⟨hFirst, hRest⟩ := List.forall_mem_cons.mp h
        obtain ⟨_, -, hRead⟩ := overrideValue_of_mem hFirst
        exact (ih _ hRest).trans (readBase_step_of_overrideValue hRead)
    exact hAll _ ({}, []) fun _ => id

/-- A setting that was overridden has the value that was read last. What is implied does not change
it. -/
theorem resolve_attempts {s : Setting} (h : lastAccepted raws s.name = some text) :
    s.read text = .ok ((Layers.ofOptions (attempts {} raws).options).1.resolve s) := by
  obtain ⟨_, -, hAccepted⟩ := mem_of_lastAccepted h
  obtain ⟨value, hValue⟩ := overrideValue_of_accepted hAccepted
  have hRead : s.read text = .ok value := overrideValue_name s text ▸ hValue
  have hBase : (Layers.readBase (attempts {} raws).options).1.get? s = some value := by
    rw [Layers.get?_base_ofOptions (valid_attempts raws), get?_attempts, h,
      Option.bind_some, hValue]
    rfl
  have hImplies := Layers.implies_ofOptions (attempts {} raws).options
  have hTop := hImplies.top s
  rw [hRead]
  refine congrArg Except.ok ?_
  unfold Layers.resolve Stack.toList
  rw [List.findSome?_cons, hImplies.below, hImplies.base, hBase]
  split at hTop
  · next hImplied =>
    -- `strict` is implied only where it was not switched off
    obtain ⟨rfl, hOn⟩ := hImplied
    obtain ⟨on, rfl⟩ := Layers.flag_of_validate (validate_of_read hRead)
    rw [hBase] at hOn
    obtain ⟨-, rfl⟩ := Bool.and_eq_true_iff.mp hOn
    rw [hTop]
  · rw [hTop]
    rfl

/-- The codes that are ignored are those whose key was switched on last. -/
theorem mem_ignoredCodes_attempts (raws : List String) (code : String) :
    code ∈ (attempts {} raws).options.ignoredCodes ↔
      ∃ key, ignoredCode? key = some code ∧ lastAccepted raws key = some "true" := by
  unfold Options.ignoredCodes
  rw [List.mem_filterMap]
  constructor
  · rintro ⟨⟨key, value⟩, hEntry, hCode⟩
    obtain ⟨hMem, hOn⟩ := List.mem_filter.mp hEntry
    obtain ⟨text, hLast, hRead⟩ := overrideValue_of_mem hMem
    refine ⟨key, hCode, ?_⟩
    rw [overrideValue, if_pos (Option.isSome_of_mem hCode)] at hRead
    split at hRead
    · next hTrue => rw [hLast, hTrue]
    · split at hRead
      · cases hRead
        cases hOn
      · cases hRead
  · rintro ⟨key, hCode, hLast⟩
    have hRead : overrideValue key "true" = .ok (.flag true) := by
      rw [overrideValue, if_pos (Option.isSome_of_mem hCode), if_pos rfl]
    refine ⟨(key, .flag true), List.mem_filter.mpr ⟨?_, rfl⟩, hCode⟩
    rw [OrderedMap.mem_entries_iff _ (nodup_attempts {} List.nodup_nil raws), get?_attempts, hLast,
      Option.bind_some, hRead]
    rfl

end Config

end ScriptLint
