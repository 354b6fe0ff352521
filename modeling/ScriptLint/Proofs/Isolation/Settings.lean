import Mathlib.Data.List.Forall2
import ScriptLint.Lint
import ScriptLint.Proofs.Grammar.Congruence
import ScriptLint.Proofs.OrderedMap

/-!
# Settings that differ in one place

Two runs whose options differ in one setting. What the setting implies may differ as well; every
other setting has the same value in both, in the base and in each overlay, and directives keep it
so.

- `Setting.affects`: the setting itself and what it implies.
- `Layers.Agree`: the same values layer by layer, but for the settings that are hidden.
- `Options.Valid`, `Options.DifferOnlyIn`: the options of the two runs.
- `agree_ofOptions`: such options give layers that agree.
-/

namespace ScriptLint

namespace Setting

/-- The settings that change with `p`: itself and the one that it implies. -/
def affects (p s : Setting) : Prop := s = p ∨ p.implied? = some s

/-- What affects a setting governs its codes. -/
theorem governs_subset_of_affects {p s : Setting} (h : p.affects s) : s.governs ⊆ p.governs := by
  rcases h with rfl | h
  · exact List.Subset.refl _
  · cases p <;> cases h
    exact List.subset_cons_self _ _

/-- A setting that decides about something affects only such settings. -/
theorem governs_ne_of_affects {p s : Setting} (hp : p.governs ≠ []) (h : p.affects s) :
    s.governs ≠ [] := by
  rcases h with rfl | h
  · exact hp
  · cases p <;> cases h
    exact List.cons_ne_nil _ _

/-! ## Names -/

/-- Every setting is found by its name. -/
theorem ofName?_name (s : Setting) : ofName? s.name = some s := by
  cases s <;> rfl

/-- And only by that. -/
theorem ofName?_eq_some {word : String} {s : Setting} (h : ofName? word = some s) :
    s.name = word := by
  have hFound := List.find?_some h
  exact eq_of_beq hFound

/-- No setting has the name of an ignored code. -/
theorem ignoredCode?_name (s : Setting) : ignoredCode? s.name = none := by
  cases s <;> rfl

/-! ## Layers -/

namespace Layers

variable {hides : Setting → Prop} {layers layers' : Layers}

/-- The same values in each layer, but for the settings that are hidden. -/
structure Agree (hides : Setting → Prop) (layers layers' : Layers) : Prop where
  base : ∀ s, ¬hides s → layers'.base.get? s = layers.base.get? s
  overlays : List.Forall₂ (fun o o' : Overlay => ∀ s, ¬hides s → o'.get? s = o.get? s)
    layers.overlays.toList layers'.overlays.toList

/-- By induction on the layers: the first of them that has a value is the same. -/
theorem findSome?_of_forall₂ {α β : Type} {f : α → Option β} {l l' : List α}
    (h : List.Forall₂ (fun a b => f b = f a) l l') : l'.findSome? f = l.findSome? f := by
  induction h with
  | nil => rfl
  | cons hHead _ ih => rw [List.findSome?_cons, List.findSome?_cons, hHead, ih]

/-- A written setting is found in the topmost overlay, the others as before. -/
theorem get?_top_write (layers : Layers) (s s' : Setting) (value : Value) (explicit : Bool) :
    (layers.write s value explicit).overlays.top.get? s' =
      if s' = s then some ⟨value, explicit⟩ else layers.overlays.top.get? s' :=
  OrderedMap.get?_insert ..

namespace Agree

/-- A setting that is not hidden resolves alike. -/
theorem resolve (h : Agree hides layers layers') {s : Setting} (hs : ¬hides s) :
    layers'.resolve s = layers.resolve s := by
  have hFound := findSome?_of_forall₂ (h.overlays.imp fun _ _ ho => ho s hs)
  unfold Layers.resolve
  rw [hFound, h.base s hs]

theorem enabled (h : Agree hides layers layers') {s : Setting} (hs : ¬hides s) :
    layers'.enabled s = layers.enabled s := by
  rw [Layers.enabled, Layers.enabled, h.resolve hs]

theorem limit? (h : Agree hides layers layers') {s : Setting} (hs : ¬hides s) :
    layers'.limit? s = layers.limit? s := by
  rw [Layers.limit?, Layers.limit?, h.resolve hs]

theorem explicitlyOff (h : Agree hides layers layers') {s : Setting} (hs : ¬hides s) :
    layers'.explicitlyOff s = layers.explicitlyOff s := by
  have hFound := findSome?_of_forall₂ (f := fun o : Overlay => (o.get? s).filter (·.explicit))
    (h.overlays.imp fun o o' ho => congrArg (Option.filter _) (ho s hs))
  unfold Layers.explicitlyOff
  dsimp only
  rw [hFound, h.base s hs]

/-! ### Changes -/

/-- Agreement is symmetric. -/
theorem symm (h : Agree hides layers layers') : Agree hides layers' layers where
  base s hs := (h.base s hs).symm
  overlays := h.overlays.flip.imp fun _ _ ho s hs => (ho s hs).symm

theorem push (h : Agree hides layers layers') : Agree hides layers.push layers'.push :=
  ⟨h.base, .cons (fun _ _ => rfl) h.overlays⟩

theorem pop (h : Agree hides layers layers') : Agree hides layers.pop layers'.pop := by
  refine ⟨h.base, ?_⟩
  obtain ⟨base, top, below⟩ := layers
  obtain ⟨base', top', below'⟩ := layers'
  obtain ⟨hTop, hBelow⟩ := List.forall₂_cons.1 h.overlays
  cases hBelow with
  | nil => exact .cons hTop .nil
  | cons hNext hRest => exact .cons hNext hRest

/-- Both layers write the value. -/
theorem write (h : Agree hides layers layers') (s : Setting) (value : Value) (explicit : Bool) :
    Agree hides (layers.write s value explicit) (layers'.write s value explicit) := by
  obtain ⟨hTop, hBelow⟩ := List.forall₂_cons.1 h.overlays
  refine ⟨h.base, .cons (fun s' hs' => ?_) hBelow⟩
  rw [get?_top_write, get?_top_write, hTop s' hs']

/-- A hidden setting may be written on one side only. -/
theorem write_hidden (h : Agree hides layers layers') {s : Setting} (hs : hides s) (value : Value)
    (explicit : Bool) : Agree hides layers (layers'.write s value explicit) := by
  obtain ⟨hTop, hBelow⟩ := List.forall₂_cons.1 h.overlays
  refine ⟨h.base, .cons (fun s' hs' => ?_) hBelow⟩
  have hOther : s' ≠ s := fun hSame => hs' (hSame ▸ hs)
  rw [get?_top_write, if_neg hOther, hTop s' hs']

/-- A setting is implied in both layers, or a hidden one in either. -/
theorem applyImplied (h : Agree hides layers layers') (trigger : Setting) :
    Agree hides (layers.applyImplied trigger) (layers'.applyImplied trigger) := by
  unfold Layers.applyImplied
  cases trigger.implied? with
  | none => exact h
  | some s =>
    -- a hidden setting may be explicitly off in one of the layers only
    by_cases hs : hides s
    · dsimp only
      split <;> split
      · exact h
      · exact h.write_hidden hs _ _
      · exact (h.symm.write_hidden hs _ _).symm
      · exact h.write s _ _
    · dsimp only
      rw [h.explicitlyOff hs]
      split
      · exact h
      · exact h.write s _ _

/-- A directive is refused on both sides or changes both in the same way. -/
theorem set (h : Agree hides layers layers') (s : Setting) (value : Value) (atGlobal : Bool) :
    (∃ problem, layers.set s value atGlobal = .error problem ∧
      layers'.set s value atGlobal = .error problem) ∨
    ∃ changed changed', layers.set s value atGlobal = .ok changed ∧
      layers'.set s value atGlobal = .ok changed' ∧ Agree hides changed changed' := by
  unfold Layers.set
  cases s.validate value with
  | error problem => exact .inl ⟨problem, rfl, rfl⟩
  | ok u =>
    dsimp only
    split
    · exact .inl ⟨_, rfl, rfl⟩
    · refine .inr ⟨_, _, rfl, rfl, ?_⟩
      split
      · exact (h.write s value true).applyImplied s
      · exact h.write s value true

end Agree

end Layers

end Setting

/-! ## Options -/

namespace Options

open Setting

/-- Options without a double or a rejected entry. -/
structure Valid (options : Options) : Prop where
  nodup : options.keys.Nodup
  accepted : (Layers.ofOptions options).2 = []

/-- The options give every name the same value, but for the name of the setting. -/
def DifferOnlyIn (p : Setting) (options options' : Options) : Prop :=
  ∀ name, name ≠ p.name → options'.get? name = options.get? name

variable {options options' : Options} {p : Setting}

/-- An ignored code is one whose option is on. -/
theorem mem_ignoredCodes (h : options.keys.Nodup) (code : String) : code ∈ options.ignoredCodes ↔
    ∃ name value, options.get? name = some value ∧ value.isOn ∧ ignoredCode? name = some code := by
  simp only [ignoredCodes, List.mem_filterMap, List.mem_filter, Prod.exists,
    options.mem_entries_iff h, and_assoc]

/-- The same codes are ignored, since no setting has the name of such a key. -/
theorem DifferOnlyIn.ignoredCodes (h : DifferOnlyIn p options options')
    (hNodup : options.keys.Nodup) (hNodup' : options'.keys.Nodup) (code : String) :
    code ∈ options'.ignoredCodes ↔ code ∈ options.ignoredCodes := by
  rw [mem_ignoredCodes hNodup, mem_ignoredCodes hNodup']
  refine exists_congr fun name => exists_congr fun value => ?_
  by_cases hName : name = p.name
  · simp [hName, ignoredCode?_name]
  · rw [h name hName]

end Options

namespace Setting.Layers

/-! ### From options -/

/-- One accepted entry gives its setting its value. -/
theorem readBase_step {acc : OrderedMap Setting Value × List Problem} {entry : String × Value}
    (h : (readBase.step acc entry).2 = []) : acc.2 = [] ∧
    ∀ s : Setting, (readBase.step acc entry).1.get? s =
      if s.name = entry.1 then some entry.2 else acc.1.get? s := by
  have hRefused {problem : Problem} : acc.2 ++ [problem] ≠ [] :=
    List.append_ne_nil_of_right_ne_nil _ (List.cons_ne_nil _ _)
  unfold readBase.step at h ⊢
  -- an option names an ignored code, a setting, or nothing known
  split at h
  · next hIgnored =>
    rw [if_pos hIgnored]
    refine ⟨h, fun s => (if_neg fun hName => ?_).symm⟩
    rw [← hName, ignoredCode?_name] at hIgnored
    cases hIgnored
  · next hIgnored =>
    rw [if_neg hIgnored]
    cases hNamed : ofName? entry.1 with
    | none =>
      rw [hNamed] at h
      exact absurd h hRefused
    | some named =>
      rw [hNamed] at h
      dsimp only at h ⊢
      cases hValid : named.validate entry.2 with
      | error problem =>
        rw [hValid] at h
        exact absurd h hRefused
      | ok u =>
        rw [hValid] at h
        refine ⟨h, fun s => ?_⟩
        have hSame : s = named ↔ s.name = entry.1 := by
          refine ⟨fun hEq => hEq ▸ ofName?_eq_some hNamed, fun hName => ?_⟩
          rw [← hName, ofName?_name] at hNamed
          exact Option.some.inj hNamed
        show (acc.1.insert named entry.2).get? s = _
        rw [OrderedMap.get?_insert]
        simp only [hSame]

/-- No setting is read twice. -/
theorem nodup_readBase_step {acc : OrderedMap Setting Value × List Problem} (h : acc.1.keys.Nodup)
    (entry : String × Value) : (readBase.step acc entry).1.keys.Nodup := by
  unfold readBase.step
  split
  · exact h
  · split
    · exact h
    · split
      · exact acc.1.nodup_keys_insert _ _ h
      · exact h

/-- By induction on the entries: each setting has the value of its name. -/
theorem readBase_entries {entries : List (String × Value)} (hEntries : (entries.map Prod.fst).Nodup)
    {acc : OrderedMap Setting Value × List Problem} (h : (entries.foldl readBase.step acc).2 = []) :
    acc.2 = [] ∧ ∀ s : Setting, (entries.foldl readBase.step acc).1.get? s =
      (entries.lookup s.name).or (acc.1.get? s) := by
  induction entries generalizing acc with
  | nil => exact ⟨h, fun s => rfl⟩
  | cons entry rest ih =>
    obtain ⟨hNew, hRest⟩ := List.nodup_cons.mp hEntries
    obtain ⟨hProblems, hValues⟩ := ih hRest h
    obtain ⟨hNone, hValue⟩ := readBase_step hProblems
    refine ⟨hNone, fun s => ?_⟩
    rw [List.foldl_cons, hValues s, hValue s, List.lookup_cons]
    by_cases hName : s.name = entry.1
    · have hAbsent : rest.lookup s.name = none := by
        rw [List.lookup_eq_none_iff]
        intro other hOther
        rw [bne_iff_ne, hName]
        exact fun hSame => hNew (hSame ▸ List.mem_map_of_mem hOther)
      rw [if_pos hName, hAbsent, hName, beq_self_eq_true]
      rfl
    · rw [if_neg hName, beq_false_of_ne hName]

variable {options options' : Options} {p : Setting}

/-- The settings read are those of the options. -/
theorem get?_base_ofOptions (h : options.Valid) (s : Setting) :
    (readBase options).1.get? s = options.get? s.name := by
  have hNone : (options.entries.foldl readBase.step ({}, [])).2 = [] := h.accepted
  exact ((readBase_entries h.nodup hNone).2 s).trans Option.or_none

/-- By induction on the entries. -/
theorem nodup_base (options : Options) : (readBase options).1.keys.Nodup := by
  have hAll (entries : List (String × Value)) (acc : OrderedMap Setting Value × List Problem)
      (h : acc.1.keys.Nodup) : (entries.foldl readBase.step acc).1.keys.Nodup := by
    induction entries generalizing acc with
    | nil => exact h
    | cons entry rest ih => exact ih _ (nodup_readBase_step h entry)
  exact hAll _ _ List.nodup_nil

/-- Over a base, the overlay holds nothing but `strict`, and that only if it was implied. -/
structure Implies (base : OrderedMap Setting Value) (implied : Bool) (layers : Layers) : Prop where
  base : layers.base = base
  below : layers.overlays.below = []
  top : ∀ s, layers.overlays.top.get? s = if s = .strict ∧ implied then
    some ⟨.flag true, false⟩ else none

theorem Implies.explicitlyOff {base : OrderedMap Setting Value} {implied : Bool} {layers : Layers}
    (h : Implies base implied layers) :
    layers.explicitlyOff .strict = !(base.get? .strict).all Value.isOn := by
  have hNone : ((layers.overlays.top.get? .strict).filter (·.explicit)) = none := by
    rw [h.top .strict]
    split <;> rfl
  unfold Layers.explicitlyOff Stack.toList
  simp only [h.below, List.findSome?_cons, List.findSome?_nil, hNone, h.base]
  cases base.get? .strict <;> rfl

/-- Only `globalstrict` implies anything. -/
theorem Implies.applyImplied {base : OrderedMap Setting Value} {implied : Bool} {layers : Layers}
    (h : Implies base implied layers) (trigger : Setting) :
    Implies base (implied || (trigger = .globalstrict && (base.get? .strict).all Value.isOn))
      (layers.applyImplied trigger) := by
  by_cases hTrigger : trigger = .globalstrict
  · subst hTrigger
    show Implies base _
      (if layers.explicitlyOff .strict then layers else layers.write .strict (.flag true) false)
    rw [h.explicitlyOff]
    cases (base.get? .strict).all Value.isOn with
    | false => simpa using h
    | true =>
      refine ⟨h.base, h.below, fun s => ?_⟩
      show (layers.write .strict (.flag true) false).overlays.top.get? s = _
      rw [get?_top_write, h.top s]
      by_cases hs : s = .strict <;> simp [hs]
  · have hNone : trigger.implied? = none := by
      cases trigger <;> first | rfl | exact absurd rfl hTrigger
    rw [Layers.applyImplied, hNone]
    simpa [hTrigger] using h

/-- By induction on the settings that are on. -/
theorem implies_foldl (base : OrderedMap Setting Value) (triggers : List Setting) {implied : Bool}
    {layers : Layers} (h : Implies base implied layers) :
    Implies base
      (implied || (triggers.contains .globalstrict && (base.get? .strict).all Value.isOn))
      (triggers.foldl Layers.applyImplied layers) := by
  induction triggers generalizing implied layers with
  | nil => simpa using h
  | cons trigger rest ih =>
    have hRest := ih (h.applyImplied trigger)
    have hHead : (Setting.globalstrict == trigger) = decide (trigger = .globalstrict) := by
      rw [Bool.beq_comm, Bool.beq_eq_decide_eq]
    rw [List.contains_cons, hHead, Bool.and_or_distrib_right, ← Bool.or_assoc]
    exact hRest

/-- The settings that are on are those that may imply others. -/
theorem contains_triggers (options : Options) (s : Setting) :
    (((readBase options).1.entries.filter (·.2.isOn)).map Prod.fst).contains s =
      ((readBase options).1.get? s).any Value.isOn := by
  rw [Bool.eq_iff_iff, List.contains_iff_mem, Option.any_eq_true]
  simp only [List.mem_map, List.mem_filter, Prod.exists,
    (readBase options).1.mem_entries_iff (nodup_base options)]
  constructor
  · rintro ⟨_, value, hValue, rfl⟩
    exact ⟨value, hValue⟩
  · rintro ⟨value, hValue⟩
    exact ⟨s, value, hValue, rfl⟩

/-- Of the options only `globalstrict` implies another setting. -/
theorem implies_ofOptions (options : Options) : Implies (readBase options).1
    (((readBase options).1.get? .globalstrict).any Value.isOn &&
      ((readBase options).1.get? .strict).all Value.isOn) (ofOptions options).1 := by
  have hStart : Implies (readBase options).1 false { base := (readBase options).1 } :=
    ⟨rfl, rfl, fun s => by simp; rfl⟩
  have hEnd :=
    implies_foldl _ (((readBase options).1.entries.filter (·.2.isOn)).map Prod.fst) hStart
  rw [Bool.false_or, contains_triggers] at hEnd
  exact hEnd

/-- Options that differ in one setting give layers that agree but for what it affects. -/
theorem agree_ofOptions (h : options.DifferOnlyIn p options') (hValid : options.Valid)
    (hValid' : options'.Valid) : Agree p.affects (ofOptions options).1 (ofOptions options').1 := by
  have hBase (s : Setting) (hs : ¬p.affects s) :
      (readBase options').1.get? s = (readBase options).1.get? s := by
    rw [get?_base_ofOptions hValid, get?_base_ofOptions hValid']
    refine h s.name fun hName => hs (.inl ?_)
    have hNamed := ofName?_name s
    rw [hName, ofName?_name] at hNamed
    exact (Option.some.inj hNamed).symm
  have hImplies := implies_ofOptions options
  have hImplies' := implies_ofOptions options'
  refine ⟨fun s hs => ?_, ?_⟩
  · rw [hImplies.base, hImplies'.base, hBase s hs]
  · rw [Stack.toList, Stack.toList, hImplies.below, hImplies'.below]
    refine .cons (fun s hs => ?_) .nil
    rw [hImplies.top s, hImplies'.top s]
    by_cases hStrict : s = .strict
    · subst hStrict
      have hGlobal : ¬p.affects .globalstrict := by
        rintro (rfl | hImplied)
        · exact hs (.inr rfl)
        · cases p <;> cases hImplied
      rw [hBase .strict hs, hBase .globalstrict hGlobal]
    · simp [hStrict]

/-- The names predefined are the same: no environment is affected. -/
theorem predefinedTable_of_agree (hp : p.governs ≠ []) {layers layers' : Layers}
    (h : Agree p.affects layers layers') (globals : Option Predefined.Globals) :
    predefinedTable layers' globals = predefinedTable layers globals := by
  have hSets : layers'.enabledSettings.filterMap Predefined.environment? =
      layers.enabledSettings.filterMap Predefined.environment? := by
    rw [enabledSettings, enabledSettings, List.filterMap_filter, List.filterMap_filter]
    refine List.filterMap_congr fun s _ => ?_
    by_cases hs : p.affects s
    · have hNone : Predefined.environment? s = none := by
        have hGoverns := governs_ne_of_affects hp hs
        cases s <;> first | rfl | exact absurd rfl hGoverns
      rw [hNone, ite_self, ite_self]
    · rw [h.enabled hs]
  rw [predefinedTable, predefinedTable, hSets]

end Setting.Layers

end ScriptLint
