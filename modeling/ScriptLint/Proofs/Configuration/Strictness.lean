import ScriptLint.Proofs.Directives.Settings

/-!
# What switches strict mode on

Strict mode is asked for by the setting `strict`, or implied by `globalstrict`. An implied value is
written where an explicit one may stand, and takes its place. Still, what was said explicitly
decides: implication only adds to it where nothing was said.

- `Layers.Request`: what a run asks of its settings.
- `Layers.nearestExplicit`: what was said about `strict` last, in the innermost overlay that says
  anything.
- `Layers.Honors`: the values of `strict` in the open overlays, next to what was said in each of
  them. The flags of the overlays may be lost where something was switched on, never where it was
  switched off.
- `Layers.Hears.perform`: one request keeps that, `Layers.Hears.foldl` a sequence of them.
- `Layers.agree_of_perm`, `Layers.Agree.foldl_perform`: the order of the options makes no
  difference.
- `Layers.strict_follows_explicit`: strict mode by what was said and by `globalstrict`.
-/

namespace ScriptLint.Setting.Layers

variable {base : OrderedMap Setting Value} {layers : Layers} {options options' : Options}
  {s : Setting}
  {value : Value} {said : List (Option Value)} {overlay : Overlay} {overlays : List Overlay}

/-! ## Requests -/

/-- What a run asks of its settings: to open an overlay, to close one, or to set a value by name. -/
inductive Request where
  | push
  | pop
  | apply (name : String) (value : Value) (atGlobal : Bool)

/-- The settings after a request. One that is refused changes nothing. -/
def perform (layers : Layers) : Request → Layers
  | .push => layers.push
  | .pop => layers.pop
  | .apply name value atGlobal =>
    match layers.setNamed name value atGlobal with
    | .ok changed => changed
    | .error _ => layers

/-- The settings that the options give, after the requests. -/
def performed (options : Options) (requests : List Request) : Layers :=
  requests.foldl perform (ofOptions options).1

/-- Whether the value is one of `strict`. -/
def isStrictness (value : Value) : Bool := (Setting.strict.validate value).isOk

/-- What was said about `strict` in each open overlay, after one more request. -/
def listen (said : Stack (Option Value)) : Request → Stack (Option Value)
  | .push => said.push none
  | .pop => said.pop
  | .apply name value _ =>
    if name = Setting.strict.name && isStrictness value then
      said.modifyTop fun _ => some value else said

/-- What was said innermost, or else in the base. -/
def nearest (base : Option Value) (said : List (Option Value)) : Option Value :=
  (said.findSome? id).or base

/-- The nearest explicit value of `strict`: the last one accepted in the innermost open overlay that
has one, or else that of the options, if it is valid. -/
def nearestExplicit (options : Options) (requests : List Request) : Option Value :=
  nearest ((options.get? Setting.strict.name).filter isStrictness)
    (requests.foldl listen (.singleton none)).toList

/-! ## Values in overlays -/

/-- Whether a setting is on, over a base. -/
def isOnIn (base : OrderedMap Setting Value) (overlays : List Overlay) (s : Setting) : Bool :=
  (((overlays.findSome? (·.get? s)).map Entry.value).or (base.get? s)).any Value.isOn

/-- Whether a setting is on is decided by the innermost overlay that says so. -/
theorem enabled_eq (layers : Layers) (s : Setting) :
    layers.enabled s = isOnIn layers.base layers.overlays.toList s := by
  unfold enabled resolve isOnIn
  cases layers.overlays.toList.findSome? (·.get? s) with
  | none => cases layers.base.get? s <;> rfl
  | some entry => rfl

/-- An overlay decides if it says something, and else the ones below it. -/
theorem isOnIn_cons (base : OrderedMap Setting Value) (overlay : Overlay) (overlays : List Overlay)
    (s : Setting) : isOnIn base (overlay :: overlays) s = match overlay.get? s with
      | some entry => entry.value.isOn
      | none => isOnIn base overlays s := by
  unfold isOnIn
  rw [List.findSome?_cons]
  cases overlay.get? s <;> rfl

/-- What an overlay holds for `strict`, given what was said in it and outside of it. A value that
was said may have lost its flag to an implied one, but only if it switched `strict` on. -/
structure Follows (held : Option Entry) (said outer : Option Value) : Prop where
  explicit : ∀ value, said = some value → ∃ entry, held = some entry ∧
    entry.value.isOn = value.isOn ∧ (value.isOn = false → entry.explicit = true)
  implied : said = none → ∀ entry, held = some entry →
    entry.value.isOn = true ∧ entry.explicit = false ∧ outer.all Value.isOn = true

/-- The overlays follow what was said in them, innermost first, and where nothing was said up to
there, `globalstrict` implies `strict`. -/
inductive Honors (base : OrderedMap Setting Value) : List (Option Value) → List Overlay → Prop
  | nil : Honors base [] []
  | cons {said : List (Option Value)} {overlays : List Overlay} {word : Option Value}
    {overlay : Overlay} :
    Honors base said overlays → Follows (overlay.get? .strict) word
      (nearest (base.get? .strict) said) →
    (nearest (base.get? .strict) (word :: said) = none →
      isOnIn base (overlay :: overlays) .globalstrict → isOnIn base (overlay :: overlays) .strict) →
    Honors base (word :: said) (overlay :: overlays)

/-- A word counts before the words below it. -/
theorem nearest_cons (base word : Option Value) (said : List (Option Value)) :
    nearest base (word :: said) = word.or (nearest base said) := by
  cases word <;> rfl

namespace Honors

/-- What was said innermost is in force. By induction on the overlays. -/
theorem isOnIn_eq (h : Honors base said overlays)
    (hSaid : nearest (base.get? .strict) said = some value) :
    isOnIn base overlays .strict = value.isOn := by
  induction h with
  | nil =>
    have hBase : base.get? .strict = some value := hSaid
    simp [isOnIn, hBase]
  | @cons said overlays word overlay _ hFollows _ ih =>
    rw [nearest_cons] at hSaid
    rw [isOnIn_cons]
    cases hWord : word with
    | some said =>
      rw [hWord] at hSaid
      obtain rfl : said = value := Option.some.inj hSaid
      obtain ⟨entry, hEntry, hOn, -⟩ := hFollows.explicit said hWord
      rw [hEntry]
      exact hOn
    | none =>
      rw [hWord] at hSaid
      cases hEntry : overlay.get? .strict with
      | none => exact ih hSaid
      | some entry =>
        -- an implied value: then what was said outside is on as well
        obtain ⟨hOn, -, hOuter⟩ := hFollows.implied hWord entry hEntry
        have hSaid : nearest (base.get? .strict) said = some value := hSaid
        rw [hSaid] at hOuter
        exact hOn.trans hOuter.symm

/-- If nothing was said, `globalstrict` switches `strict` on. -/
theorem implied (h : Honors base said (overlay :: overlays))
    (hNone : nearest (base.get? .strict) said = none)
    (hOn : isOnIn base (overlay :: overlays) .globalstrict) :
    isOnIn base (overlay :: overlays) .strict := by
  cases h with
  | cons _ _ hImplies => exact hImplies hNone hOn

/-- The test that implication makes before it writes. -/
def isOffIn (base : OrderedMap Setting Value) (overlays : List Overlay) : Bool :=
  match overlays.findSome? fun overlay => (overlay.get? .strict).filter (·.explicit) with
  | some entry => !entry.value.isOn
  | none => (base.get? .strict).any (!·.isOn)

/-- Whether `strict` was switched off is decided by the innermost explicit entry. -/
theorem explicitlyOff_eq (layers : Layers) :
    layers.explicitlyOff .strict = isOffIn layers.base layers.overlays.toList := by
  unfold explicitlyOff isOffIn
  dsimp only
  cases layers.overlays.toList.findSome? _ with
  | none => cases layers.base.get? .strict <;> rfl
  | some entry => rfl

/-- An explicit entry decides, and else the overlays below it. -/
theorem isOffIn_cons (base : OrderedMap Setting Value) (overlay : Overlay)
    (overlays : List Overlay) :
    isOffIn base (overlay :: overlays) = match (overlay.get? .strict).filter (·.explicit) with
      | some entry => !entry.value.isOn
      | none => isOffIn base overlays := by
  unfold isOffIn
  rw [List.findSome?_cons]
  cases (overlay.get? .strict).filter (·.explicit) <;> rfl

/-- What is off was said, and what was said to be off is found to be. By induction on the
overlays. -/
theorem isOffIn_sound (h : Honors base said overlays) :
    (isOffIn base overlays = true → nearest (base.get? .strict) said ≠ none) ∧
      (isOffIn base overlays = false →
        (nearest (base.get? .strict) said).all Value.isOn = true) := by
  induction h with
  | nil =>
    have hNearest : nearest (base.get? .strict) [] = base.get? .strict := rfl
    have hOff : isOffIn base [] = (base.get? .strict).any (!·.isOn) := rfl
    rw [hNearest, hOff]
    cases base.get? .strict <;> simp
  | @cons said overlays word overlay _ hFollows _ ih =>
    rw [nearest_cons, isOffIn_cons]
    -- a word was said about this overlay, or what it holds is implied
    cases hWord : word with
    | some value =>
      obtain ⟨entry, hEntry, hOn, hExplicit⟩ := hFollows.explicit value hWord
      refine ⟨fun _ => by simp, fun hNotOff => ?_⟩
      show value.isOn = true
      by_contra hOff
      have hOff : value.isOn = false := Bool.eq_false_iff.mpr hOff
      rw [hEntry, Option.filter_some, if_pos (hExplicit hOff)] at hNotOff
      simp only [hOn, hOff] at hNotOff
      cases hNotOff
    | none =>
      have hFlag : (overlay.get? .strict).filter (·.explicit) = none := by
        rw [Option.filter_eq_none_iff]
        intro entry hEntry
        rw [(hFollows.implied hWord entry hEntry).2.1]
        exact Bool.false_ne_true
      rw [hFlag]
      exact ih

/-- An empty overlay changes nothing. -/
theorem push {word : Option Value} (h : Honors base (word :: said) (overlay :: overlays)) :
    Honors base (none :: word :: said) ({} :: overlay :: overlays) := by
  refine .cons h ⟨nofun, nofun⟩ ?_
  have hEmpty (s : Setting) :
      isOnIn base ({} :: overlay :: overlays) s = isOnIn base (overlay :: overlays) s :=
    isOnIn_cons base {} _ s
  rw [hEmpty, hEmpty]
  cases h with
  | cons _ _ hImplies => exact hImplies

section Replace

variable {word : Option Value} {overlay' : Overlay}
  (h : Honors base (word :: said) (overlay :: overlays))
include h

/-- Something is said about `strict`. -/
theorem tell (hStrict : overlay'.get? .strict = some ⟨value, true⟩) :
    Honors base (some value :: said) (overlay' :: overlays) := by
  cases h with
  | cons hOuter _ _ =>
    refine .cons hOuter ⟨?_, nofun⟩ nofun
    intro value' hValue
    obtain rfl : value = value' := Option.some.inj hValue
    exact ⟨_, hStrict, rfl, fun _ => rfl⟩

/-- `strict` is implied where it was not switched off. -/
theorem imply (hOn : (nearest (base.get? .strict) (word :: said)).all Value.isOn = true)
    (hStrict : overlay'.get? .strict = some ⟨.flag true, false⟩) :
    Honors base (word :: said) (overlay' :: overlays) := by
  rw [nearest_cons] at hOn
  cases h with
  | cons hOuter _ _ =>
    refine .cons hOuter ⟨?_, ?_⟩ fun _ _ => ?_
    · rintro value rfl
      have hValue : value.isOn = true := hOn
      refine ⟨_, hStrict, hValue.symm, fun hOff => ?_⟩
      cases hValue.symm.trans hOff
    · rintro rfl entry hOther
      rw [hStrict] at hOther
      obtain rfl := Option.some.inj hOther
      exact ⟨rfl, rfl, hOn⟩
    · rw [isOnIn_cons, hStrict]
      rfl

/-- `globalstrict` is set, and nothing more is implied: it is off, or something was said about
`strict`. -/
theorem setGlobal {entry : Entry} (hGlobal : overlay'.get? .globalstrict = some entry)
    (hUnless : entry.value.isOn = true → nearest (base.get? .strict) (word :: said) ≠ none)
    (hStrict : overlay'.get? .strict = overlay.get? .strict) :
    Honors base (word :: said) (overlay' :: overlays) := by
  cases h with
  | cons hOuter hFollows _ =>
    refine .cons hOuter (hStrict ▸ hFollows) fun hNone hOn => ?_
    rw [isOnIn_cons, hGlobal] at hOn
    exact absurd hNone (hUnless hOn)

/-- Neither of the two settings is set. -/
theorem setOther (hGlobal : overlay'.get? .globalstrict = overlay.get? .globalstrict)
    (hStrict : overlay'.get? .strict = overlay.get? .strict) :
    Honors base (word :: said) (overlay' :: overlays) := by
  cases h with
  | cons hOuter hFollows hImplies =>
    refine .cons hOuter (hStrict ▸ hFollows) ?_
    rw [isOnIn_cons, isOnIn_cons, hGlobal, hStrict, ← isOnIn_cons, ← isOnIn_cons]
    exact hImplies

end Replace

end Honors

/-! ## One request -/

/-- The overlays follow what was said. -/
def Hears (layers : Layers) (said : Stack (Option Value)) : Prop :=
  Honors layers.base said.toList layers.overlays.toList

namespace Hears

variable {words : Stack (Option Value)}

/-- The word of an overlay goes with it. -/
theorem pop (h : layers.Hears words) : layers.pop.Hears words.pop := by
  obtain ⟨base, top, below⟩ := layers
  obtain ⟨word, said⟩ := words
  cases h with
  | cons hOuter hFollows hImplies =>
    cases hOuter with
    | nil => exact .cons .nil hFollows hImplies
    | cons hNext hNextFollows hNextImplies => exact .cons hNext hNextFollows hNextImplies

/-- A value is set: of `strict`, of `globalstrict`, or of a setting that has nothing to do with
it. -/
theorem put (h : layers.Hears words) (s : Setting) (value : Value) : (layers.put s value).Hears
    (if s = .strict then words.modifyTop fun _ => some value else words) := by
  have hWritten (s' : Setting) := get?_top_write layers s s' value true
  -- `strict` itself, then `globalstrict`, which may imply it, then any other setting
  by_cases hStrict : s = .strict
  · subst hStrict
    have hPut : layers.put .strict value = layers.write .strict value true := ite_self _
    rw [hPut, if_pos rfl]
    exact Honors.tell h (hWritten .strict)
  rw [if_neg hStrict]
  have hSame := hWritten .strict
  rw [if_neg (Ne.symm hStrict)] at hSame
  by_cases hGlobal : s = .globalstrict
  · subst hGlobal
    have hPut : layers.put .globalstrict value = if value.isOn && !layers.explicitlyOff .strict
        then (layers.write .globalstrict value true).write .strict (.flag true) false
        else layers.write .globalstrict value true := by
      have hOff := explicitlyOff_write layers .globalstrict .strict value true nofun
      rw [if_neg (by decide)] at hOff
      unfold Layers.put applyImplied implied?
      dsimp only
      rw [hOff]
      cases value.isOn <;> cases layers.explicitlyOff .strict <;> rfl
    obtain ⟨hSaid, hUnsaid⟩ := Honors.isOffIn_sound h
    rw [← Honors.explicitlyOff_eq] at hSaid hUnsaid
    rw [hPut]
    split
    · next hBoth =>
      -- nothing was switched off, so `strict` is switched on
      obtain ⟨-, hNotOff⟩ := Bool.and_eq_true_iff.mp hBoth
      exact Honors.imply h (hUnsaid (by simpa using hNotOff)) (get?_top_write _ .strict .strict _ _)
    · next hEither =>
      refine Honors.setGlobal h (hWritten .globalstrict) (fun hOn => hSaid ?_) hSame
      have hOn : value.isOn = true := hOn
      simpa [hOn] using hEither
  · -- nothing is implied
    have hImplied : s.implied? = none := by
      cases hSome : s.implied? with
      | none => rfl
      | some other => exact absurd (implied_eq hSome).1 hGlobal
    have hPut : layers.put s value = layers.write s value true := by
      unfold Layers.put applyImplied
      rw [hImplied]
      exact ite_self _
    have hKept := hWritten .globalstrict
    rw [if_neg (Ne.symm hGlobal)] at hKept
    rw [hPut]
    exact Honors.setOther h hKept hSame

/-- A request that is refused says nothing, one that is accepted says something if it names
`strict`. -/
theorem perform (h : layers.Hears words) (request : Request) :
    (layers.perform request).Hears (listen words request) := by
  cases request with
  | push =>
    obtain ⟨base, top, below⟩ := layers
    obtain ⟨word, said⟩ := words
    exact Honors.push h
  | pop => exact h.pop
  | apply name value atGlobal =>
    unfold Layers.perform listen setNamed
    dsimp only
    -- a name that is unknown, a value that is accepted, and one that is refused
    cases hNamed : ofName? name with
    | none =>
      have hName : name ≠ Setting.strict.name := by
        rintro rfl
        cases (ofName?_name .strict).symm.trans hNamed
      rw [if_neg (by simp [hName])]
      exact h
    | some s =>
      obtain rfl : s.name = name := ofName?_eq_some hNamed
      have hName : s.name = Setting.strict.name ↔ s = .strict := by
        refine ⟨fun hSame => ?_, fun hSame => hSame ▸ rfl⟩
        have hStrict := ofName?_name .strict
        rw [← hSame] at hStrict
        exact Option.some.inj (hNamed.symm.trans hStrict)
      dsimp only
      cases hSet : layers.set s value atGlobal with
      | ok changed =>
        have hPut := h.put s value
        rw [← eq_put_of_set hSet] at hPut
        by_cases hStrict : s = .strict
        · subst hStrict
          have hAccepted : isStrictness value = true := by
            unfold isStrictness
            unfold Layers.set at hSet
            cases hValid : Setting.strict.validate value with
            | ok _ => rfl
            | error problem =>
              rw [hValid] at hSet
              cases hSet
          rw [if_pos rfl] at hPut
          rw [if_pos (by simp [hAccepted])]
          exact hPut
        · rw [if_neg hStrict] at hPut
          rw [if_neg (by simp [hName, hStrict])]
          exact hPut
      | error problem =>
        have hUnsaid : ¬(s = .strict ∧ isStrictness value = true) := by
          rintro ⟨rfl, hAccepted⟩
          unfold isStrictness at hAccepted
          cases hValid : Setting.strict.validate value with
          | ok _ => cases (set_of_valid hValid nofun atGlobal).symm.trans hSet
          | error other =>
            rw [hValid] at hAccepted
            cases hAccepted
        rw [if_neg (by simpa [hName] using hUnsaid)]
        exact h

/-- In the beginning there is one overlay, in which nothing was said. It may hold `strict`, by
implication. -/
theorem ofOptions (options : Options) : (ofOptions options).1.Hears (.singleton none) := by
  have hImplies := implies_ofOptions options
  have hStrict := hImplies.top .strict
  have hGlobal := hImplies.top .globalstrict
  unfold Hears Stack.toList
  rw [hImplies.base, hImplies.below]
  rw [if_neg (by simp)] at hGlobal
  refine .cons .nil ⟨fun _ hSaid => (by cases hSaid), fun _ entry hEntry => ?_⟩ fun hNone hOn => ?_
  · rw [hStrict] at hEntry
    split at hEntry
    · next hBoth =>
      obtain rfl := Option.some.inj hEntry
      exact ⟨rfl, rfl, (Bool.and_eq_true_iff.mp hBoth.2).2⟩
    · cases hEntry
  · have hNone : (readBase options).1.get? .strict = none := hNone
    rw [isOnIn_cons, hGlobal] at hOn
    have hOn : ((readBase options).1.get? .globalstrict).any Value.isOn = true := by
      simpa [isOnIn] using hOn
    rw [isOnIn_cons, hStrict, if_pos (by simp [hNone, hOn])]
    rfl

/-- By induction on the requests. -/
theorem foldl (h : layers.Hears words) (requests : List Request) :
    (requests.foldl Layers.perform layers).Hears (requests.foldl listen words) := by
  induction requests generalizing layers words with
  | nil => exact h
  | cons request rest ih => exact ih (h.perform request)

end Hears

/-! ## The base -/

/-- Requests leave the base alone. -/
theorem base_perform (layers : Layers) (request : Request) :
    (layers.perform request).base = layers.base := by
  cases request with
  | push => rfl
  | pop => rfl
  | apply name value atGlobal =>
    unfold perform setNamed
    dsimp only
    cases ofName? name with
    | none => rfl
    | some s =>
      dsimp only
      cases hSet : layers.set s value atGlobal with
      | error problem => rfl
      | ok changed =>
        rw [eq_put_of_set hSet]
        unfold Layers.put applyImplied
        dsimp only
        cases s.implied? <;> repeat (split <;> try rfl)

/-- By induction on the requests. -/
theorem base_performed (options : Options) (requests : List Request) :
    (performed options requests).base = (readBase options).1 := by
  have hAll (layers : Layers) : (requests.foldl perform layers).base = layers.base := by
    induction requests generalizing layers with
    | nil => rfl
    | cons request rest ih => exact (ih _).trans (base_perform layers request)
  exact (hAll _).trans (implies_ofOptions options).base

/-- One entry of the options gives its setting its value, if that is valid. -/
theorem get?_readBase_step (acc : OrderedMap Setting Value × List Problem) (entry : String × Value)
    (s : Setting) : (readBase.step acc entry).1.get? s =
      if s.name = entry.1 ∧ (s.validate entry.2).isOk then some entry.2 else acc.1.get? s := by
  unfold readBase.step
  -- a name that is unknown, or the setting of that name
  cases hNamed : ofName? entry.1 with
  | none =>
    have hName : s.name ≠ entry.1 := by
      intro hSame
      rw [← hSame] at hNamed
      cases (ofName?_name s).symm.trans hNamed
    have hUnnamed : ¬(s.name = entry.1 ∧ (s.validate entry.2).isOk = true) :=
      fun hBoth => hName hBoth.1
    rw [if_neg hUnnamed]
    cases (ignoredCode? entry.1).isSome <;> rfl
  | some named =>
    obtain hSame : named.name = entry.1 := ofName?_eq_some hNamed
    have hName : s.name = entry.1 ↔ s = named := by
      refine ⟨fun hSame => ?_, fun hEq => hEq ▸ hSame⟩
      rw [← hSame] at hNamed
      exact Option.some.inj ((ofName?_name s).symm.trans hNamed)
    rw [if_neg (by rw [← hSame, ignoredCode?_name]; exact Bool.false_ne_true)]
    dsimp only
    by_cases hEq : s = named
    · subst hEq
      cases hValid : s.validate entry.2 with
      | ok _ =>
        rw [if_pos ⟨hSame, rfl⟩]
        exact (OrderedMap.get?_insert ..).trans (if_pos rfl)
      | error problem => rw [if_neg fun hBoth => Bool.false_ne_true hBoth.2]
    · rw [if_neg fun hBoth => hEq (hName.mp hBoth.1)]
      split
      · exact (OrderedMap.get?_insert ..).trans (if_neg hEq)
      · rfl

/-- By induction on the entries: each setting has the value of its name, if that is valid. -/
theorem get?_readBase (h : options.keys.Nodup) (s : Setting) :
    (readBase options).1.get? s = (options.get? s.name).filter fun value =>
    (s.validate value).isOk := by
  have hAll (entries : List (String × Value)) (hEntries : (entries.map Prod.fst).Nodup)
      (acc : OrderedMap Setting Value × List Problem) : (entries.foldl readBase.step acc).1.get? s =
        ((entries.lookup s.name).filter fun value => (s.validate value).isOk).or
          (acc.1.get? s) := by
    induction entries generalizing acc with
    | nil => rfl
    | cons entry rest ih =>
      obtain ⟨hNew, hRest⟩ := List.nodup_cons.mp hEntries
      rw [List.foldl_cons, ih hRest, get?_readBase_step, List.lookup_cons]
      by_cases hName : s.name = entry.1
      · have hAbsent : rest.lookup s.name = none := by
          rw [List.lookup_eq_none_iff]
          intro other hOther
          rw [bne_iff_ne, hName]
          exact fun hSame => hNew (hSame ▸ List.mem_map_of_mem hOther)
        rw [hAbsent, hName, beq_self_eq_true]
        dsimp only
        rw [Option.filter_some]
        cases hValid : (s.validate entry.2).isOk <;> simp
      · rw [beq_false_of_ne hName, if_neg fun hBoth => hName hBoth.1]
  exact (hAll options.entries h ({}, [])).trans Option.or_none

/-! ## The order of the options -/

/-- Options in another order give every name the same value. -/
theorem get?_of_perm (h : options.keys.Nodup) (hPerm : options'.entries.Perm options.entries)
    (name : String) : options'.get? name = options.get? name := by
  have hNodup : options'.keys.Nodup := (hPerm.map Prod.fst).nodup_iff.mpr h
  refine Option.ext fun value => ?_
  rw [← options'.mem_entries_iff hNodup, ← options.mem_entries_iff h]
  exact hPerm.mem_iff

/-- The settings that they give have the same values, layer by layer. -/
theorem agree_of_perm (h : options.keys.Nodup) (hPerm : options'.entries.Perm options.entries) :
    Agree (fun _ => False) (ofOptions options).1 (ofOptions options').1 := by
  have hNodup : options'.keys.Nodup := (hPerm.map Prod.fst).nodup_iff.mpr h
  have hBase (s : Setting) : (readBase options').1.get? s = (readBase options).1.get? s := by
    rw [get?_readBase h, get?_readBase hNodup, get?_of_perm h hPerm]
  have hImplies := implies_ofOptions options
  have hImplies' := implies_ofOptions options'
  constructor
  · intro s _
    rw [hImplies.base, hImplies'.base, hBase]
  · rw [Stack.toList, Stack.toList, hImplies.below, hImplies'.below]
    refine .cons (fun s _ => ?_) .nil
    rw [hImplies.top, hImplies'.top, hBase, hBase]

/-- Requests are performed alike where the settings agree. -/
theorem Agree.perform {hides : Setting → Prop} {layers' : Layers} (h : Agree hides layers layers')
    (request : Request) : Agree hides (layers.perform request) (layers'.perform request) := by
  cases request with
  | push => exact h.push
  | pop => exact h.pop
  | apply name value atGlobal =>
    unfold Layers.perform setNamed
    dsimp only
    cases ofName? name with
    | none => exact h
    | some s =>
      dsimp only
      rcases h.set s value atGlobal with ⟨problem, hSet, hSet'⟩ | ⟨changed, changed', hSet,
        hSet', hChanged⟩
      · rw [hSet, hSet']
        exact h
      · rw [hSet, hSet']
        exact hChanged

/-- By induction on the requests. -/
theorem Agree.foldl_perform {hides : Setting → Prop} {layers' : Layers}
    (h : Agree hides layers layers') (requests : List Request) :
    Agree hides (requests.foldl Layers.perform layers) (requests.foldl Layers.perform layers') := by
  induction requests generalizing layers layers' with
  | nil => exact h
  | cons request rest ih => exact ih (h.perform request)

/-! ## Strict mode -/

/-- What was said about `strict` decides whether it is on. If nothing was said, `globalstrict`
switches it on. Neither depends on the order of the options. -/
theorem strict_follows_explicit (options : Options) (h : options.keys.Nodup)
    (requests : List Request) : (∀ value, nearestExplicit options requests = some value →
      (performed options requests).enabled .strict = value.isOn) ∧
    (nearestExplicit options requests = none → (performed options requests).enabled .globalstrict →
      (performed options requests).enabled .strict) ∧
    ∀ options' : Options, options'.entries.Perm options.entries →
      nearestExplicit options' requests = nearestExplicit options requests ∧
      ∀ s, (performed options' requests).resolve s = (performed options requests).resolve s := by
  have hHears : (performed options requests).Hears (requests.foldl listen (.singleton none)) :=
    (Hears.ofOptions options).foldl requests
  have hNearest : nearestExplicit options requests =
      nearest ((performed options requests).base.get? .strict)
        (requests.foldl listen (.singleton none)).toList := by
    rw [base_performed, get?_readBase h]
    rfl
  refine ⟨fun value hSaid => ?_, fun hNone hGlobal => ?_, fun options' hPerm => ⟨?_, fun s => ?_⟩⟩
  · rw [enabled_eq]
    exact hHears.isOnIn_eq (hNearest ▸ hSaid)
  · rw [hNearest] at hNone
    rw [enabled_eq] at hGlobal ⊢
    exact hHears.implied hNone hGlobal
  · unfold nearestExplicit
    rw [get?_of_perm h hPerm]
  · exact ((agree_of_perm h hPerm).foldl_perform requests).resolve id

/-- Off in the options, on in a function, where implication takes the place of what was said, and
off in the function inside of it. The same with the options the other way round. -/
theorem strict_follows_explicit_in_functions :
    let options : Options := ⟨[("strict", .flag false), ("globalstrict", .flag true)]⟩
    let swapped : Options := ⟨[("globalstrict", .flag true), ("strict", .flag false)]⟩
    let outer : List Request :=
      [.push, .apply "strict" (.flag true) false, .apply "globalstrict" (.flag true) false]
    let inner : List Request :=
      outer ++
        [.push, .apply "strict" (.flag false) false, .apply "globalstrict" (.flag true) false]
    options.keys.Nodup ∧ swapped.entries.Perm options.entries ∧
      nearestExplicit options outer = some (.flag true) ∧
        (performed options outer).enabled .strict = true ∧
      nearestExplicit options inner = some (.flag false) ∧
        (performed options inner).enabled .strict = false ∧
      (performed swapped inner).resolve .strict = (performed options inner).resolve .strict := by
  intro options swapped outer inner
  have hNodup : options.keys.Nodup := by decide
  have hPerm : swapped.entries.Perm options.entries := .swap ..
  have hOuter : nearestExplicit options outer = some (.flag true) := by decide
  have hInner : nearestExplicit options inner = some (.flag false) := by decide
  refine ⟨hNodup, hPerm, hOuter, ?_, hInner, ?_, ?_⟩
  · exact (strict_follows_explicit options hNodup outer).1 _ hOuter
  · exact (strict_follows_explicit options hNodup inner).1 _ hInner
  · exact ((strict_follows_explicit options hNodup inner).2.2 swapped hPerm).2 .strict

end ScriptLint.Setting.Layers
