import ScriptLint.Proofs.Grammar.Passing
import ScriptLint.Proofs.Isolation.Settings

/-!
# What directives do to the settings

A directive writes into the innermost overlay and, at most, switches on there what its value
implies. So the overlays around stay as they were, and a value that was set stays in force until the
same setting is set again.

- `Layers.put`: the settings after a value was accepted.
- `Layers.Covered`: settings with further overlays open on top of them.
- `Layers.Holds`: a value is in force and cannot be overridden by implication.
- `Layers.Fixed`: a value of the base layer is in force, and nothing was set over it.
- `Posting`, `Layers.carryOut`: values set one after another, and those of them that were set while
  a given number of overlays was open.
-/

namespace ScriptLint.Setting

namespace Layers

variable {layers lower changed : Layers} {opened : List Overlay} {s s' : Setting}
  {value value' : Value}

/-- The settings after a value was accepted: it is written, and what it implies is switched on. -/
def put (layers : Layers) (s : Setting) (value : Value) : Layers :=
  if value.isOn then (layers.write s value true).applyImplied s else layers.write s value true

/-- A setting that is accepted is put into the layers. -/
theorem eq_put_of_set {atGlobal : Bool} (h : layers.set s value atGlobal = .ok changed) :
    changed = layers.put s value := by
  unfold set at h
  split at h
  · cases h
  · split at h
    · cases h
    · exact (Except.ok.inj h).symm

/-- A valid value of a setting other than `validthis` is accepted. -/
theorem set_of_valid (hValid : s.validate value = .ok ()) (hs : s ≠ .validthis) (atGlobal : Bool) :
    layers.set s value atGlobal = .ok (layers.put s value) := by
  have hAllowed : ¬(decide (s = .validthis) && atGlobal) = true := by
    rw [decide_eq_false hs, Bool.false_and]
    exact Bool.false_ne_true
  rw [set, hValid]
  exact if_neg hAllowed

/-! ## Overlays on top -/

/-- The layers are the lower ones with further overlays open on top, innermost first. -/
structure Covered (lower : Layers) (opened : List Overlay) (layers : Layers) : Prop where
  base : layers.base = lower.base
  overlays : layers.overlays.toList = opened ++ lower.overlays.toList

namespace Covered

/-- Nothing is open yet. -/
theorem refl (layers : Layers) : Covered layers [] layers := ⟨rfl, rfl⟩

/-- With nothing open the layers are those below. -/
theorem eq (h : Covered lower [] layers) : layers = lower := by
  obtain ⟨base, top, below⟩ := layers
  obtain ⟨base', top', below'⟩ := lower
  obtain ⟨hTop, hBelow⟩ := List.cons.inj h.overlays
  obtain rfl : base = base' := h.base
  obtain rfl : top = top' := hTop
  obtain rfl : below = below' := hBelow
  rfl

/-- The layers are as many as the overlays opened and those below. -/
theorem depth (h : Covered lower opened layers) : layers.depth = opened.length + lower.depth := by
  have hLength := congrArg List.length h.overlays
  rw [List.length_append] at hLength
  exact hLength

/-- One more overlay is opened. -/
theorem push (h : Covered lower opened layers) : Covered lower ({} :: opened) layers.push :=
  ⟨h.base, congrArg (List.cons _) h.overlays⟩

/-- The newest overlay is closed. -/
theorem pop {overlay : Overlay} (h : Covered lower (overlay :: opened) layers) :
    Covered lower opened layers.pop := by
  obtain ⟨base, top, below⟩ := layers
  have hBelow : below = opened ++ lower.overlays.toList := (List.cons.inj h.overlays).2
  cases hRest : opened ++ lower.overlays.toList with
  | nil => cases (List.append_eq_nil_iff.mp hRest).2
  | cons next rest =>
    rw [hRest] at hBelow
    subst hBelow
    exact ⟨h.base, hRest.symm⟩

/-- Writing changes the innermost overlay only. -/
theorem write {overlay : Overlay} (h : Covered lower (overlay :: opened) layers) (s : Setting)
    (value : Value) (explicit : Bool) :
    ∃ overlay', Covered lower (overlay' :: opened) (layers.write s value explicit) := by
  obtain ⟨hTop, hBelow⟩ := List.cons.inj h.overlays
  exact ⟨_, h.base, congrArg (List.cons _) hBelow⟩

/-- A setting that is put changes the newest overlay only. -/
theorem put {overlay : Overlay} (h : Covered lower (overlay :: opened) layers) (s : Setting)
    (value : Value) : ∃ overlay', Covered lower (overlay' :: opened) (layers.put s value) := by
  obtain ⟨written, hWritten⟩ := h.write s value true
  unfold Layers.put
  split
  · unfold applyImplied
    split
    · split
      · exact ⟨written, hWritten⟩
      · exact hWritten.write _ _ _
    · exact ⟨written, hWritten⟩
  · exact ⟨written, hWritten⟩

end Covered

/-! ## Values in force -/

/-- The value is in force, and if it is off, it was switched off explicitly. -/
structure Holds (layers : Layers) (s : Setting) (value : Value) : Prop where
  resolve : layers.resolve s = value
  off : value.isOn = false → layers.explicitlyOff s = true

/-- A written setting resolves to its value, the others as before. -/
theorem resolve_write (layers : Layers) (s s' : Setting) (value : Value) (explicit : Bool) :
    (layers.write s value explicit).resolve s' = if s' = s then value else layers.resolve s' := by
  have hTop := get?_top_write layers s s' value explicit
  unfold resolve Stack.toList
  rw [List.findSome?_cons, List.findSome?_cons, hTop]
  by_cases hSame : s' = s
  · rw [if_pos hSame, if_pos hSame]
  · rw [if_neg hSame, if_neg hSame]
    rfl

/-- An explicit value decides whether its setting is off. -/
theorem explicitlyOff_write (layers : Layers) (s s' : Setting) (value : Value) (explicit : Bool)
    (h : s' = s → explicit) : (layers.write s value explicit).explicitlyOff s' =
      if s' = s then !value.isOn else layers.explicitlyOff s' := by
  have hTop := get?_top_write layers s s' value explicit
  unfold explicitlyOff Stack.toList
  dsimp only
  rw [List.findSome?_cons, List.findSome?_cons, hTop]
  by_cases hSame : s' = s
  · rw [if_pos hSame, if_pos hSame, h hSame]
    rfl
  · rw [if_neg hSame, if_neg hSame]
    rfl

/-- Only `strict` is implied by another setting, which it does not imply. -/
theorem implied_eq (h : s.implied? = some s') : s = .globalstrict ∧ s' = .strict := by
  cases s <;> cases h
  exact ⟨rfl, rfl⟩

/-- The values of `strict` are those of a switch. -/
theorem flag_of_validate (h : Setting.strict.validate value = .ok ()) : ∃ on, value = .flag on := by
  cases value with
  | flag on => exact ⟨on, rfl⟩
  | limit bound => cases h
  | level word => cases h
  | names members => cases h

namespace Holds

/-- A value that is set is in force. -/
theorem put (layers : Layers) (s : Setting) (value : Value) :
    (layers.put s value).Holds s value := by
  have hWritten : (layers.write s value true).Holds s value := by
    constructor
    · rw [resolve_write, if_pos rfl]
    · intro hOff
      rw [explicitlyOff_write _ _ _ _ _ fun _ => rfl, if_pos rfl, hOff]
      rfl
  unfold Layers.put
  cases hOn : value.isOn with
  | false => exact hWritten
  | true =>
    refine ⟨?_, fun hOff => by cases hOn.symm.trans hOff⟩
    show ((layers.write s value true).applyImplied s).resolve s = value
    unfold applyImplied
    split
    · next implied hImplied =>
      obtain ⟨rfl, rfl⟩ := implied_eq hImplied
      split
      · exact hWritten.resolve
      · rw [resolve_write]
        exact hWritten.resolve
    · exact hWritten.resolve

/-- Setting another one leaves a value in force: implication does not override what was switched
off, and what was switched on stays on. -/
theorem put_other (h : layers.Holds s value) (hValid : s.validate value = .ok ()) (hOther : s ≠ s')
    (value' : Value) : (layers.put s' value').Holds s value := by
  have hWritten : (layers.write s' value' true).Holds s value := by
    constructor
    · rw [resolve_write, if_neg hOther, h.resolve]
    · intro hOff
      rw [explicitlyOff_write _ _ _ _ _ fun _ => rfl, if_neg hOther, h.off hOff]
  unfold Layers.put
  -- setting `globalstrict` sets `strict` along, unless that is explicitly off
  split
  · unfold applyImplied
    split
    · next implied hImplied =>
      obtain ⟨rfl, rfl⟩ := implied_eq hImplied
      split
      · exact hWritten
      · next hUnlessOff =>
        by_cases hStrict : s = .strict
        · subst hStrict
          obtain ⟨on, rfl⟩ := flag_of_validate hValid
          cases on with
          | false => exact absurd (hWritten.off rfl) hUnlessOff
          | true =>
            refine ⟨?_, fun hOff => by cases hOff⟩
            rw [resolve_write, if_pos rfl]
        · constructor
          · rw [resolve_write, if_neg hStrict, hWritten.resolve]
          · intro hOff
            rw [explicitlyOff_write _ _ _ _ _ fun hSame => absurd hSame hStrict, if_neg hStrict,
              hWritten.off hOff]
    · exact hWritten
  · exact hWritten

end Holds

/-- No other value implies one of the setting, so a value changes nothing but its own. -/
theorem resolve_put_of_ne_strict (layers : Layers) (s : Setting) (value : Value)
    (hStrict : s' ≠ .strict) :
    (layers.put s value).resolve s' = if s' = s then value else layers.resolve s' := by
  have hWritten := resolve_write layers s s' value true
  unfold put
  split
  · unfold applyImplied
    split
    · next implied hImplied =>
      obtain ⟨rfl, rfl⟩ := implied_eq hImplied
      split
      · exact hWritten
      · rw [resolve_write, if_neg hStrict]
        exact hWritten
    · exact hWritten
  · exact hWritten

/-- The base layer gives the setting the value, and no overlay another one. -/
structure Fixed (layers : Layers) (s : Setting) (value : Value) : Prop where
  base : (layers.base.get? s).getD (.flag false) = value
  overlays : ∀ overlay ∈ layers.overlays.toList, overlay.get? s = none

namespace Fixed

theorem resolve (h : layers.Fixed s value) : layers.resolve s = value := by
  have hNone : layers.overlays.toList.findSome? (·.get? s) = none :=
    List.findSome?_eq_none_iff.mpr h.overlays
  rw [Layers.resolve, hNone]
  exact h.base

theorem push (h : layers.Fixed s value) : layers.push.Fixed s value :=
  ⟨h.base, List.forall_mem_cons.mpr ⟨rfl, h.overlays⟩⟩

theorem pop (h : layers.Fixed s value) : layers.pop.Fixed s value := by
  refine ⟨h.base, fun overlay hOverlay => ?_⟩
  obtain ⟨base, top, below⟩ := layers
  cases below with
  | nil => exact h.overlays overlay hOverlay
  | cons next rest => exact h.overlays overlay (List.mem_cons_of_mem _ hOverlay)

theorem write (h : layers.Fixed s value) (hOther : s ≠ s') (value' : Value) (explicit : Bool) :
    (layers.write s' value' explicit).Fixed s value := by
  obtain ⟨hTop, hBelow⟩ := List.forall_mem_cons.mp h.overlays
  refine ⟨h.base, List.forall_mem_cons.mpr ⟨?_, hBelow⟩⟩
  rw [get?_top_write, if_neg hOther]
  exact hTop

/-- Values of other settings imply no value of this one. -/
theorem put (h : layers.Fixed s value) (hStrict : s ≠ .strict) (hOther : s ≠ s') (value' : Value) :
    (layers.put s' value').Fixed s value := by
  have hWritten := h.write hOther value' true
  unfold Layers.put
  split
  · unfold applyImplied
    split
    · next implied hImplied =>
      split
      · exact hWritten
      · exact hWritten.write ((implied_eq hImplied).2 ▸ hStrict) _ _
    · exact hWritten
  · exact hWritten

end Fixed

/-- The options are the base layer. -/
theorem fixed_ofOptions (options : Options) (hStrict : s ≠ .strict) :
    (ofOptions options).1.Fixed s ((ofOptions options).1.resolve s) := by
  have hImplies := implies_ofOptions options
  have hOverlays : ∀ overlay ∈ (ofOptions options).1.overlays.toList, overlay.get? s = none := by
    intro overlay hOverlay
    rw [Stack.toList, hImplies.below, List.mem_singleton] at hOverlay
    rw [hOverlay, hImplies.top s, if_neg fun hBoth => hStrict hBoth.1]
  exact ⟨(Fixed.resolve ⟨rfl, hOverlays⟩).symm, hOverlays⟩

/-- Where the base comes from: a value in it is that of an entry. By induction on the entries. -/
theorem mem_of_readBase {entries : List (String × Value)}
    {acc : OrderedMap Setting Value × List Problem}
    (h : (entries.foldl readBase.step acc).1.get? s = some value) :
    (s.name, value) ∈ entries ∨ acc.1.get? s = some value := by
  induction entries generalizing acc with
  | nil => exact .inr h
  | cons entry rest ih =>
    rcases ih h with hRest | hStep
    · exact .inl (List.mem_cons_of_mem _ hRest)
    · unfold readBase.step at hStep
      split at hStep
      · exact .inr hStep
      · split at hStep
        · exact .inr hStep
        · next named hNamed =>
          split at hStep
          · rw [OrderedMap.get?_insert] at hStep
            split at hStep
            · next hSame =>
              obtain rfl := hSame
              obtain rfl := Option.some.inj hStep
              exact .inl (ofName?_eq_some hNamed ▸ List.mem_cons_self ..)
            · exact .inr hStep
          · exact .inr hStep

/-- A setting that is on in the beginning, other than by implication, is on in the options. -/
theorem mem_of_enabled_ofOptions {options : Options} (hStrict : s ≠ .strict)
    (h : (ofOptions options).1.enabled s) :
    ∃ value, (s.name, value) ∈ options.entries ∧ value.isOn := by
  have hBase :
      (ofOptions options).1.resolve s = ((readBase options).1.get? s).getD (.flag false) := by
    rw [← (implies_ofOptions options).base]
    exact (fixed_ofOptions options hStrict).base.symm
  rw [enabled, hBase] at h
  cases hValue : (readBase options).1.get? s with
  | none =>
    rw [hValue] at h
    cases h
  | some value =>
    rw [hValue] at h
    rcases mem_of_readBase hValue with hMem | hNone
    · exact ⟨value, hMem, h⟩
    · cases hNone

end Layers

/-! ## Values set one after another -/

/-- A value that a directive set, with the number of overlays that were open then. -/
structure Posting where
  depth : Nat
  setting : Setting
  value : Value

namespace Layers

variable {layers : Layers} {s : Setting} {value : Value}

/-- The settings after those of the values that were set while so many overlays were open. -/
def carryOut (layers : Layers) (depth : Nat) (postings : List Posting) : Layers :=
  postings.foldl (fun l p => if p.depth = depth then l.put p.setting p.value else l) layers

/-- Postings are carried out one after the other. -/
theorem carryOut_append (layers : Layers) (depth : Nat) (ps qs : List Posting) :
    layers.carryOut depth (ps ++ qs) = (layers.carryOut depth ps).carryOut depth qs :=
  List.foldl_append

/-- Putting a setting opens no layer. -/
theorem depth_put (layers : Layers) (s : Setting) (value : Value) :
    (layers.put s value).depth = layers.depth := by
  unfold put
  split
  · exact depth_applyImplied _ _
  · rfl

/-- Carrying out postings opens no layer. -/
theorem depth_carryOut (layers : Layers) (depth : Nat) (ps : List Posting) :
    (layers.carryOut depth ps).depth = layers.depth := by
  induction ps generalizing layers with
  | nil => rfl
  | cons p ps ih =>
    refine (ih _).trans ?_
    dsimp only
    split
    · exact depth_put ..
    · rfl

/-- By induction on the values: the overlays around the innermost one stay as they were. -/
theorem Covered.carryOut {lower : Layers} {overlay : Overlay} {opened : List Overlay}
    (h : Covered lower (overlay :: opened) layers) (depth : Nat) (ps : List Posting) :
    ∃ overlay', Covered lower (overlay' :: opened) (layers.carryOut depth ps) := by
  induction ps generalizing layers overlay with
  | nil => exact ⟨overlay, h⟩
  | cons p ps ih =>
    have hStep : ∃ overlay', Covered lower (overlay' :: opened)
        (if p.depth = depth then layers.put p.setting p.value else layers) := by
      split
      · exact h.put p.setting p.value
      · exact ⟨overlay, h⟩
    obtain ⟨overlay', hCovered⟩ := hStep
    exact ih hCovered

/-- By induction on the values: a value stays in force unless its setting is set again. -/
theorem Holds.carryOut (h : layers.Holds s value) (hValid : s.validate value = .ok ()) {depth : Nat}
    {ps : List Posting} (hOthers : ∀ p ∈ ps, p.depth = depth → p.setting ≠ s) :
    (layers.carryOut depth ps).Holds s value := by
  induction ps generalizing layers with
  | nil => exact h
  | cons p ps ih =>
    refine ih ?_ fun q hq => hOthers q (List.mem_cons_of_mem _ hq)
    dsimp only
    split
    · next hDepth => exact h.put_other hValid (hOthers p (List.mem_cons_self ..) hDepth).symm _
    · exact h

/-- By induction on the values: the last of those that were set while so many overlays were open. -/
theorem resolve_carryOut (hStrict : s ≠ .strict) (depth : Nat) (ps : List Posting) :
    (layers.carryOut depth ps).resolve s =
      ((ps.filter fun p => p.depth = depth ∧ p.setting = s).getLast?.map (·.value)).getD
        (layers.resolve s) := by
  induction ps generalizing layers with
  | nil => rfl
  | cons p ps ih =>
    refine ih.trans ?_
    dsimp only
    rw [List.filter_cons]
    by_cases hDepth : p.depth = depth
    · rw [if_pos hDepth, resolve_put_of_ne_strict _ _ _ hStrict]
      by_cases hSame : s = p.setting
      · rw [if_pos hSame, if_pos (decide_eq_true ⟨hDepth, hSame.symm⟩), List.getLast?_cons]
        cases (ps.filter fun p => p.depth = depth ∧ p.setting = s).getLast? <;> rfl
      · rw [if_neg hSame, if_neg (by simpa using fun _ => Ne.symm hSame)]
    · rw [if_neg hDepth, if_neg (by simp [hDepth])]

end Layers

end ScriptLint.Setting
