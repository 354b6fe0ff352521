import ScriptLint.Proofs.Isolation.Settings
import ScriptLint.Proofs.Scope.Claims

/-!
# Names in two runs

A setting decides which findings are made about names, what is noted about uses that are still
undeclared, and which unread bindings are listed. It never decides what is declared, read or
hoisted.

- `Tracker.without`: a tracker without all that the setting decides about.
- `Tracker.Alike`: trackers that are the same otherwise.
- One lemma for each change of a tracker, up to `Alike.finish`.
-/

namespace ScriptLint

/-- The setting does not decide about the code. -/
def Setting.spares (p : Setting) (code : String) : Bool := !p.governs.contains code

/-- A setting affects itself, and possibly `strict`. -/
theorem Setting.not_affects {p s : Setting} (hp : p ≠ s) (hs : s ≠ .strict) : ¬p.affects s := by
  rintro (h | h)
  · exact hp h.symm
  · cases p <;> cases h
    exact hs rfl

namespace OrderedMap

variable {κ ν μ : Type} [DecidableEq κ]

/-- The map with other values. -/
def mapValues (m : OrderedMap κ ν) (f : ν → μ) : OrderedMap κ μ :=
  ⟨m.entries.map fun entry => (entry.1, f entry.2)⟩

variable (m : OrderedMap κ ν) (f : ν → μ)

/-- A lookup in the mapped values. -/
theorem get?_mapValues (key : κ) : (m.mapValues f).get? key = (m.get? key).map f := by
  obtain ⟨entries⟩ := m
  show (entries.map _).lookup key = (entries.lookup key).map f
  induction entries with
  | nil => rfl
  | cons entry rest ih =>
    rw [List.map_cons, List.lookup_cons, List.lookup_cons, ih]
    cases key == entry.1 <;> rfl

theorem contains_mapValues (key : κ) : (m.mapValues f).contains key = m.contains key := by
  rw [contains, contains, get?_mapValues, Option.isSome_map]

/-- Modifying a value before or after the mapping. -/
theorem mapValues_modify (key : κ) {g : ν → ν} {g' : μ → μ} (h : ∀ v, f (g v) = g' (f v)) :
    (m.modify key g).mapValues f = (m.mapValues f).modify key g' := by
  simp only [mapValues, modify, List.map_map]
  congr 1
  refine List.map_congr_left fun entry _ => ?_
  by_cases hKey : entry.1 = key <;> simp [hKey, h]

/-- Inserting a value before or after the mapping. -/
theorem mapValues_insert (key : κ) (value : ν) :
    (m.insert key value).mapValues f = (m.mapValues f).insert key (f value) := by
  unfold insert
  rw [contains_mapValues]
  split
  · exact m.mapValues_modify f key fun _ => rfl
  · simp [mapValues]

theorem mapValues_erase (key : κ) : (m.erase key).mapValues f = (m.mapValues f).erase key := by
  simp [mapValues, erase, List.filter_map, Function.comp_def]

end OrderedMap

namespace Scope

open Setting (Layers)

/-- A use without what the setting decides about it. -/
def Pending.without (p : Setting) (r : Pending) : Pending :=
  { r with
    undef := p ≠ .undef && r.undef
    lateDef := if p = .latedef then .off else r.lateDef }

namespace Tracker

/-- A tracker without what the setting decides about. -/
def without (p : Setting) (t : Tracker) : Tracker :=
  { t with
    pending := t.pending.mapValues (·.map (·.without p))
    unused := if p = .unused then [] else t.unused
    findings := t.findings.filter (p.spares ·.finding.code) }

/-- The trackers differ at most in what the setting decides about. -/
def Alike (p : Setting) (t t' : Tracker) : Prop := t'.without p = t.without p

variable {p : Setting} {t t' : Tracker} {layers layers' : Layers}

/-- What is found about a redefinition is governed by one setting. -/
theorem governs_of_redefinition? {name : String} {shadow : Setting.ShadowPolicy} {f : Finding}
    (h : t.redefinition? name shadow = some f) : Setting.shadow.governs.contains f.code := by
  have hReported {b : Binding} {finding : Finding}
    (hf : Setting.shadow.governs.contains finding.code)
      (h : (if b.kind = .functionName then none else some finding) = some f) :
      Setting.shadow.governs.contains f.code := by
    split at h
    · cases h
    · exact Option.some.inj h ▸ hf
  unfold redefinition? at h
  dsimp only at h
  split at h
  · cases h
  · split at h
    · exact hReported rfl h
    · split at h
      · obtain ⟨b, -, hb⟩ := Option.bind_eq_some_iff.mp h
        exact hReported rfl hb
      · cases h

namespace Alike

theorem refl (p : Setting) (t : Tracker) : Alike p t t := rfl

theorem symm (h : Alike p t t') : Alike p t' t := Eq.symm h

/-- Alikeness is transitive. -/
theorem trans {u : Tracker} (h : Alike p t t') (h' : Alike p t' u) : Alike p t u := Eq.trans h' h

/-! ## What is the same -/

/-- What does not depend on what the setting decides about is the same. -/
theorem same {β : Type} {f : Tracker → β} (h : Alike p t t') (hf : ∀ t, f (t.without p) = f t) :
    f t' = f t := by
  rw [← hf t', h, hf t]

/-- Alike trackers report the same, but for the codes the setting governs. -/
theorem findings (h : Alike p t t') : t'.findings.filter (p.spares ·.finding.code) =
    t.findings.filter (p.spares ·.finding.code) :=
  congrArg Tracker.findings h

theorem frame (h : Alike p t t') (id : FrameId) : t'.frame id = t.frame id :=
  h.same (f := (Tracker.frame · id)) fun _ => rfl

theorem predefined (h : Alike p t t') : t'.predefined = t.predefined := h.same fun _ => rfl

theorem binding? (h : Alike p t t') (id : FrameId) (name : String) :
    t'.binding? id name = t.binding? id name :=
  h.same (f := (Tracker.binding? · id name)) fun _ => rfl

/-- Names resolve alike. -/
theorem lookup (h : Alike p t t') (name : String) : t'.lookup name = t.lookup name :=
  h.same (f := (Tracker.lookup · name)) fun _ => rfl

theorem resolvesImplicitly (h : Alike p t t') (name : String) :
    t'.resolvesImplicitly name = t.resolvesImplicitly name :=
  h.same (f := (Tracker.resolvesImplicitly · name)) fun _ => rfl

/-! ## Small changes -/

/-- A change that neither looks at what the setting decides about nor touches it. -/
theorem map {f : Tracker → Tracker} (hf : ∀ t, (f t).without p = f (t.without p))
    (h : Alike p t t') : Alike p (f t) (f t') := by
  rw [Alike, hf, hf, h]

/-- By induction on the list: what is done for each element keeps trackers alike. -/
theorem foldl {β : Type} {f g : Tracker → β → Tracker} (l : List β)
    (hf : ∀ {t t'} b, Alike p t t' → Alike p (f t b) (g t' b)) (h : Alike p t t') :
    Alike p (l.foldl f t) (l.foldl g t') := by
  induction l generalizing t t' with
  | nil => exact h
  | cons b rest ih => exact ih (hf b h)

/-- The same finding is added to both. -/
theorem report (h : Alike p t t') (f : Finding) (line column : Nat) :
    Alike p (t.report f line column) (t'.report f line column) := by
  have hReport (t : Tracker) : (t.report f line column).without p =
      { t.without p with findings := (t.without p).findings ++
          [(⟨f, line, column⟩ : PlacedFinding)].filter (p.spares ·.finding.code) } := by
    simp [without, Tracker.report, List.filter_append]
  rw [Alike, hReport, hReport, h]

/-- What the setting governs may be reported on one side only. -/
theorem report_governed (h : Alike p t t') {f : Finding} (hf : p.governs.contains f.code)
    (line column : Nat) : Alike p t (t'.report f line column) := by
  refine h.trans ?_
  have hSpared : p.spares f.code = false := by rw [Setting.spares, hf, Bool.not_true]
  simp [Alike, without, Tracker.report, List.filter_append, hSpared]

/-- A finding under a condition: the condition is the same, or the setting governs the finding. -/
theorem reportIf (h : Alike p t t') {c c' : Prop} [Decidable c] [Decidable c'] {f : Finding}
    (line column : Nat) (hc : (c ↔ c') ∨ p.governs.contains f.code) :
    Alike p
      (if c then t.report f line column else t) (if c' then t'.report f line column else t') := by
  rcases hc with hc | hf
  · simp only [hc]
    split
    · exact h.report f line column
    · exact h
  · have hEach {c : Prop} [Decidable c] (t : Tracker) :
        Alike p t (if c then t.report f line column else t) := by
      split
      · exact (refl p t).report_governed hf line column
      · exact .refl p t
    exact ((hEach t).symm.trans h).trans (hEach t')

/-! ## Using names -/

/-- A use out of scope is reported in both runs, or the setting governs the report. -/
theorem reportOutOfScope (h : Alike p t t') (hl : Layers.Agree p.affects layers layers')
    (id : FrameId) (name : String) (line column : Nat) :
    Alike p (t.reportOutOfScope id name line column layers)
      (t'.reportOutOfScope id name line column layers') := by
  refine h.reportIf line column ?_
  by_cases hp : p = .funcscope
  · exact .inr (hp ▸ rfl)
  · rw [h.binding?, hl.enabled (Setting.not_affects hp (by decide))]
    exact .inl Iff.rfl

/-- A use that is deferred is remembered alike, but for what only the setting decides. -/
theorem defer (h : Alike p t t') (hl : Layers.Agree p.affects layers layers') (name : String)
    (line column : Nat) (isWrite : Bool) :
    Alike p (t.defer name line column isWrite layers)
      (t'.defer name line column isWrite layers') := by
  -- what only the setting decides is left out of the deferred use
  have hUndef : (p ≠ .undef && layers'.enabled .undef) = (p ≠ .undef && layers.enabled .undef) := by
    by_cases hp : p = .undef
    · simp [hp]
    · rw [hl.enabled (Setting.not_affects hp (by decide))]
  have hLate : (if p = .latedef then .off else layers'.lateDefPolicy) =
      if p = .latedef then .off else layers.lateDefPolicy := by
    by_cases hp : p = .latedef
    · simp [hp]
    · rw [Layers.lateDefPolicy, Layers.lateDefPolicy,
        hl.resolve (Setting.not_affects hp (by decide))]
  let use (t : Tracker) (layers : Layers) : Pending :=
    { line, column, isWrite
      frame := t.current
      function := t.functionFrame
      undef := layers.enabled .undef
      lateDef := layers.lateDefPolicy }
  have hDefer (t : Tracker) (layers : Layers) :
      (t.defer name line column isWrite layers).without p = { t.without p with
        pending := (t.without p).pending.insert name
          ((use (t.without p) layers).without p :: ((t.without p).pending.get? name).getD [])
            } := by
    simp only [without, Tracker.defer, OrderedMap.mapValues_insert, OrderedMap.get?_mapValues]
    cases t.pending.get? name <;> rfl
  rw [Alike, hDefer, hDefer, h]
  simp only [use, Pending.without, hUndef, hLate]

theorem useDirectiveGlobal (h : Alike p t t') (name : String) :
    Alike p (t.useDirectiveGlobal name) (t'.useDirectiveGlobal name) :=
  h.map (f := (Tracker.useDirectiveGlobal · name)) fun _ => rfl

theorem markUsed (h : Alike p t t') (id : FrameId) (name : String) (line : Nat) :
    Alike p (t.markUsed id name line) (t'.markUsed id name line) :=
  h.map (f := (Tracker.markUsed · id name line)) fun _ => rfl

/-- A name that is read resolves alike. -/
theorem reference (h : Alike p t t') (hl : Layers.Agree p.affects layers layers') (name : String)
    (line column : Nat) :
    Alike p (t.reference name line column layers) (t'.reference name line column layers') := by
  unfold Tracker.reference
  rw [h.lookup, h.resolvesImplicitly, h.predefined]
  split
  · exact (h.markUsed _ _ _).reportOutOfScope hl _ _ _ _
  · split
    · exact h
    · split
      · exact h.useDirectiveGlobal name
      · exact h.defer hl _ _ _ _

theorem referenceGuarded (h : Alike p t t') (name : String) (line : Nat) :
    Alike p (t.referenceGuarded name line) (t'.referenceGuarded name line) := by
  unfold Tracker.referenceGuarded
  rw [h.lookup, h.predefined]
  split
  · exact h.markUsed _ _ _
  · split
    · exact h.useDirectiveGlobal name
    · exact h

/-- A name that is written resolves alike. -/
theorem assign (h : Alike p t t') (hl : Layers.Agree p.affects layers layers') (name : String)
    (line column : Nat) :
    Alike p (t.assign name line column layers) (t'.assign name line column layers') := by
  -- a constant, a binding, a predefined name or a use to be resolved later
  unfold Tracker.assign
  rw [h.lookup, h.resolvesImplicitly, h.predefined]
  split
  · rw [h.binding?]
    dsimp only
    split
    · exact (h.report _ _ _).reportOutOfScope hl _ _ _ _
    · exact h.reportOutOfScope hl _ _ _ _
  · split
    · exact h
    · split
      · dsimp only
        split
        · exact h.useDirectiveGlobal name
        · exact (h.useDirectiveGlobal name).report _ _ _
      · exact h.defer hl _ _ _ _

/-! ## Pending uses -/

/-- The same uses are taken, and those that stay pending are alike. -/
theorem takePending (h : Alike p t t') (name : String) (ancestor : FrameId) :
    (t'.takePending name ancestor).1.map (·.without p) =
    (t.takePending name ancestor).1.map (·.without p) ∧
      Alike p (t.takePending name ancestor).2 (t'.takePending name ancestor).2 := by
  -- taking uses over commutes with leaving out what the setting decides
  have hTake (t : Tracker) : (t.without p).takePending name ancestor =
      ((t.takePending name ancestor).1.map (·.without p),
        (t.takePending name ancestor).2.without p) := by
    have hGet : (t.without p).pending.get? name = (t.pending.get? name).map (·.map (·.without p)) :=
      OrderedMap.get?_mapValues ..
    have hFilter (refs : List Pending) (test : Pending → Bool)
      (hTest : ∀ r, test (r.without p) = test r) :
        (refs.map (·.without p)).filter test = (refs.filter test).map (·.without p) := by
      rw [List.filter_map]
      congr 2
      exact funext hTest
    have hLeft (rest : List Pending) :
        (if (rest.map (·.without p)).isEmpty then (t.without p).pending.erase name
          else (t.without p).pending.modify name fun _ => rest.map (·.without p)) =
        (if rest.isEmpty then t.pending.erase name else
          t.pending.modify name fun _ => rest).mapValues (·.map (·.without p)) := by
      rw [List.isEmpty_map]
      split
      · exact (t.pending.mapValues_erase _ name).symm
      · symm
        exact t.pending.mapValues_modify (List.map (·.without p)) name fun _ => rfl
    unfold Tracker.takePending
    rw [hGet]
    cases t.pending.get? name with
    | none => rfl
    | some refs =>
      simp only [Option.map_some, List.partition_eq_filter_filter]
      rw [hFilter refs _ fun _ => rfl, hFilter refs _ fun _ => rfl, ← List.map_reverse]
      exact Prod.ext rfl (congrArg (fun pending => { t.without p with pending }) (hLeft _))
  have hBoth :
      (t'.without p).takePending name ancestor = (t.without p).takePending name ancestor := by
    rw [h]
  rw [hTake, hTake] at hBoth
  exact Prod.mk.inj hBoth

/-- Reads mark the binding used alike. -/
theorem markReads (h : Alike p t t') (id : FrameId) (name : String) {refs refs' : List Pending}
    (hRefs : refs'.map (·.without p) = refs.map (·.without p)) :
    Alike p (t.markReads id name refs) (t'.markReads id name refs') := by
  have hLines (refs : List Pending) : (refs.filter (!·.isWrite)).map (·.line) =
      ((refs.map (·.without p)).filter (!·.isWrite)).map (·.line) := by
    rw [List.filter_map, List.map_map]
    rfl
  have hFold (t : Tracker) (refs : List Pending) : t.markReads id name refs =
      ((refs.filter (!·.isWrite)).map (·.line)).foldl (·.markUsed id name ·) t :=
    List.foldl_map.symm
  rw [hFold, hFold, hLines refs, hLines refs', hRefs]
  exact h.foldl _ fun line h => h.markUsed id name line

/-! ## Declaring names -/

/-- A declaration claims the same uses. -/
theorem claimPending (h : Alike p t t') (name : String) (id : FrameId) (kind : BindingKind)
    (line column : Nat) :
    Alike p (t.claimPending name id kind line column)
      (t'.claimPending name id kind line column) := by
  obtain ⟨hClaimed, hRest⟩ := h.takePending name id
  refine (hRest.markReads id name hClaimed).reportIf line column ?_
  -- `latedef` governs the report on late uses, which every other setting leaves as it was
  by_cases hp : p = .latedef
  · exact .inr (hp ▸ rfl)
  · have hLate (refs : List Pending) (function : FrameId) : refs.any (isLate function kind) =
        (refs.map (·.without p)).any (isLate function kind) := by
      rw [List.any_map]
      congr 1
      funext r
      simp only [Function.comp, isLate, Pending.without, if_neg hp]
    have hSame :
        (t'.takePending name id).1.any
        (isLate ((t'.takePending name id).2.frame id).function kind) =
        (t.takePending name id).1.any
          (isLate ((t.takePending name id).2.frame id).function kind) := by
      rw [hLate, hLate (t.takePending name id).1, hClaimed, hRest.frame]
    exact .inl (hSame ▸ Iff.rfl)

/-- A new binding is the same in both. -/
theorem bindNew (h : Alike p t t') (name : String) (id : FrameId) (kind : BindingKind)
    (line column : Nat) :
    Alike p (t.bindNew name id kind line column) (t'.bindNew name id kind line column) := by
  have hBound :
      Alike p (t.bind id name { line, column, kind }) (t'.bind id name { line, column, kind }) :=
    h.map (f := (Tracker.bind · id name { line, column, kind })) fun _ => rfl
  unfold Tracker.bindNew
  rw [h.binding?]
  split
  · split
    · exact hBound.claimPending name id kind line column
    · exact h
  · exact hBound.claimPending name id kind line column

/-- A redefinition is reported on both sides or the setting governs what is reported. -/
theorem reportRedefinition (h : Alike p t t') (hl : Layers.Agree p.affects layers layers')
    (name : String) (line column : Nat) :
    Alike p (t.reportAny (t.redefinition? name layers.shadowPolicy) line column)
      (t'.reportAny (t'.redefinition? name layers'.shadowPolicy) line column) := by
  by_cases hp : p = .shadow
  · have hEach (t : Tracker) (layers : Layers) :
        Alike p t (t.reportAny (t.redefinition? name layers.shadowPolicy) line column) := by
      cases hf : t.redefinition? name layers.shadowPolicy with
      | none => exact .refl p t
      | some f => exact (refl p t).report_governed (hp ▸ governs_of_redefinition? hf) line column
    exact ((hEach t layers).symm.trans h).trans (hEach t' layers')
  · have hPolicy : layers'.shadowPolicy = layers.shadowPolicy := by
      rw [Layers.shadowPolicy, Layers.shadowPolicy, hl.resolve (Setting.not_affects hp (by decide))]
    have hFound :
        t'.redefinition? name layers'.shadowPolicy = t.redefinition? name layers.shadowPolicy := by
      rw [hPolicy]
      exact h.same (f := (Tracker.redefinition? · name layers.shadowPolicy)) fun _ => rfl
    rw [hFound]
    cases t.redefinition? name layers.shadowPolicy with
    | none => exact h
    | some f => exact h.report f line column

/-- A predefined name declared again is reported in both runs, if at all. -/
theorem reportPredefined (h : Alike p t t') (hl : Layers.Agree p.affects layers layers')
    (name : String) (id : FrameId) (kind : BindingKind) (line column : Nat) :
    Alike p (t.reportPredefined name id kind layers.shadowPolicy line column)
      (t'.reportPredefined name id kind layers'.shadowPolicy line column) := by
  refine h.reportIf line column ?_
  by_cases hp : p = .shadow
  · exact .inr (hp ▸ rfl)
  · have hPolicy : layers'.shadowPolicy = layers.shadowPolicy := by
      rw [Layers.shadowPolicy, Layers.shadowPolicy, hl.resolve (Setting.not_affects hp (by decide))]
    rw [h.frame, h.predefined, hPolicy]
    exact .inl Iff.rfl

/-- A declared name is bound alike. -/
theorem declare (h : Alike p t t') (hl : Layers.Agree p.affects layers layers') (name : String)
    (kind : BindingKind) (line column : Nat) :
    Alike p (t.declare name kind line column layers)
      (t'.declare name kind line column layers') := by
  -- lexical names go to the current frame, the others up to the function's
  have hFrame : t'.declarationFrame = t.declarationFrame := h.same fun _ => rfl
  have hBinds (id : FrameId) : t'.binds name id = t.binds name id :=
    h.same (f := (Tracker.binds · name id)) fun _ => rfl
  have hNew {t t' : Tracker} (h : Alike p t t') (id : FrameId) :=
    (h.reportPredefined hl name id kind line column).bindNew name id kind line column
  have hAgain := h.reportRedefinition hl name line column
  unfold Tracker.declare
  rw [hFrame]
  dsimp only
  split
  · rw [hBinds]
    split
    · exact h.report _ _ _
    · exact hNew h _
  · split
    · exact hNew hAgain _
    · exact hNew hAgain _
    · exact hNew hAgain _
    · exact hNew h _

/-! ## Leaving frames -/

/-- Listing a binding as unused is the same on both sides. -/
theorem addUnused (h : Alike p t t') (policy : Setting.UnusedPolicy) (b : UnusedBinding) :
    Alike p (t.addUnused policy b) (t'.addUnused policy b) := by
  have hReported :=
    h.reportIf (f := .unused b.name) b.line b.column (.inl (Iff.refl (¬policy = .off)))
  have hListed {t t' : Tracker} (h : Alike p t t') :
      Alike p { t with unused := t.unused ++ [b] } { t' with unused := t'.unused ++ [b] } := by
    have hList (t : Tracker) : ({ t with unused := t.unused ++ [b] } : Tracker).without p =
        { t.without p with unused := if p = .unused then [] else (t.without p).unused ++ [b] } := by
      by_cases hp : p = .unused <;> simp [without, hp]
    rw [Alike, hList, hList, h]
  have hSplit (t : Tracker) : t.addUnused policy b =
      let t := if ¬policy = .off then t.report (.unused b.name) b.line b.column else t
      { t with unused := t.unused ++ [b] } := by
    by_cases hPolicy : policy = .off <;> simp [Tracker.addUnused, hPolicy]
  rw [hSplit, hSplit]
  exact hListed hReported

/-- If the setting decides about unused bindings, listing one makes no difference. -/
theorem addUnused_governed (p_eq : p = .unused) (t : Tracker) (policy : Setting.UnusedPolicy)
    (b : UnusedBinding) : Alike p t (t.addUnused policy b) := by
  subst p_eq
  have hListed (t : Tracker) : Alike .unused t { t with unused := t.unused ++ [b] } := rfl
  unfold Tracker.addUnused
  dsimp only
  split
  · exact hListed t
  · exact .trans ((refl _ t).report_governed rfl _ _) (hListed _)

/-- Bindings to be listed: they are the same, unless the setting decides about them. -/
theorem addAllUnused (h : Alike p t t') (hl : Layers.Agree p.affects layers layers')
    (listed : Setting.UnusedPolicy → List UnusedBinding) :
    Alike p ((listed layers.unusedPolicy).foldl (·.addUnused layers.unusedPolicy ·) t)
      ((listed layers'.unusedPolicy).foldl (·.addUnused layers'.unusedPolicy ·) t') := by
  by_cases hp : p = .unused
  · have hEach (policy : Setting.UnusedPolicy) (bs : List UnusedBinding) (t : Tracker) :
        Alike p t (bs.foldl (·.addUnused policy ·) t) := by
      induction bs generalizing t with
      | nil => exact .refl p t
      | cons b rest ih => exact (addUnused_governed hp t policy b).trans (ih _)
    exact ((hEach _ _ t).symm.trans h).trans (hEach _ _ t')
  · have hPolicy : layers'.unusedPolicy = layers.unusedPolicy := by
      rw [Layers.unusedPolicy, Layers.unusedPolicy, hl.resolve (Setting.not_affects hp (by decide))]
    rw [hPolicy]
    exact h.foldl _ fun b h => h.addUnused _ b

/-- The unused bindings of a frame are the same. -/
theorem evaluateUnused (h : Alike p t t') (hl : Layers.Agree p.affects layers layers')
    (id : FrameId) (lexicalOnly : Bool) :
    Alike p (t.evaluateUnused id layers.unusedPolicy lexicalOnly)
      (t'.evaluateUnused id layers'.unusedPolicy lexicalOnly) := by
  have hFold (t : Tracker) (policy : Setting.UnusedPolicy) :
      t.evaluateUnused id policy lexicalOnly =
      ((unreadBindings (t.frame id) t.exported policy lexicalOnly).map
        fun entry => ⟨entry.1, entry.2.line, entry.2.column, entry.2.kind⟩).foldl
          (·.addUnused policy ·) t := by
    rw [List.foldl_map]
    rfl
  have hExported : t'.exported = t.exported := h.same fun _ => rfl
  rw [hFold, hFold, h.frame, hExported]
  exact h.addAllUnused hl fun policy =>
    (unreadBindings (t.frame id) t.exported policy lexicalOnly).map _

/-- So are those of the global frame. -/
theorem evaluateGlobals (h : Alike p t t') (hl : Layers.Agree p.affects layers layers') :
    Alike p (t.evaluateGlobals layers.unusedPolicy) (t'.evaluateGlobals layers'.unusedPolicy) := by
  have hFold (t : Tracker) (policy : Setting.UnusedPolicy) : t.evaluateGlobals policy =
      ((t.directiveGlobals.entries.filter fun entry =>
        !entry.2.used && !t.exported.contains entry.1).map
        fun entry => ⟨entry.1, entry.2.line, entry.2.column, .global⟩).foldl
          (·.addUnused policy ·) t := by
    rw [List.foldl_map]
    rfl
  have hExported : t'.exported = t.exported := h.same fun _ => rfl
  have hGlobals : t'.directiveGlobals = t.directiveGlobals := h.same fun _ => rfl
  rw [hFold, hFold, hExported, hGlobals]
  exact h.addAllUnused hl fun _ => _

/-- A hoisted binding is received alike. -/
theorem receive (h : Alike p t t') (function : FrameId) (name : String) (b : Binding) :
    Alike p (t.receive function name b) (t'.receive function name b) := by
  unfold Tracker.receive
  rw [h.binding?]
  split
  · exact h.map (f := (Tracker.modifyBinding · function name (·.join b))) fun _ => rfl
  · exact h.map (f := (Tracker.bind · function name { b with hoisted := true })) fun _ => rfl

/-- A binding that leaves its block claims the same uses of the function. -/
theorem hoist (h : Alike p t t') (hl : Layers.Agree p.affects layers layers') (function : FrameId)
    (name : String) (b : Binding) :
    Alike p (t.hoist function name b (layers.enabled .funcscope))
      (t'.hoist function name b (layers'.enabled .funcscope)) := by
  -- the uses claimed from the function are gone through in their order
  obtain ⟨hClaimed, hRest⟩ := (h.receive function name b).takePending name function
  let claim (funcscope : Bool) (t : Tracker) (r : Pending) : Tracker :=
    let t := if r.isWrite then t else t.markUsed function name r.line
    if r.function = function && !funcscope then t.report (.outOfScope name) r.line r.column else t
  have hFold (t : Tracker) (funcscope : Bool) : t.hoist function name b funcscope =
      (((t.receive function name b).takePending name function).1.map (·.without p)).foldl
        (claim funcscope) ((t.receive function name b).takePending name function).2 := by
    rw [List.foldl_map]
    rfl
  rw [hFold, hFold, hClaimed]
  refine hRest.foldl _ fun r h => ?_
  have hRead {t t' : Tracker} (h : Alike p t t') :
      Alike p (if r.isWrite then t else t.markUsed function name r.line)
      (if r.isWrite then t' else t'.markUsed function name r.line) := by
    split
    · exact h
    · exact h.markUsed function name r.line
  refine (hRead h).reportIf r.line r.column ?_
  by_cases hp : p = .funcscope
  · exact .inr (hp ▸ rfl)
  · rw [hl.enabled (Setting.not_affects hp (by decide))]
    exact .inl Iff.rfl

/-- The same frame is left. -/
theorem exit (h : Alike p t t') (hl : Layers.Agree p.affects layers layers') :
    Alike p (t.exit layers) (t'.exit layers') := by
  have hLeaving : t'.leaving? = t.leaving? := h.same fun _ => rfl
  unfold Tracker.exit
  rw [hLeaving]
  split
  · exact h
  · next id _ =>
    have hPopped : Alike p { t with active := t.active.pop } { t' with active := t'.active.pop } :=
      h.map (f := fun t => { t with active := t.active.pop }) fun _ => rfl
    rw [h.frame]
    dsimp only
    split
    · exact hPopped.evaluateUnused hl id false
    · refine (hPopped.evaluateUnused hl id true).foldl _ fun entry h => ?_
      exact (h.map (f := (Tracker.modifyFrame · id fun f =>
        { f with bindings := f.bindings.erase entry.1 })) fun _ => rfl).hoist hl _ _ _

/-- By induction on the frames left. -/
theorem exitMany (h : Alike p t t') (hl : Layers.Agree p.affects layers layers') (count : Nat) :
    Alike p (t.exitMany layers count) (t'.exitMany layers' count) := by
  induction count generalizing t t' with
  | zero => exact h
  | succ count ih => exact ih (h.exit hl)

/-! ## Directives -/

/-- A global declared by a directive takes the same reads into account. -/
theorem declareGlobal (h : Alike p t t') (name : String) (writable : Bool) (line column : Nat) :
    Alike p (t.declareGlobal name writable line column)
      (t'.declareGlobal name writable line column) := by
  have hReads (t : Tracker) : (t.pendingUses name).any (!·.isWrite) =
      ((t.without p).pendingUses name).any (!·.isWrite) := by
    have hGet : (t.without p).pending.get? name = (t.pending.get? name).map (·.map (·.without p)) :=
      OrderedMap.get?_mapValues ..
    rw [pendingUses, pendingUses, hGet, List.any_reverse, List.any_reverse]
    cases t.pending.get? name with
    | none => rfl
    | some refs =>
      show refs.any _ = (refs.map _).any _
      rw [List.any_map]
      rfl
  refine h.map (f := (Tracker.declareGlobal · name writable line column)) fun t => ?_
  unfold Tracker.declareGlobal
  dsimp only
  rw [hReads]
  simp only [without, OrderedMap.mapValues_erase]

/-! ## The end of a run -/

/-- The uses of a name without what the setting decides about them. -/
def settled (p : Setting) (entry : String × List Pending) : String × List Pending :=
  (entry.1, entry.2.map (·.without p))

/-- What is left out when a use is settled does not concern `undef`. -/
theorem filter_undef (hp : p ≠ .undef) (uses : List Pending) (test : Bool → Bool) {β : Type}
    {f : Pending → β} (hf : ∀ r, f (r.without p) = f r) :
    ((uses.map (·.without p)).filter (test ·.undef)).map f =
    (uses.filter (test ·.undef)).map f := by
  have hUndef : ((fun r : Pending => test r.undef) ∘ Pending.without p) =
      fun r => test r.undef := by
    funext r
    simp [Pending.without, hp]
  rw [List.filter_map, hUndef, List.map_map]
  exact List.map_congr_left fun r _ => hf r

/-- What is still undeclared is reported on both sides, or the setting governs that. -/
theorem reportUndefined (h : Alike p t t') (entries entries' : List (String × List Pending))
    (hEntries : entries'.map (settled p) = entries.map (settled p)) :
    Alike p (entries.foldl Tracker.reportUndefined t)
      (entries'.foldl Tracker.reportUndefined t') := by
  -- `undef` governs every report made here; any other setting keeps the uses that count
  by_cases hp : p = .undef
  · have hOne (t : Tracker) (entry : String × List Pending) :
      Alike p t (t.reportUndefined entry) := by
      simp [Alike, without, Tracker.reportUndefined, Tracker.reportAt, List.filter_append, hp,
        List.filter_map, Function.comp_def, Setting.spares, Setting.governs, Finding.code]
    have hEach (entries : List (String × List Pending)) (t : Tracker) :
        Alike p t (entries.foldl Tracker.reportUndefined t) := by
      induction entries generalizing t with
      | nil => exact .refl p t
      | cons entry rest ih => exact (hOne t entry).trans (ih _)
    exact ((hEach entries t).symm.trans h).trans (hEach entries' t')
  · have hFold (entries : List (String × List Pending)) (t : Tracker) :
        entries.foldl Tracker.reportUndefined t =
          (entries.map (settled p)).foldl Tracker.reportUndefined t := by
      rw [List.foldl_map]
      congr 1
      funext t entry
      exact congrArg (t.reportAt (.notDefined entry.1))
        (filter_undef hp entry.2 id fun _ => rfl).symm
    rw [hFold, hFold entries', hEntries]
    refine h.foldl _ fun entry h => ?_
    have hReport (t : Tracker) : (t.reportUndefined entry).without p =
        { t.without p with
          findings :=
            (t.without p).findings ++ (({} : Tracker).reportUndefined entry).findings.filter
            (p.spares ·.finding.code) } := by
      simp [without, Tracker.reportUndefined, Tracker.reportAt, List.filter_append]
    rw [Alike, hReport, hReport, h]

/-- Names are implied alike. -/
theorem implied?_settled (hp : p ≠ .undef) (entry : String × List Pending) :
    implied? (settled p entry) = implied? entry := by
  have hLines := filter_undef hp entry.2 not (f := (·.line)) fun _ => rfl
  unfold implied? settled
  dsimp only
  rw [hLines]

/-- The end of a run settles the same names; what is implied or unused is the same unless the
setting decides about it. -/
theorem finish (h : Alike p t t') (hl : Layers.Agree p.affects layers layers') :
    Alike p (t.finish layers).2 (t'.finish layers').2 ∧
      (t'.finish layers').1.globals = (t.finish layers).1.globals ∧
      (p ≠ .undef → (t'.finish layers').1.implied = (t.finish layers).1.implied) ∧
      (p ≠ .unused → (t'.finish layers').1.unused = (t.finish layers).1.unused) := by
  have hDepth : t'.active = t.active := h.same fun _ => rfl
  let listed (t : Tracker) (layers : Layers) : Tracker :=
    ((t.exitMany layers t.active.below.length).evaluateUnused 0 layers.unusedPolicy
      false).evaluateGlobals layers.unusedPolicy
  let undeclared (t : Tracker) : List (String × List Pending) :=
    t.pending.entries.map fun entry => (entry.1, entry.2.reverse)
  -- the frames still open are left, the global one evaluated, the pending uses reported
  have hListed : Alike p (listed t layers) (listed t' layers') := by
    simp only [listed]
    rw [hDepth]
    exact ((h.exitMany hl _).evaluateUnused hl 0 false).evaluateGlobals hl
  have hUndeclared : (undeclared (listed t' layers')).map (settled p) =
      (undeclared (listed t layers)).map (settled p) := by
    have hSettled (t : Tracker) : (undeclared t).map (settled p) =
        (t.without p).pending.entries.map fun entry => (entry.1, entry.2.reverse) := by
      simp [undeclared, settled, without, OrderedMap.mapValues, List.map_map, Function.comp_def]
    rw [hSettled, hSettled, hListed]
  have hReported := hListed.reportUndefined _ _ hUndeclared
  refine ⟨?_, ?_, fun hp => ?_, fun hp => ?_⟩
  · exact hReported.map (f := fun t => { t with pending := {}, unused := [] }) fun t => by
      simp [without, OrderedMap.mapValues]
  · exact congrArg (·.bindings.keys) (hReported.frame 0)
  · have hImplied (entries : List (String × List Pending)) :
        entries.filterMap implied? = (entries.map (settled p)).filterMap implied? := by
      rw [List.filterMap_map]
      congr 1
      funext entry
      exact (implied?_settled hp entry).symm
    show (undeclared (listed t' layers')).filterMap implied? =
      (undeclared (listed t layers)).filterMap implied?
    rw [hImplied, hUndeclared, ← hImplied]
  · have hUnused := congrArg Tracker.unused hReported
    simp only [without, if_neg hp] at hUnused
    exact hUnused

end Alike

end Tracker

end Scope

end ScriptLint
