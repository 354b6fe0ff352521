import ScriptLint.Scope.Close
import ScriptLint.Scope.Declare
import ScriptLint.Scope.Use

/-!
# How the scopes evolve

Declaring and using names leaves the frames around the current place alone, and what is found on the
way is about their meaning. Only entering and leaving change the active frames.

- `Tracker.Evolves`: a change of that kind.
- `Tracker.evolves_exit`: leaving a frame takes it off the active ones, whatever it hoists.
-/

namespace ScriptLint

/-- A finding after which the run goes on. -/
def Finding.isOrdinary : Finding → Bool
  | unrecoverable _ | stopping _ => false
  | _ => true

/-- A finding about the meaning of the program, and not about the depth of its blocks. -/
def Finding.isSemantic : Finding → Bool
  | nestedTooDeeply _ => false
  | f => f.phase = .semantic

/-- A finding about a place in the program, and not about a whole line or the end of the run. -/
def Finding.isLocal : Finding → Bool
  | unrecoverable _ | stopping _ | lineTooLong => false
  | _ => true

/-- What a step may report is ordinary. -/
theorem Finding.isOrdinary_of_isLocal {f : Finding} (h : f.isLocal) : f.isOrdinary := by
  cases f <;> first | rfl | cases h

/-- A finding about what a name or a construct means there. -/
def Finding.isRemark : Finding → Bool
  | nestedTooDeeply _ | lineTooLong => false
  | f => f.phase = .semantic

theorem Finding.isSemantic_of_isRemark {f : Finding} (h : f.isRemark) : f.isSemantic := by
  cases f <;> first | rfl | cases h

/-- A remark may be reported by a step. -/
theorem Finding.isLocal_of_isRemark {f : Finding} (h : f.isRemark) : f.isLocal := by
  cases f <;> first | rfl | cases h

theorem Finding.isOrdinary_of_isRemark {f : Finding} (h : f.isRemark) : f.isOrdinary :=
  isOrdinary_of_isLocal (isLocal_of_isRemark h)

namespace Scope.Tracker

/-- The frames around the current place stay, and new findings are about the meaning. -/
structure Evolves (t u : Tracker) : Prop where
  active : u.active = t.active
  findings : ∀ f ∈ u.findings, f ∈ t.findings ∨ f.finding.isRemark

variable (t : Tracker) (name : String) (line column : Nat)

namespace Evolves

variable {t} {u v : Tracker}

/-- Changes follow one another. -/
theorem trans (h : t.Evolves u) (h' : u.Evolves v) : t.Evolves v where
  active := h'.active.trans h.active
  findings f hf := (h'.findings f hf).elim (h.findings f) .inr

/-- Nothing is found. -/
theorem silent (h : (u.active, u.findings) = (t.active, t.findings)) : t.Evolves u := by
  obtain ⟨hActive, hFindings⟩ := Prod.mk.inj h
  exact ⟨hActive, fun _ hf => .inl (hFindings ▸ hf)⟩

/-- A remark is added. -/
theorem report (f : Finding) (line column : Nat) (h : f.isRemark) :
    t.Evolves (t.report f line column) where
  active := rfl
  findings g hg := by
    rcases List.mem_append.mp hg with hg | hg
    · exact .inl hg
    · exact .inr (List.mem_singleton.mp hg ▸ h)

theorem reportAt (f : Finding) (places : List (Nat × Nat)) (h : f.isRemark) :
    t.Evolves (t.reportAt f places) where
  active := rfl
  findings g hg := by
    rcases List.mem_append.mp hg with hg | hg
    · exact .inl hg
    · obtain ⟨place, -, rfl⟩ := List.mem_map.mp hg
      exact .inr h

theorem foldl {β : Type} {f : Tracker → β → Tracker} (t : Tracker) (l : List β)
    (h : ∀ (t : Tracker) (b : β), t.Evolves (f t b)) : t.Evolves (l.foldl f t) := by
  induction l generalizing t with
  | nil => exact .silent rfl
  | cons b rest ih => exact (h t b).trans (ih (f t b))

end Evolves

/-! ## Declaring names -/

/-- A redefinition is reported for what it means. -/
theorem isRemark_of_redefinition? {shadow : Setting.ShadowPolicy} {f : Finding}
    (h : t.redefinition? name shadow = some f) : f.isRemark := by
  have hReported {b : Binding} {finding : Finding} (hf : finding.isRemark)
      (h : (if b.kind = .functionName then none else some finding) = some f) : f.isRemark := by
    split at h
    · cases h
    · exact Option.some.inj h ▸ hf
  unfold redefinition? at h
  dsimp only at h
  split at h
  · cases h
  · split at h
    · exact hReported rfl h
    · split at h
      · obtain ⟨b, -, hb⟩ := Option.bind_eq_some_iff.mp h
        exact hReported rfl hb
      · cases h

theorem evolves_takePending (id : FrameId) : t.Evolves (t.takePending name id).2 := by
  unfold takePending
  split
  · exact .silent rfl
  · exact .silent rfl

theorem evolves_markReads (id : FrameId) (refs : List Pending) :
    t.Evolves (t.markReads id name refs) := by
  unfold markReads
  exact .foldl t _ fun _ _ => .silent rfl

theorem evolves_claimPending (id : FrameId) (kind : BindingKind) :
    t.Evolves (t.claimPending name id kind line column) := by
  have hClaimed := (evolves_takePending t name id).trans
    (evolves_markReads _ name id (t.takePending name id).1)
  unfold claimPending
  dsimp only
  split
  · exact hClaimed.trans (.report _ _ _ rfl)
  · exact hClaimed

theorem evolves_bindNew (id : FrameId) (kind : BindingKind) :
    t.Evolves (t.bindNew name id kind line column) := by
  have hBound : t.Evolves
      ((t.bind id name { line, column, kind }).claimPending name id kind line column) := by
    refine .trans ?_ (evolves_claimPending _ _ _ _ _ _)
    exact .silent rfl
  unfold bindNew
  split
  · split
    · exact hBound
    · exact .silent rfl
  · exact hBound

theorem evolves_reportPredefined (id : FrameId) (kind : BindingKind)
    (shadow : Setting.ShadowPolicy) :
    t.Evolves (t.reportPredefined name id kind shadow line column) := by
  unfold reportPredefined
  split
  · exact .report _ _ _ rfl
  · exact .silent rfl

theorem evolves_reportAny (f : Option Finding) (h : ∀ g, f = some g → g.isRemark) :
    t.Evolves (t.reportAny f line column) := by
  cases f with
  | none => exact .silent rfl
  | some g => exact .report g _ _ (h g rfl)

/-- A declaration only adds remarks. -/
theorem evolves_declare (kind : BindingKind) (layers : Setting.Layers) :
    t.Evolves (t.declare name kind line column layers) := by
  -- what is said about a name that is bound anew, then the binding
  have hNew (t : Tracker) (id : FrameId) (shadow : Setting.ShadowPolicy) : t.Evolves
      ((t.reportPredefined name id kind shadow line column).bindNew name id kind line column) :=
    (evolves_reportPredefined _ _ _ _ _ _ _).trans (evolves_bindNew _ _ _ _ _ _)
  have hAgain (shadow : Setting.ShadowPolicy) :
      t.Evolves (t.reportAny (t.redefinition? name shadow) line column) :=
    evolves_reportAny _ _ _ _ fun _ => isRemark_of_redefinition? t name
  unfold declare
  dsimp only
  split
  · split
    · exact .report _ _ _ rfl
    · exact hNew _ _ _
  · split
    · exact (hAgain _).trans (hNew _ _ _)
    · exact (hAgain _).trans (hNew _ _ _)
    · exact (hAgain _).trans (hNew _ _ _)
    · exact hNew _ _ _

/-! ## Using names -/

theorem evolves_reportOutOfScope (id : FrameId) (layers : Setting.Layers) :
    t.Evolves (t.reportOutOfScope id name line column layers) := by
  unfold reportOutOfScope
  split
  · exact .report _ _ _ rfl
  · exact .silent rfl

/-- So does a read. -/
theorem evolves_reference (layers : Setting.Layers) :
    t.Evolves (t.reference name line column layers) := by
  unfold reference
  split
  · refine .trans ?_ (evolves_reportOutOfScope _ _ _ _ _ _)
    exact .silent rfl
  · split
    · exact .silent rfl
    · split
      · exact .silent rfl
      · exact .silent rfl

theorem evolves_referenceGuarded : t.Evolves (t.referenceGuarded name line) := by
  unfold referenceGuarded
  split
  · exact .silent rfl
  · split
    · exact .silent rfl
    · exact .silent rfl

theorem isRemark_of_assignFinding? {name : String} {b : Binding} {f : Finding}
    (h : assignFinding? name b = some f) : f.isRemark := by
  unfold assignFinding? at h
  grind [Finding.isRemark, Finding.phase]

/-- So does a write. -/
theorem evolves_assign (layers : Setting.Layers) :
    t.Evolves (t.assign name line column layers) := by
  unfold assign
  split
  · dsimp only
    split
    case h_1 f hf =>
      obtain ⟨b, -, hb⟩ := Option.bind_eq_some_iff.mp hf
      exact (Evolves.report f _ _ (isRemark_of_assignFinding? hb)).trans
        (evolves_reportOutOfScope _ _ _ _ _ _)
    case h_2 => exact evolves_reportOutOfScope _ _ _ _ _ _
  · split
    · exact .silent rfl
    · split
      · dsimp only
        split
        · exact .silent rfl
        · refine .trans ?_ (.report _ _ _ rfl)
          exact .silent rfl
      · exact .silent rfl

/-! ## Leaving frames -/

theorem evolves_addUnused (policy : Setting.UnusedPolicy) (b : UnusedBinding) :
    t.Evolves (t.addUnused policy b) := by
  unfold addUnused
  dsimp only
  split
  · exact .silent rfl
  · exact (Evolves.report (.unused b.name) b.line b.column rfl).trans (.silent rfl)

theorem evolves_evaluateUnused (id : FrameId) (policy : Setting.UnusedPolicy) (lexicalOnly : Bool) :
    t.Evolves (t.evaluateUnused id policy lexicalOnly) :=
  .foldl t _ fun t _ => evolves_addUnused t policy _

/-- So does a binding that is moved out. -/
theorem evolves_moveOut (id function : FrameId) (funcscope : Bool) (entry : String × Binding) :
    t.Evolves (t.moveOut id function funcscope entry) := by
  unfold moveOut hoist
  dsimp only
  refine Evolves.trans (Evolves.trans ?_ (evolves_takePending _ _ _)) (.foldl _ _ fun t r => ?_)
  · split
    · exact .silent rfl
    · exact .silent rfl
  · have hRead : t.Evolves (if r.isWrite then t else t.markUsed function entry.1 r.line) := by
      split
      · exact .silent rfl
      · exact .silent rfl
    split
    · exact hRead.trans (.report _ _ _ rfl)
    · exact hRead

/-- Leaving a frame takes it off the active ones; hoisting and listing what is unused leave them. -/
theorem evolves_exit (layers : Setting.Layers) :
    Evolves { t with active := t.active.pop } (t.exit layers) := by
  unfold exit leaving? Stack.isBottom
  by_cases hBottom : t.active.below.isEmpty
  · have hNone : t.active.below = [] := List.isEmpty_iff.mp hBottom
    have hPop : t.active.pop = t.active := by rw [Stack.pop, hNone]
    rw [if_pos hBottom, hPop]
    exact .silent rfl
  · rw [if_neg hBottom]
    dsimp only
    split
    · exact evolves_evaluateUnused _ _ _ _
    · exact (evolves_evaluateUnused _ _ _ _).trans
        (.foldl _ _ fun t entry => evolves_moveOut t _ _ _ entry)

/-- Leaving a frame leaves the others in use. -/
theorem active_exit (layers : Setting.Layers) : (t.exit layers).active = t.active.pop :=
  (evolves_exit t layers).active

/-- What is said at its end are remarks. -/
theorem findings_exit (layers : Setting.Layers) :
    ∀ f ∈ (t.exit layers).findings, f ∈ t.findings ∨ f.finding.isRemark :=
  (evolves_exit t layers).findings

/-- By induction on the frames left; each is left in turn. -/
theorem findings_exitMany (layers : Setting.Layers) (count : Nat) :
    ∀ f ∈ (t.exitMany layers count).findings, f ∈ t.findings ∨ f.finding.isRemark := by
  induction count generalizing t with
  | zero => exact fun _ => .inl
  | succ count ih => exact fun f hf => (ih _ f hf).elim (findings_exit t layers f) .inr

theorem evolves_evaluateGlobals (policy : Setting.UnusedPolicy) :
    t.Evolves (t.evaluateGlobals policy) :=
  .foldl t _ fun t _ => evolves_addUnused t policy _

/-- Once all frames are left, the end of the run only adds findings. -/
theorem evolves_finish (layers : Setting.Layers) :
    (t.exitMany layers t.active.below.length).Evolves (t.finish layers).2 := by
  have hUnused := (evolves_evaluateUnused (t.exitMany layers t.active.below.length) 0
    layers.unusedPolicy false).trans (evolves_evaluateGlobals _ layers.unusedPolicy)
  refine (hUnused.trans (.foldl _ _ fun t entry => ?_)).trans (.silent rfl)
  exact .reportAt (.notDefined entry.1) _ rfl

end Scope.Tracker

end ScriptLint
