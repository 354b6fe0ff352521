import ScriptLint.Proofs.Scope.Arena

/-!
# Claiming pending uses

A declaration, and a binding that moves out of its block, take the pending uses of their name inside
a frame and note the reads among them at the binding. What else an operation on the scopes does is
adding findings.

- `Tracker.Reports`: an operation adds findings, none of which says that a name is not defined.
- `Tracker.claim`: the uses that a frame takes. `pendingUses_claim`, `keys_claim` and
  `binding?_claim` say what becomes of the pending uses and the bindings.
- `Tracker.Moves`: a binding moves out of its block. `moves_moveOut` is the step, `foldl_moveOut`
  the run over all bindings of a frame that is left.
-/

namespace ScriptLint

/-- Whether the finding says that a name is not defined. -/
def Finding.isUndefined : Finding → Bool
  | notDefined _ => true
  | _ => false

namespace Scope

open Setting (Layers ShadowPolicy UnusedPolicy)

namespace Tracker

variable {t u v : Tracker}

/-! ## Adding findings -/

/-- Scopes and pending uses stay, and no new finding says that a name is not defined. -/
structure Reports (t u : Tracker) : Prop where
  frames : u.frames = t.frames
  active : u.active = t.active
  pending : u.pending = t.pending
  findings : ∀ f ∈ u.findings, f ∈ t.findings ∨ f.finding.isUndefined = false

namespace Reports

/-- The same frames, pending uses and findings report nothing. -/
theorem silent
    (h : (u.frames, u.active, u.pending, u.findings) =
    (t.frames, t.active, t.pending, t.findings)) : t.Reports u := by
  simp only [Prod.mk.injEq] at h
  obtain ⟨hFrames, hActive, hPending, hFindings⟩ := h
  exact ⟨hFrames, hActive, hPending, fun _ hf => .inl (hFindings ▸ hf)⟩

/-- Findings add up. -/
theorem trans (h : t.Reports u) (h' : u.Reports v) : t.Reports v where
  frames := h'.frames.trans h.frames
  active := h'.active.trans h.active
  pending := h'.pending.trans h.pending
  findings f hf := (h'.findings f hf).elim (h.findings f) .inr

/-- Any finding may be added that is not about an undefined name. -/
theorem report (f : Finding) (line column : Nat) (h : f.isUndefined = false) :
    t.Reports (t.report f line column) where
  frames := rfl
  active := rfl
  pending := rfl
  findings g hg := by
    rcases List.mem_append.mp hg with hg | hg
    · exact .inl hg
    · exact .inr (List.mem_singleton.mp hg ▸ h)

theorem foldl {β : Type} {f : Tracker → β → Tracker} (t : Tracker) (l : List β)
    (h : ∀ (t : Tracker) (b : β), t.Reports (f t b)) : t.Reports (l.foldl f t) := by
  induction l generalizing t with
  | nil => exact .silent rfl
  | cons b rest ih => exact (h t b).trans (ih (f t b))

theorem sameArena (h : t.Reports u) : t.SameArena u := .of_frames h.frames h.active

theorem frame (h : t.Reports u) (id : FrameId) : u.frame id = t.frame id := by
  rw [Tracker.frame, Tracker.frame, h.frames]

theorem binding? (h : t.Reports u) (id : FrameId) (name : String) :
    u.binding? id name = t.binding? id name := by
  rw [Tracker.binding?, Tracker.binding?, h.frame]

theorem pendingUses (h : t.Reports u) (name : String) :
    u.pendingUses name = t.pendingUses name := by
  rw [Tracker.pendingUses, Tracker.pendingUses, h.pending]

/-- Noting a read does not depend on what was found. -/
theorem markUsed (h : t.Reports u) (id : FrameId) (name : String) (line : Nat) :
    (t.markUsed id name line).Reports (u.markUsed id name line) := by
  refine ⟨?_, h.active, h.pending, h.findings⟩
  unfold Tracker.markUsed modifyBinding modifyFrame
  rw [h.frames]

/-- Bindings may change. -/
theorem bind (h : t.Reports u) (id : FrameId) (name : String) (b : Binding) :
    (t.bind id name b).Reports (u.bind id name b) := by
  refine ⟨?_, h.active, h.pending, h.findings⟩
  unfold Tracker.bind modifyFrame
  rw [h.frames]

theorem markReads (h : t.Reports u) (id : FrameId) (name : String) (refs : List Pending) :
    (t.markReads id name refs).Reports (u.markReads id name refs) := by
  unfold Tracker.markReads
  induction refs.filter (!·.isWrite) generalizing t u with
  | nil => exact h
  | cons r rest ih => exact ih (h.markUsed id name r.line)

end Reports

theorem reports_reportAny (f : Option Finding) (line column : Nat)
    (h : ∀ g, f = some g → g.isUndefined = false) : t.Reports (t.reportAny f line column) := by
  cases f with
  | none => exact .silent rfl
  | some g => exact .report g _ _ (h g rfl)

/-- A redefinition is no undefined name. -/
theorem isUndefined_of_redefinition? {name : String} {shadow : ShadowPolicy} {f : Finding}
    (h : t.redefinition? name shadow = some f) : f.isUndefined = false := by
  have hReported {b : Binding} {finding : Finding} (hf : finding.isUndefined = false)
      (h : (if b.kind = .functionName then none else some finding) = some f) :
        f.isUndefined = false := by
    split at h
    · cases h
    · exact Option.some.inj h ▸ hf
  unfold redefinition? at h
  dsimp only at h
  split at h
  · cases h
  · split at h
    · exact hReported rfl h
    · split at h
      · obtain ⟨b, -, hb⟩ := Option.bind_eq_some_iff.mp h
        exact hReported rfl hb
      · cases h

/-- Nor is a bad assignment. -/
theorem isUndefined_of_assignFinding? {name : String} {b : Binding} {f : Finding}
    (h : assignFinding? name b = some f) : f.isUndefined = false := by
  unfold assignFinding? at h
  split at h <;> cases h <;> rfl

theorem reports_reportPredefined (t : Tracker) (name : String) (id : FrameId) (kind : BindingKind)
    (shadow : ShadowPolicy) (line column : Nat) :
    t.Reports (t.reportPredefined name id kind shadow line column) := by
  unfold reportPredefined
  split
  · exact .report _ _ _ rfl
  · exact .silent rfl

theorem reports_reportOutOfScope (t : Tracker) (id : FrameId) (name : String) (line column : Nat)
    (layers : Layers) : t.Reports (t.reportOutOfScope id name line column layers) := by
  unfold reportOutOfScope
  split
  · exact .report _ _ _ rfl
  · exact .silent rfl

theorem reports_addUnused (t : Tracker) (policy : UnusedPolicy) (b : UnusedBinding) :
    t.Reports (t.addUnused policy b) := by
  unfold addUnused
  dsimp only
  split
  · exact .silent rfl
  · exact (Reports.report (.unused b.name) b.line b.column rfl).trans (.silent rfl)

theorem reports_evaluateUnused (t : Tracker) (id : FrameId) (policy : UnusedPolicy)
    (lexicalOnly : Bool) : t.Reports (t.evaluateUnused id policy lexicalOnly) :=
  .foldl t _ fun t _ => reports_addUnused t policy _

theorem reports_evaluateGlobals (t : Tracker) (policy : UnusedPolicy) :
    t.Reports (t.evaluateGlobals policy) :=
  .foldl t _ fun t _ => reports_addUnused t policy _

/-! ## Changing bindings -/

/-- No frame binds a name twice. -/
def Distinct (t : Tracker) : Prop := ∀ id, (t.frame id).bindings.keys.Nodup

/-- Only bindings change. -/
structure Rebinds (t u : Tracker) : Prop extends t.SameArena u where
  pending : u.pending = t.pending
  findings : u.findings = t.findings
  distinct : t.Distinct → u.Distinct

namespace Rebinds

theorem refl (t : Tracker) : t.Rebinds t := ⟨.refl t, rfl, rfl, id⟩

/-- So do changes of bindings. -/
theorem trans (h : t.Rebinds u) (h' : u.Rebinds v) : t.Rebinds v :=
  ⟨h.toSameArena.trans h'.toSameArena, h'.pending.trans h.pending, h'.findings.trans h.findings,
    h'.distinct ∘ h.distinct⟩

/-- The bindings of one frame change, and stay distinct. -/
theorem modifyFrame (t : Tracker) (id : FrameId)
    (f : OrderedMap String Binding → OrderedMap String Binding)
    (h : ∀ bindings, bindings.keys.Nodup → (f bindings).keys.Nodup) :
    t.Rebinds (t.modifyFrame id fun frame => { frame with bindings := f frame.bindings }) := by
  refine ⟨.modifyFrame t id fun _ => rfl, rfl, rfl, fun hDistinct other => ?_⟩
  rw [frame_modifyFrame]
  split
  · exact h _ (hDistinct id)
  · exact hDistinct other

theorem bind (t : Tracker) (id : FrameId) (name : String) (b : Binding) :
    t.Rebinds (t.bind id name b) := by
  refine .modifyFrame t id (·.insert name b) fun bindings h => ?_
  rw [OrderedMap.keys_insert]
  split
  · exact h
  · next hNew => exact List.nodup_append.mpr ⟨h, by simp, by grind⟩

theorem modifyBinding (t : Tracker) (id : FrameId) (name : String) (f : Binding → Binding) :
    t.Rebinds (t.modifyBinding id name f) := by
  refine .modifyFrame t id (·.modify name f) fun bindings h => ?_
  rwa [OrderedMap.keys_modify]

theorem unbind (t : Tracker) (id : FrameId) (name : String) : t.Rebinds (t.unbind id name) := by
  refine .modifyFrame t id (·.erase name) fun bindings h => ?_
  rw [OrderedMap.keys_erase]
  exact h.filter _

theorem markReads (t : Tracker) (id : FrameId) (name : String) (refs : List Pending) :
    t.Rebinds (t.markReads id name refs) := by
  unfold Tracker.markReads
  induction refs.filter (!·.isWrite) generalizing t with
  | nil => exact .refl t
  | cons r rest ih => exact (modifyBinding t id name (·.use r.line)).trans (ih _)

end Rebinds

/-! ## Claiming -/

/-- The frame takes the pending uses of a name inside it; its binding notes the reads among them. -/
def claim (t : Tracker) (name : String) (id : FrameId) : Tracker :=
  (t.takePending name id).2.markReads id name (t.takePending name id).1

/-- The pending uses of a name that lie within a frame. -/
def usesWithin (t : Tracker) (name : String) (id : FrameId) : List Pending :=
  (t.pendingUses name).filter fun r => isWithin t.frames r.frame id

/-- The lines of the reads among the uses. -/
def readLines (refs : List Pending) : List Nat := (refs.filter (!·.isWrite)).map (·.line)

/-- A claim takes the uses within the frame. -/
theorem takePending_fst (t : Tracker) (name : String) (id : FrameId) :
    (t.takePending name id).1 = t.usesWithin name id := by
  unfold takePending usesWithin pendingUses
  cases t.pending.get? name with
  | none => rfl
  | some refs =>
    simp only [List.partition_eq_filter_filter, Option.getD_some, List.filter_reverse]

/-- The others stay. -/
theorem pendingUses_takePending (t : Tracker) (name : String) (id : FrameId) (other : String) :
    (t.takePending name id).2.pendingUses other =
      (t.pendingUses other).filter fun r => !(other == name && isWithin t.frames r.frame id) := by
  -- a name without uses there, or another name, loses nothing
  have hSame {l : List Pending} (h : other = name → l = []) :
      l.filter (fun r => !(other == name && isWithin t.frames r.frame id)) = l := by
    by_cases hName : other = name
    · rw [h hName]
      rfl
    · simp [hName]
  unfold takePending pendingUses
  cases hRefs : t.pending.get? name with
  | none =>
    refine (hSame fun h => ?_).symm
    rw [h, hRefs]
    rfl
  | some refs =>
    simp only [List.partition_eq_filter_filter]
    by_cases hName : other = name
    · subst hName
      simp only [hRefs, Option.getD_some, beq_self_eq_true, Bool.true_and, List.filter_reverse]
      congr 1
      split
      · next hEmpty =>
        rw [OrderedMap.get?_erase, if_pos rfl]
        exact (List.isEmpty_iff.mp hEmpty).symm
      · rw [OrderedMap.get?_modify, if_pos rfl, hRefs]
        rfl
    · rw [hSame fun h => absurd h hName]
      split
      · rw [OrderedMap.get?_erase, if_neg hName]
      · rw [OrderedMap.get?_modify, if_neg hName]

/-- A name of which no use is left loses its place; the others keep theirs. -/
theorem keys_takePending (t : Tracker) (name : String) (id : FrameId) :
    (t.takePending name id).2.pending.keys = t.pending.keys.filter fun other =>
      other ≠ name ∨ (t.takePending name id).2.pendingUses name ≠ [] := by
  unfold takePending pendingUses
  cases hRefs : t.pending.get? name with
  | none =>
    have hAbsent := (t.pending.get?_eq_none_iff name).mp hRefs
    refine (List.filter_eq_self.mpr fun other hOther => ?_).symm
    exact decide_eq_true (.inl fun h => hAbsent (h ▸ hOther))
  | some refs =>
    simp only [List.partition_eq_filter_filter]
    split
    · rw [OrderedMap.keys_erase, OrderedMap.get?_erase, if_pos rfl]
      simp
    · next hLeft =>
      rw [OrderedMap.keys_modify, OrderedMap.get?_modify, if_pos rfl, hRefs]
      refine (List.filter_eq_self.mpr fun other hOther =>
        decide_eq_true (.inr fun hNone => ?_)).symm
      exact hLeft (List.isEmpty_iff.mpr (List.reverse_eq_nil_iff.mp hNone))

/-- Reads noted one after the other. -/
theorem binding?_markReads (t : Tracker) (id : FrameId) (name : String) (refs : List Pending)
    (other : FrameId) (name' : String) :
    (t.markReads id name refs).binding? other name' = if other = id ∧ name' = name then
        (t.binding? id name).map ((readLines refs).foldl Binding.use)
      else t.binding? other name' := by
  unfold markReads readLines
  induction refs.filter (!·.isWrite) generalizing t with
  | nil =>
    split
    · next h => simp [h.1, h.2]
    · rfl
  | cons r rest ih =>
    rw [List.foldl_cons, ih]
    simp only [markUsed, binding?_modifyBinding]
    split
    · simp [Function.comp_def]
    · rfl

/-- Each use adds its line. -/
theorem useLines_foldl_use (lines : List Nat) (b : Binding) :
    (lines.foldl Binding.use b).useLines = b.useLines ++ lines := by
  induction lines generalizing b with
  | nil => simp
  | cons line rest ih =>
    rw [List.foldl_cons, ih, Binding.useLines_use, List.append_assoc]
    rfl

theorem sameArena_takePending (t : Tracker) (name : String) (id : FrameId) :
    t.SameArena (t.takePending name id).2 ∧ (t.takePending name id).2.findings = t.findings ∧
      ∀ other, (t.takePending name id).2.frame other = t.frame other := by
  unfold takePending
  split
  · exact ⟨.refl t, rfl, fun _ => rfl⟩
  · exact ⟨.of_frames rfl rfl, rfl, fun _ => rfl⟩

section Claim

variable (t : Tracker) (name : String) (id : FrameId)

/-- A claim leaves the outline. -/
theorem sameArena_claim : t.SameArena (t.claim name id) :=
  (sameArena_takePending t name id).1.trans (Rebinds.markReads ..).toSameArena

/-- It reports nothing. -/
theorem findings_claim : (t.claim name id).findings = t.findings :=
  (Rebinds.markReads ..).findings.trans (sameArena_takePending t name id).2.1

/-- It binds no name twice. -/
theorem distinct_claim (h : t.Distinct) : (t.claim name id).Distinct := by
  refine (Rebinds.markReads _ _ _ _).distinct fun other => ?_
  rw [(sameArena_takePending t name id).2.2]
  exact h other

/-- It leaves the uses outside the frame. -/
theorem pendingUses_claim (other : String) : (t.claim name id).pendingUses other =
    (t.pendingUses other).filter fun r => !(other == name && isWithin t.frames r.frame id) := by
  rw [← pendingUses_takePending, pendingUses, pendingUses, claim, (Rebinds.markReads ..).pending]

/-- A name without uses is no longer pending. -/
theorem keys_claim : (t.claim name id).pending.keys = t.pending.keys.filter fun other =>
    other ≠ name ∨ (t.claim name id).pendingUses name ≠ [] := by
  rw [claim, pendingUses, (Rebinds.markReads ..).pending]
  exact keys_takePending t name id

/-- The binding has the lines of the reads it was given. -/
theorem binding?_claim (other : FrameId) (name' : String) : (t.claim name id).binding? other name' =
    if other = id ∧ name' = name then
      (t.binding? id name).map ((readLines (t.usesWithin name id)).foldl Binding.use)
    else t.binding? other name' := by
  have hFrame := (sameArena_takePending t name id).2.2
  rw [claim, binding?_markReads, takePending_fst]
  simp only [binding?, hFrame]

end Claim

/-- Claiming does not depend on what was found. -/
theorem Reports.claim (h : t.Reports u) (name : String) (id : FrameId) :
    (t.claim name id).Reports (u.claim name id) := by
  have hTaken : (u.takePending name id).1 = (t.takePending name id).1 := by
    rw [takePending_fst, takePending_fst, usesWithin, usesWithin, h.pendingUses, h.frames]
  have hLeft : (t.takePending name id).2.Reports (u.takePending name id).2 := by
    unfold takePending
    rw [h.pending, h.frames]
    split
    · exact h
    · simp only [List.partition_eq_filter_filter]
      exact ⟨rfl, h.active, rfl, h.findings⟩
  unfold Tracker.claim
  rw [hTaken]
  exact hLeft.markReads _ _ _

theorem reports_claimPending (t : Tracker) (name : String) (id : FrameId) (kind : BindingKind)
    (line column : Nat) : (t.claim name id).Reports (t.claimPending name id kind line column) := by
  unfold claimPending
  dsimp only
  split
  · exact .report _ _ _ rfl
  · exact .silent rfl

/-! ## Declaring -/

/-- Whether a declaration of the name binds it: it is not bound yet, or only as the name of a
function expression, which a lexical declaration does not replace. -/
def bindsAnew (t : Tracker) (name : String) (kind : BindingKind) : Bool :=
  match t.binding? t.declarationFrame name with
  | some existing => existing.kind = .functionName && !kind.isLexical
  | none => true

/-- A new binding claims its uses; an old one is left. -/
theorem reports_bindNew (t : Tracker) (name : String) (id : FrameId) (kind : BindingKind)
    (line column : Nat) :
    (if (t.binding? id name).all (·.kind = .functionName) then
        (t.bind id name { line, column, kind }).claim name id
      else t).Reports (t.bindNew name id kind line column) := by
  unfold bindNew
  cases t.binding? id name with
  | none => exact reports_claimPending ..
  | some existing =>
    simp only [Option.all_some, decide_eq_true_eq]
    split
    · exact reports_claimPending ..
    · exact .silent rfl

/-- A declaration that binds its name claims the pending uses in its frame; any other changes
nothing. -/
theorem reports_declare (t : Tracker) (name : String) (kind : BindingKind) (line column : Nat)
    (layers : Layers) :
    (if t.bindsAnew name kind then
        (t.bind t.declarationFrame name { line, column, kind }).claim name t.declarationFrame
      else t).Reports (t.declare name kind line column layers) := by
  -- what a binding that is new does, before and after the findings about it
  have hNew {u : Tracker} (h : t.Reports u) :
      (if (t.binding? t.declarationFrame name).all (·.kind = .functionName) then
          (t.bind t.declarationFrame name { line, column, kind }).claim name t.declarationFrame
        else t).Reports
      ((u.reportPredefined name t.declarationFrame kind layers.shadowPolicy line column).bindNew
        name t.declarationFrame kind line column) := by
    have hBefore := h.trans
      (reports_reportPredefined u name t.declarationFrame kind layers.shadowPolicy line column)
    have hAfter := reports_bindNew
      (u.reportPredefined name t.declarationFrame kind layers.shadowPolicy line column)
      name t.declarationFrame kind line column
    rw [hBefore.binding?] at hAfter
    refine Reports.trans ?_ hAfter
    split
    · exact (hBefore.bind _ _ _).claim _ _
    · exact hBefore
  have hAgain : t.Reports (t.reportAny (t.redefinition? name layers.shadowPolicy) line column) :=
    reports_reportAny _ _ _ fun _ => isUndefined_of_redefinition?
  unfold declare
  dsimp only
  -- a lexical name binds anew where it is unbound; any other also over the name of a function
  cases hLexical : kind.isLexical with
  | true =>
    have hAnew : t.bindsAnew name kind = !t.binds name t.declarationFrame := by
      rw [bindsAnew, binds_eq, hLexical]
      cases t.binding? t.declarationFrame name <;> simp
    rw [hAnew, if_pos rfl]
    cases hBinds : t.binds name t.declarationFrame with
    | true => exact .report _ _ _ rfl
    | false =>
      have hNone : t.binding? t.declarationFrame name = none := by
        rw [binds_eq] at hBinds
        simpa using hBinds
      have hBound := hNew (.silent rfl)
      rw [hNone] at hBound
      exact hBound
  | false =>
    have hAnew : t.bindsAnew name kind =
        (t.binding? t.declarationFrame name).all (·.kind = .functionName) := by
      rw [bindsAnew, hLexical]
      cases t.binding? t.declarationFrame name <;> simp
    rw [hAnew, if_neg Bool.false_ne_true]
    refine hNew ?_
    split
    · exact hAgain
    · exact hAgain
    · exact hAgain
    · exact .silent rfl

/-! ## Moving bindings out of blocks -/

/-- A function takes in a binding from one of its blocks. -/
def receive (t : Tracker) (function : FrameId) (name : String) (b : Binding) : Tracker :=
  match t.binding? function name with
  | some _ => t.modifyBinding function name (·.join b)
  | none => t.bind function name { b with hoisted := true }

theorem Rebinds.receive (t : Tracker) (function : FrameId) (name : String) (b : Binding) :
    t.Rebinds (t.receive function name b) := by
  unfold Tracker.receive
  split
  · exact .modifyBinding ..
  · exact .bind ..

/-- A function that receives a binding has its uses after its own. -/
theorem binding?_receive (t : Tracker) {function : FrameId} (hSize : function < t.frames.size)
    (name : String) (b : Binding) :
    ((t.receive function name b).binding? function name).map Binding.useLines =
        some (((t.binding? function name).map Binding.useLines).getD [] ++ b.useLines) ∧
      ∀ other name', ¬(other = function ∧ name' = name) →
        (t.receive function name b).binding? other name' = t.binding? other name' := by
  unfold receive
  -- the function has the name already, and joins the two, or it takes the binding as it is
  cases hOld : t.binding? function name with
  | none =>
    dsimp only
    refine ⟨?_, fun other name' hOther => ?_⟩
    · rw [binding?_bind t hSize, if_pos ⟨rfl, rfl⟩]
      rfl
    · rw [binding?_bind t hSize, if_neg hOther]
  | some old =>
    dsimp only
    refine ⟨?_, fun other name' hOther => ?_⟩
    · rw [binding?_modifyBinding, if_pos ⟨rfl, rfl⟩, hOld]
      simp
    · rw [binding?_modifyBinding, if_neg hOther]

/-- Reads are marked in order. -/
theorem markReads_cons (t : Tracker) (id : FrameId) (name : String) (r : Pending)
    (rest : List Pending) : t.markReads id name (r :: rest) =
      (if r.isWrite then t else t.markUsed id name r.line).markReads id name rest := by
  unfold markReads
  cases hWrite : r.isWrite with
  | true => simp [hWrite]
  | false => simp [hWrite]

/-- Reporting the uses outside the block does not disturb the noting of reads. -/
theorem Reports.foldl_hoist {function : FrameId} {name : String} {funcscope : Bool}
    (refs : List Pending)
    (h : t.Reports u) : (t.markReads function name refs).Reports (refs.foldl (fun t r =>
      let t := if r.isWrite then t else t.markUsed function name r.line
      if r.function = function && !funcscope then t.report (.outOfScope name) r.line r.column
      else t) u) := by
  induction refs generalizing t u with
  | nil => exact h
  | cons r rest ih =>
    rw [markReads_cons, List.foldl_cons]
    have hRead : (if r.isWrite then t else t.markUsed function name r.line).Reports
        (if r.isWrite then u else u.markUsed function name r.line) := by
      split
      · exact h
      · exact h.markUsed _ _ _
    have hReport {t u : Tracker} (h : t.Reports u) : t.Reports
        (if r.function = function && !funcscope then u.report (.outOfScope name) r.line r.column
        else u) := by
      split
      · exact h.trans (.report _ _ _ rfl)
      · exact h
    exact ih (hReport hRead)

theorem reports_moveOut (t : Tracker) (id function : FrameId) (funcscope : Bool) (name : String)
    (b : Binding) : (((t.unbind id name).receive function name b).claim name function).Reports
      (t.moveOut id function funcscope (name, b)) :=
  Reports.foldl_hoist _ (.silent rfl)

/-- A binding of a name moves from a block to a function around it. -/
structure Moves (t u : Tracker) (id function : FrameId) (name : String) (b : Binding) : Prop where
  same : t.SameArena u
  findings : ∀ f ∈ u.findings, f ∈ t.findings ∨ f.finding.isUndefined = false
  distinct : t.Distinct → u.Distinct
  uses : ∀ other, u.pendingUses other =
    (t.pendingUses other).filter fun r => !(other == name && isWithin t.frames r.frame function)
  keys : u.pending.keys =
    t.pending.keys.filter fun other => other ≠ name ∨ u.pendingUses name ≠ []
  gone : u.binding? id name = none
  home : (u.binding? function name).map Binding.useLines =
    some (((t.binding? function name).map Binding.useLines).getD [] ++ b.useLines ++
      readLines (t.usesWithin name function))
  others : ∀ frame other, ¬(other = name ∧ (frame = id ∨ frame = function)) →
    u.binding? frame other = t.binding? frame other

/-- Moving a binding out of a block does all that `Moves` says. -/
theorem moves_moveOut (t : Tracker) {id function : FrameId} (hApart : function ≠ id)
    (hSize : function < t.frames.size) (funcscope : Bool) (name : String) (b : Binding) :
    t.Moves (t.moveOut id function funcscope (name, b)) id function name b := by
  -- in three steps: unbind in the block, bind in the function, claim
  have hUnbind := Rebinds.unbind t id name
  have hRebinds := hUnbind.trans (.receive _ function name b)
  have hReports := reports_moveOut t id function funcscope name b
  have hSame := hRebinds.toSameArena.trans (sameArena_claim _ name function)
  obtain ⟨hLines, hOthers⟩ := binding?_receive (t.unbind id name) (hUnbind.size ▸ hSize) name b
  have hOld : (t.unbind id name).binding? function name = t.binding? function name := by
    rw [binding?_unbind, if_neg fun h => hApart h.1]
  have hPending (other : String) : ((t.unbind id name).receive function name b).pendingUses other =
      t.pendingUses other := by
    rw [pendingUses, pendingUses, hRebinds.pending]
  have hWithin (r : FrameId) :
      isWithin ((t.unbind id name).receive function name b).frames r function =
      isWithin t.frames r function := hRebinds.isWithin r function
  have hClaimed : ((t.unbind id name).receive function name b).usesWithin name function =
      t.usesWithin name function := by
    simp only [usesWithin, hPending, hWithin]
  refine ⟨hSame.trans hReports.sameArena, fun f hf => ?_, fun hDistinct other => ?_,
    fun other => ?_, ?_, ?_, ?_, fun frame other hOther => ?_⟩
  · rw [← hRebinds.findings, ← findings_claim _ name function]
    exact hReports.findings f hf
  · rw [hReports.frame]
    exact distinct_claim _ _ _ (hRebinds.distinct hDistinct) other
  · rw [hReports.pendingUses, pendingUses_claim, hPending]
    simp only [hWithin]
  · rw [hReports.pending, hReports.pendingUses, keys_claim, hRebinds.pending]
  · rw [hReports.binding?, binding?_claim, if_neg fun h => hApart h.1.symm,
      hOthers _ _ fun h => hApart h.1.symm, binding?_unbind, if_pos ⟨rfl, rfl⟩]
  · rw [hReports.binding?, binding?_claim, if_pos ⟨rfl, rfl⟩, hClaimed]
    rw [hOld] at hLines
    obtain ⟨received, hReceived, hReads⟩ := Option.map_eq_some_iff.mp hLines
    rw [hReceived, Option.map_some, Option.map_some, useLines_foldl_use, hReads]
  · rw [hReports.binding?, binding?_claim, if_neg fun h => hOther ⟨h.2, .inr h.1⟩,
      hOthers _ _ fun h => hOther ⟨h.2, .inr h.1⟩, binding?_unbind, if_neg fun h =>
      hOther ⟨h.2, .inl h.1⟩]

/-- The bindings of several names move from a block to a function around it. -/
structure MovesAll (t u : Tracker) (id function : FrameId) (entries : List (String × Binding)) :
    Prop where
  same : t.SameArena u
  uses : ∀ name, u.pendingUses name = (t.pendingUses name).filter fun r =>
    !(entries.any (·.1 == name) && isWithin t.frames r.frame function)
  gone : ∀ entry ∈ entries, u.binding? id entry.1 = none
  home : ∀ entry ∈ entries, (u.binding? function entry.1).map Binding.useLines =
    some (((t.binding? function entry.1).map Binding.useLines).getD [] ++ entry.2.useLines ++
      readLines (t.usesWithin entry.1 function))
  others : ∀ frame name, ¬(name ∈ entries.map Prod.fst ∧ (frame = id ∨ frame = function)) →
    u.binding? frame name = t.binding? frame name

/-- By induction on the bindings; each name moves once. -/
theorem movesAll_foldl (t : Tracker) {id function : FrameId} (hApart : function ≠ id)
    (hSize : function < t.frames.size) (funcscope : Bool) (entries : List (String × Binding))
    (hNodup : (entries.map Prod.fst).Nodup) :
    t.MovesAll (entries.foldl (fun t entry => t.moveOut id function funcscope entry) t) id function
      entries := by
  -- by induction on the bindings; they are distinct, so each move leaves the others
  induction entries generalizing t with
  | nil =>
    exact ⟨.refl t, fun _ => (List.filter_eq_self.mpr fun _ _ => rfl).symm, by simp, by simp,
      fun _ _ _ => rfl⟩
  | cons entry rest ih =>
    obtain ⟨name, b⟩ := entry
    obtain ⟨hNew, hRest⟩ := List.nodup_cons.mp hNodup
    have hFirst := moves_moveOut t hApart hSize funcscope name b
    have hThen := ih (t.moveOut id function funcscope (name, b)) (hFirst.same.size ▸ hSize) hRest
    have hElse {other : String} (hOther : other ∈ rest.map Prod.fst) : other ≠ name :=
      fun hSame => hNew (hSame ▸ hOther)
    rw [List.foldl_cons]
    refine ⟨hFirst.same.trans hThen.same, fun other => ?_, fun entry hEntry => ?_,
      fun entry hEntry => ?_, fun frame other hOther => ?_⟩
    · rw [hThen.uses, hFirst.uses, List.filter_filter]
      refine List.filter_congr fun r _ => ?_
      rw [hFirst.same.isWithin, List.any_cons]
      by_cases hName : other = name
      · subst hName
        cases isWithin t.frames r.frame function <;> simp
      · rw [beq_false_of_ne hName, beq_false_of_ne (Ne.symm hName)]
        simp
    · rcases List.mem_cons.mp hEntry with rfl | hEntry
      · rw [hThen.others _ _ fun h => hNew h.1]
        exact hFirst.gone
      · exact hThen.gone entry hEntry
    · rcases List.mem_cons.mp hEntry with rfl | hEntry
      · rw [hThen.others _ _ fun h => hNew h.1]
        exact hFirst.home
      · have hName := hElse (List.mem_map_of_mem hEntry)
        have hUses : (t.moveOut id function funcscope (name, b)).usesWithin entry.1 function =
            t.usesWithin entry.1 function := by
          simp only [usesWithin, hFirst.uses, hFirst.same.isWithin, beq_false_of_ne hName,
            Bool.false_and, Bool.not_false, List.filter_filter, Bool.and_true]
        rw [hThen.home entry hEntry, hUses, hFirst.others _ _ fun h => hName h.1]
    · rw [List.map_cons, List.mem_cons] at hOther
      rw [hThen.others _ _ fun h => hOther ⟨.inr h.1, h.2⟩,
        hFirst.others _ _ fun h => hOther ⟨.inl h.1, h.2⟩]

/-- The bindings that leaving the current frame moves out of it. -/
def hoisting (t : Tracker) : List (String × Binding) :=
  if t.active.isBottom || (t.frame t.current).kind = .function then []
  else (t.frame t.current).bindings.entries.filter (·.2.kind.hoists)

/-- Only a frame inside another one that is no function has bindings to move. -/
theorem inner_of_hoisting (h : t.hoisting ≠ []) :
    t.active.below ≠ [] ∧ (t.frame t.current).kind ≠ .function := by
  unfold hoisting at h
  split at h
  · exact absurd rfl h
  · next hMoves =>
    simp only [Bool.or_eq_true, decide_eq_true_eq, not_or] at hMoves
    exact ⟨fun hNone => hMoves.1 (List.isEmpty_iff.mpr hNone), hMoves.2⟩

/-- Leaving a frame lists what is unused and moves the bindings that it does not keep. -/
theorem exit_eq (t : Tracker) (layers : Layers) : ∃ u, Reports { t with active := t.active.pop } u ∧
    t.exit layers = t.hoisting.foldl
      (fun u entry => u.moveOut t.current t.functionFrame (layers.enabled .funcscope) entry) u := by
  unfold exit leaving? hoisting
  by_cases hBottom : t.active.isBottom
  · have hNone : t.active.below = [] := List.isEmpty_iff.mp hBottom
    have hPop : t.active.pop = t.active := by rw [Stack.pop, hNone]
    rw [if_pos hBottom, hBottom, hPop]
    exact ⟨t, .silent rfl, rfl⟩
  · rw [if_neg hBottom, Bool.eq_false_iff.mpr hBottom]
    dsimp only
    by_cases hFunction : (t.frame t.current).kind = .function
    · rw [if_pos hFunction, if_pos (by simp [hFunction])]
      exact ⟨_, reports_evaluateUnused _ _ _ _, rfl⟩
    · rw [if_neg hFunction, if_neg (by simp [hFunction])]
      exact ⟨_, reports_evaluateUnused _ _ _ _, rfl⟩

/-- Leaving a frame moves its variables and functions to the function around it. -/
theorem movesAll_exit (hArena : t.Arena) (hDistinct : t.Distinct) (layers : Layers) :
    MovesAll { t with active := t.active.pop } (t.exit layers) t.current t.functionFrame
      t.hoisting := by
  obtain ⟨u, hReports, hExit⟩ := exit_eq t layers
  rw [hExit]
  -- a block that hoists nothing moves nothing
  by_cases hNone : t.hoisting = []
  · rw [hNone]
    exact ⟨hReports.sameArena, fun name => (hReports.pendingUses name).trans
      (List.filter_eq_self.mpr fun _ _ =>
        rfl).symm, by simp, by simp, fun id name _ => hReports.binding? id name⟩
  · obtain ⟨hInner, hKind⟩ := inner_of_hoisting hNone
    obtain ⟨hBelow, hApart⟩ := hArena.function_mem_below hInner hKind
    have hActive : t.functionFrame ∈ t.active.toList := List.mem_cons_of_mem _ hBelow
    have hSize : t.functionFrame < u.frames.size :=
      hReports.frames ▸ hArena.lt_size_of_active hActive
    have hNodup : (t.hoisting.map Prod.fst).Nodup := by
      unfold hoisting
      split
      · exact .nil
      · exact (List.filter_sublist.map Prod.fst).nodup (hDistinct t.current)
    have hMoves := movesAll_foldl u hApart hSize (layers.enabled .funcscope) t.hoisting hNodup
    have hWithin (name : String) : u.usesWithin name t.functionFrame =
        usesWithin { t with active := t.active.pop } name t.functionFrame := by
      rw [usesWithin, usesWithin, hReports.pendingUses, hReports.frames]
    refine ⟨hReports.sameArena.trans hMoves.same, fun name => ?_, hMoves.gone,
      fun entry hEntry => ?_,
      fun id name hOther => (hMoves.others id name hOther).trans (hReports.binding? id name)⟩
    · rw [hMoves.uses, hReports.pendingUses, hReports.frames]
    · rw [hMoves.home entry hEntry, hReports.binding?, hWithin]

end Tracker

end Scope

end ScriptLint
