import ScriptLint.Proofs.Scope.Frames

/-!
# The lines that the scopes mention

Whatever is found about names is found at a place that the tracker was told: where a name was
declared, used, or declared by a directive. So if all of these lie at or before a line, no finding
lies after it.

- `Tracker.Within`: no place that the tracker mentions lies after a line.
- `Within.declare`, `Within.reference` and so on: every operation whose own place does not lie after
  the line keeps this.
-/

namespace ScriptLint

namespace OrderedMap

variable {κ ν : Type} [DecidableEq κ] {m : OrderedMap κ ν} {P : ν → Prop}

theorem forall_modify {key : κ} {f : ν → ν} (h : ∀ entry ∈ m.entries, P entry.2)
    (hf : ∀ value, P value → P (f value)) : ∀ entry ∈ (m.modify key f).entries, P entry.2 := by
  intro entry hEntry
  obtain ⟨old, hOld, rfl⟩ := List.mem_map.mp hEntry
  split
  · exact hf _ (h old hOld)
  · exact h old hOld

omit [DecidableEq κ] in
theorem forall_snoc {key : κ} {value : ν} (h : ∀ entry ∈ m.entries, P entry.2) (hValue : P value) :
    ∀ entry ∈ m.entries ++ [(key, value)], P entry.2 := by
  intro entry hEntry
  rcases List.mem_append.mp hEntry with hOld | hNew
  · exact h entry hOld
  · exact List.mem_singleton.mp hNew ▸ hValue

theorem forall_insert {key : κ} {value : ν} (h : ∀ entry ∈ m.entries, P entry.2)
    (hValue : P value) : ∀ entry ∈ (m.insert key value).entries, P entry.2 := by
  unfold insert
  split
  · exact forall_modify h fun _ _ => hValue
  · exact forall_snoc h hValue

theorem forall_insertIfNew {key : κ} {value : ν} (h : ∀ entry ∈ m.entries, P entry.2)
    (hValue : P value) : ∀ entry ∈ (m.insertIfNew key value).entries, P entry.2 := by
  unfold insertIfNew
  split
  · exact h
  · exact forall_snoc h hValue

theorem forall_erase {key : κ} (h : ∀ entry ∈ m.entries, P entry.2) :
    ∀ entry ∈ (m.erase key).entries, P entry.2 :=
  fun entry hEntry => h entry (List.mem_filter.mp hEntry).1

theorem forall_get? {key : κ} {value : ν} (h : ∀ entry ∈ m.entries, P entry.2)
    (hValue : m.get? key = some value) : P value := by
  obtain ⟨entries⟩ := m
  change entries.lookup key = some value at hValue
  induction entries with
  | nil => cases hValue
  | cons entry rest ih =>
    obtain ⟨hFirst, hRest⟩ := List.forall_mem_cons.mp h
    rw [List.lookup_cons] at hValue
    split at hValue
    · exact Option.some.inj hValue ▸ hFirst
    · exact ih hRest hValue

end OrderedMap

namespace Scope.Tracker

open Setting (Layers UnusedPolicy ShadowPolicy)

/-- No place that the tracker mentions lies after the line. -/
structure Within (t : Tracker) (last : Nat) : Prop where
  findings : ∀ f ∈ t.findings, f.line ≤ last
  bindings : ∀ f ∈ t.frames.toList, ∀ entry ∈ f.bindings.entries, entry.2.line ≤ last
  pending : ∀ entry ∈ t.pending.entries, ∀ r ∈ entry.2, r.line ≤ last
  globals : ∀ entry ∈ t.directiveGlobals.entries, entry.2.line ≤ last

/-- A new tracker mentions no line. -/
theorem within_fresh (table : Predefined.Table) (last : Nat) :
    Within { predefined := table } last where
  findings := by simp
  bindings := by simp [Frame.program]
  pending := by simp
  globals := by simp

namespace Within

variable {t u : Tracker} {last line column : Nat}

/-- What is within a line is within any later one. -/
theorem mono {later : Nat} (h : t.Within last) (hLater : last ≤ later) : t.Within later where
  findings f hf := Nat.le_trans (h.findings f hf) hLater
  bindings f hf entry hEntry := Nat.le_trans (h.bindings f hf entry hEntry) hLater
  pending entry hEntry r hr := Nat.le_trans (h.pending entry hEntry r hr) hLater
  globals entry hEntry := Nat.le_trans (h.globals entry hEntry) hLater

/-! ## Small changes -/

theorem predefined (h : t.Within last) {table : Predefined.Table} :
    Within { t with predefined := table } last :=
  ⟨h.findings, h.bindings, h.pending, h.globals⟩

theorem drained (h : t.Within last) : Within { t with findings := [] } last :=
  ⟨by simp, h.bindings, h.pending, h.globals⟩

/-- A finding up to the line may be added. -/
theorem report (h : t.Within last) (f : Finding) (hLine : line ≤ last) :
    (t.report f line column).Within last := by
  refine ⟨fun g hg => ?_, h.bindings, h.pending, h.globals⟩
  rcases List.mem_append.mp hg with hOld | hNew
  · exact h.findings g hOld
  · exact List.mem_singleton.mp hNew ▸ hLine

theorem frame (h : t.Within last) (id : FrameId) :
    ∀ entry ∈ (t.frame id).bindings.entries, entry.2.line ≤ last := by
  unfold Tracker.frame
  rw [Array.getD_eq_getD_getElem?]
  cases hFrame : t.frames[id]? with
  | none => simp [Frame.program]
  | some f => exact h.bindings f (Array.mem_toList_iff.mpr (Array.mem_of_getElem? hFrame))

/-- A frame may change within the line. -/
theorem modifyFrame (h : t.Within last) (id : FrameId) {f : Frame → Frame}
    (hf : ∀ frame : Frame, (∀ entry ∈ frame.bindings.entries, entry.2.line ≤ last) →
      ∀ entry ∈ (f frame).bindings.entries, entry.2.line ≤ last) :
        (t.modifyFrame id f).Within last := by
  refine ⟨h.findings, fun frame hFrame => ?_, h.pending, h.globals⟩
  unfold Tracker.modifyFrame at hFrame
  rw [Array.toList_modify, List.mem_iff_getElem?] at hFrame
  obtain ⟨i, hi⟩ := hFrame
  rw [List.getElem?_modify, Option.map_eq_map, Option.map_eq_some_iff] at hi
  obtain ⟨old, hOld, hNew⟩ := hi
  have hBindings := h.bindings old (List.mem_of_getElem? hOld)
  subst hNew
  split
  · exact hf old hBindings
  · exact hBindings

theorem bind (h : t.Within last) (id : FrameId) (name : String) {b : Binding}
    (hLine : b.line ≤ last) : (t.bind id name b).Within last :=
  h.modifyFrame id fun _ hOld => OrderedMap.forall_insert (P := (Binding.line · ≤ last)) hOld hLine

theorem modifyBinding (h : t.Within last) (id : FrameId) (name : String) {f : Binding → Binding}
    (hf : ∀ b, (f b).line = b.line) : (t.modifyBinding id name f).Within last :=
  h.modifyFrame id fun _ hOld =>
    OrderedMap.forall_modify (P := (Binding.line · ≤ last)) hOld fun b hb => hf b ▸ hb

theorem markUsed (h : t.Within last) (id : FrameId) (name : String) (read : Nat) :
    (t.markUsed id name read).Within last :=
  h.modifyBinding id name fun _ => rfl

theorem unbind (h : t.Within last) (id : FrameId) (name : String) :
    (t.unbind id name).Within last :=
  h.modifyFrame id fun _ hOld => OrderedMap.forall_erase (P := (Binding.line · ≤ last)) hOld

theorem enter (h : t.Within last) (kind : FrameKind) : (t.enter kind).Within last := by
  refine ⟨h.findings, fun f hf => ?_, h.pending, h.globals⟩
  unfold Tracker.enter at hf
  rw [Array.toList_push] at hf
  rcases List.mem_append.mp hf with hOld | hNew
  · exact h.bindings f hOld
  · rw [List.mem_singleton.mp hNew]
    simp

theorem addLabel (h : t.Within last) (label : String) : (t.addLabel label).Within last :=
  h.modifyFrame _ fun _ hOld => hOld

/-- What is taken, and what stays, is within the line. -/
theorem takePending (h : t.Within last) (name : String) (id : FrameId) :
    (∀ r ∈ (t.takePending name id).1, r.line ≤ last) ∧ (t.takePending name id).2.Within last := by
  unfold Tracker.takePending
  cases hRefs : t.pending.get? name with
  | none => exact ⟨by simp, h⟩
  | some refs =>
    have hAll : ∀ r ∈ refs, r.line ≤ last :=
      OrderedMap.forall_get? (P := fun refs : List Pending => ∀ r ∈ refs, r.line ≤ last)
        h.pending hRefs
    simp only [List.partition_eq_filter_filter]
    refine ⟨fun r hr => ?_, h.findings, h.bindings, ?_, h.globals⟩
    · exact hAll r (List.mem_filter.mp (List.mem_reverse.mp hr)).1
    · dsimp only
      split
      · exact OrderedMap.forall_erase (P := fun refs : List Pending => ∀ r ∈ refs, r.line ≤ last)
          h.pending
      · exact OrderedMap.forall_modify (P := fun refs : List Pending => ∀ r ∈ refs, r.line ≤ last)
          h.pending fun _ _ r hr => hAll r (List.mem_filter.mp hr).1

theorem markReads (h : t.Within last) (id : FrameId) (name : String) (refs : List Pending) :
    (t.markReads id name refs).Within last := by
  unfold Tracker.markReads
  induction refs.filter (!·.isWrite) generalizing t with
  | nil => exact h
  | cons r rest ih => exact ih (h.markUsed id name r.line)

/-! ## Declaring -/

theorem claimPending (h : t.Within last) (name : String) (id : FrameId) (kind : BindingKind)
    (hLine : line ≤ last) : (t.claimPending name id kind line column).Within last := by
  have hTaken := (h.takePending name id).2.markReads id name (t.takePending name id).1
  unfold Tracker.claimPending
  dsimp only
  split
  · exact hTaken.report _ hLine
  · exact hTaken

theorem bindNew (h : t.Within last) (name : String) (id : FrameId) (kind : BindingKind)
    (hLine : line ≤ last) : (t.bindNew name id kind line column).Within last := by
  have hBound : (t.bind id name { line, column, kind }).Within last := h.bind id name hLine
  unfold Tracker.bindNew
  split
  · split
    · exact hBound.claimPending name id kind hLine
    · exact h
  · exact hBound.claimPending name id kind hLine

theorem reportPredefined (h : t.Within last) (name : String) (id : FrameId) (kind : BindingKind)
    (shadow : ShadowPolicy) (hLine : line ≤ last) :
    (t.reportPredefined name id kind shadow line column).Within last := by
  unfold Tracker.reportPredefined
  split
  · exact h.report _ hLine
  · exact h

theorem reportAny (h : t.Within last) (f : Option Finding) (hLine : line ≤ last) :
    (t.reportAny f line column).Within last := by
  cases f with
  | none => exact h
  | some f => exact h.report f hLine

/-- A declaration may be added. -/
theorem declare (h : t.Within last) (name : String) (kind : BindingKind) (hLine : line ≤ last)
    (layers : Layers) : (t.declare name kind line column layers).Within last := by
  have hBinds {u : Tracker} (hu : u.Within last) (id : FrameId) :
      ((u.reportPredefined name id kind layers.shadowPolicy line column).bindNew name id kind line
        column).Within last :=
    (hu.reportPredefined name id kind _ hLine).bindNew name id kind hLine
  have hAgain : (t.reportAny (t.redefinition? name layers.shadowPolicy) line column).Within last :=
    h.reportAny _ hLine
  unfold Tracker.declare
  dsimp only
  split
  · split
    · exact h.report _ hLine
    · exact hBinds h _
  · refine hBinds ?_ _
    split
    · exact hAgain
    · exact hAgain
    · exact hAgain
    · exact h

/-! ## Using -/

theorem reportOutOfScope (h : t.Within last) (id : FrameId) (name : String) (layers : Layers)
    (hLine : line ≤ last) : (t.reportOutOfScope id name line column layers).Within last := by
  unfold Tracker.reportOutOfScope
  split
  · exact h.report _ hLine
  · exact h

theorem useDirectiveGlobal (h : t.Within last) (name : String) :
    (t.useDirectiveGlobal name).Within last :=
  ⟨h.findings, h.bindings, h.pending,
    OrderedMap.forall_modify (P := (DirectiveGlobal.line · ≤ last)) h.globals fun _ hg => hg⟩

/-- A use may be deferred. -/
theorem defer (h : t.Within last) (name : String) (isWrite : Bool) (layers : Layers)
    (hLine : line ≤ last) : (t.defer name line column isWrite layers).Within last := by
  refine ⟨h.findings, h.bindings, ?_, h.globals⟩
  refine OrderedMap.forall_insert (P := fun refs : List Pending => ∀ r ∈ refs, r.line ≤ last)
    h.pending fun r hr => ?_
  rcases List.mem_cons.mp hr with rfl | hOld
  · exact hLine
  · cases hRefs : t.pending.get? name with
    | none =>
      rw [hRefs] at hOld
      cases hOld
    | some refs =>
      rw [hRefs] at hOld
      exact OrderedMap.forall_get? (P := fun refs : List Pending => ∀ r ∈ refs, r.line ≤ last)
        h.pending hRefs r hOld

theorem reference (h : t.Within last) (name : String) (layers : Layers) (hLine : line ≤ last) :
    (t.reference name line column layers).Within last := by
  unfold Tracker.reference
  split
  · exact (h.markUsed _ name line).reportOutOfScope _ name layers hLine
  · split
    · exact h
    · split
      · exact h.useDirectiveGlobal name
      · exact h.defer name false layers hLine

theorem referenceGuarded (h : t.Within last) (name : String) (read : Nat) :
    (t.referenceGuarded name read).Within last := by
  unfold Tracker.referenceGuarded
  split
  · exact h.markUsed _ name read
  · split
    · exact h.useDirectiveGlobal name
    · exact h

/-- A write may be checked. -/
theorem assign (h : t.Within last) (name : String) (layers : Layers) (hLine : line ≤ last) :
    (t.assign name line column layers).Within last := by
  unfold Tracker.assign
  split
  · refine Within.reportOutOfScope ?_ _ name layers hLine
    split
    · exact h.report _ hLine
    · exact h
  · split
    · exact h
    · split
      · dsimp only
        split
        · exact h.useDirectiveGlobal name
        · exact (h.useDirectiveGlobal name).report _ hLine
      · exact h.defer name true layers hLine

theorem declareGlobal (h : t.Within last) (name : String) (writable : Bool) (hLine : line ≤ last) :
    (t.declareGlobal name writable line column).Within last := by
  have hDeclared : ∀ entry ∈ (t.directiveGlobals.insertIfNew name { line, column }).entries,
      entry.2.line ≤ last :=
    OrderedMap.forall_insertIfNew (P := (DirectiveGlobal.line · ≤ last)) h.globals hLine
  refine ⟨h.findings, h.bindings,
    OrderedMap.forall_erase (P := fun refs : List Pending => ∀ r ∈ refs, r.line ≤ last) h.pending,
    ?_⟩
  unfold Tracker.declareGlobal
  dsimp only
  split
  · exact OrderedMap.forall_modify (P := (DirectiveGlobal.line · ≤ last)) hDeclared fun _ hg => hg
  · exact hDeclared

/-! ## Leaving -/

theorem addUnused (h : t.Within last) (policy : UnusedPolicy) {b : UnusedBinding}
    (hLine : b.line ≤ last) : (t.addUnused policy b).Within last := by
  have hReported :
      (if policy = .off then t else t.report (.unused b.name) b.line b.column).Within last := by
    split
    · exact h
    · exact h.report _ hLine
  exact ⟨hReported.findings, hReported.bindings, hReported.pending, hReported.globals⟩

theorem foldl {β : Type} {f : Tracker → β → Tracker} {l : List β} (h : t.Within last)
    (hf : ∀ u : Tracker, u.Within last → ∀ b ∈ l, (f u b).Within last) :
    (l.foldl f t).Within last := by
  induction l generalizing t with
  | nil => exact h
  | cons b rest ih =>
    exact ih (hf t h b List.mem_cons_self) fun u hu c hc => hf u hu c (List.mem_cons_of_mem _ hc)

theorem evaluateUnused (h : t.Within last) (id : FrameId) (policy : UnusedPolicy)
    (lexicalOnly : Bool) : (t.evaluateUnused id policy lexicalOnly).Within last :=
  h.foldl fun _ hu entry hEntry => hu.addUnused policy
    (h.frame id entry (mem_unreadBindings hEntry).1)

/-- A binding may be hoisted. -/
theorem hoist (h : t.Within last) (function : FrameId) (name : String) {b : Binding}
    (hLine : b.line ≤ last)
    (funcscope : Bool) : (t.hoist function name b funcscope).Within last := by
  have hReceived : (t.receive function name b).Within last := by
    unfold Tracker.receive
    split
    · exact h.modifyBinding function name fun _ => rfl
    · exact h.bind function name hLine
  obtain ⟨hClaimed, hRest⟩ := hReceived.takePending name function
  refine hRest.foldl fun u hu r hr => ?_
  have hRead : (if r.isWrite then u else u.markUsed function name r.line).Within last := by
    split
    · exact hu
    · exact hu.markUsed function name r.line
  dsimp only
  split
  · exact hRead.report _ (hClaimed r hr)
  · exact hRead

/-- A frame may be left. -/
theorem exit (h : t.Within last) (layers : Layers) : (t.exit layers).Within last := by
  have hLeft : Within { t with active := t.active.pop } last :=
    ⟨h.findings, h.bindings, h.pending, h.globals⟩
  unfold Tracker.exit
  split
  · exact h
  · next id _ =>
    dsimp only
    split
    · exact hLeft.evaluateUnused id _ _
    · refine (hLeft.evaluateUnused id _ _).foldl fun u hu entry hEntry => ?_
      exact (hu.unbind id entry.1).hoist _ entry.1
        (h.frame id entry (List.mem_filter.mp hEntry).1) _

end Within

end Scope.Tracker

end ScriptLint
