import ScriptLint.Proofs.Scope.Tally

/-!
# Trackers of which one is a declaration ahead

A name can be declared before or after other things happen. In between, two trackers differ: one has
the binding already, the other still has the uses of the name pending.

- `settled`: the pending uses without those of a name inside a frame.
- `Ahead`: the first tracker has bound the name in the frame, the second has not, and otherwise they
  are alike.
- `Ahead.reference`, `Ahead.assign`, `Ahead.declare`, `Ahead.enter`, `Ahead.exit`: what happens to
  other names and to frames happens to both.
- `Ahead.modifySelf`, `Ahead.defer_late`: what may happen to one of them only.
-/

namespace ScriptLint.Scope.Tracker

open Setting (Layers)

/-! ## Pending uses of one name -/

section Settle

variable (t : Tracker) (name : String) (home : FrameId)

/-- The pending uses without those of the name inside the frame. -/
def settled : OrderedMap String (List Pending) :=
  match t.pending.get? name with
  | none => t.pending
  | some refs =>
    let rest := refs.filter fun r => !isWithin t.frames r.frame home
    t.pending.update name fun _ => if rest.isEmpty then none else some rest

/-- What is left pending after a claim. -/
theorem takePending_snd :
    (t.takePending name home).2 = { t with pending := t.settled name home } := by
  unfold takePending settled
  -- the uses are parted by where they are; those outside the frame stay
  cases t.pending.get? name with
  | none => rfl
  | some refs =>
    have hRest : (refs.partition fun r => isWithin t.frames r.frame home).2 =
        refs.filter fun r => !isWithin t.frames r.frame home := by
      rw [List.partition_eq_filter_filter]
      rfl
    dsimp only
    rw [hRest]
    generalize refs.filter (fun r => !isWithin t.frames r.frame home) = rest
    cases rest with
    | nil => rw [OrderedMap.erase_eq_update]; rfl
    | cons r rest => rw [OrderedMap.modify_eq_update]; rfl

variable {t} {name home}

variable {u : Tracker}

/-- What is settled depends on the pending uses and on where they lie. -/
theorem settled_congr (hPending : u.pending = t.pending)
    (hWithin : ∀ refs, t.pending.get? name = some refs →
    ∀ r ∈ refs, isWithin u.frames r.frame home = isWithin t.frames r.frame home) :
    u.settled name home = t.settled name home := by
  unfold settled
  rw [hPending]
  cases hRefs : t.pending.get? name with
  | none => rfl
  | some refs =>
    have hRest : refs.filter (fun r => !isWithin u.frames r.frame home) =
        refs.filter fun r => !isWithin t.frames r.frame home :=
      List.filter_congr fun r hr => by rw [hWithin refs hRefs r hr]
    dsimp only
    rw [hRest]

/-- Settling one name and updating another commute. -/
theorem settled_update {other : String} (hOther : other ≠ name)
    (f : List Pending → Option (List Pending)) :
    settled { t with pending := t.pending.update other f } name home =
      (t.settled name home).update other f := by
  unfold settled
  dsimp only
  rw [OrderedMap.get?_update _ _ _ hOther.symm]
  cases t.pending.get? name with
  | none => rfl
  | some refs => exact t.pending.update_comm hOther _ _

/-- So do settling one and inserting another. -/
theorem settled_insert {other : String} (hOther : other ≠ name) (uses : List Pending) :
    settled { t with pending := t.pending.insert other uses } name home =
      (t.settled name home).insert other uses := by
  unfold settled
  dsimp only
  rw [OrderedMap.get?_insert, if_neg hOther.symm]
  cases t.pending.get? name with
  | none => rfl
  | some refs => exact t.pending.update_insert hOther _ _

/-- A use inside the frame makes no difference to what is settled. -/
theorem settled_insert_self {r : Pending} (h : isWithin t.frames r.frame home = true) :
    settled { t with pending := t.pending.insert name (r :: (t.pending.get? name).getD []) } name
      home = t.settled name home := by
  unfold settled
  dsimp only
  rw [OrderedMap.get?_insert, if_pos rfl]
  dsimp only
  rw [List.filter_cons_of_neg (by simp [h])]
  cases hRefs : t.pending.get? name with
  | none =>
    refine (OrderedMap.erase_eq_update _ name).symm.trans ?_
    rw [OrderedMap.erase_insert, OrderedMap.erase_of_get?_eq_none _ hRefs]
  | some refs =>
    exact t.pending.update_const_insert _ _ _ (by rw [hRefs]; exact Option.some_ne_none _)

/-- Settling a name leaves the others pending. -/
theorem get?_settled {other : String} (hOther : other ≠ name) :
    (t.settled name home).get? other = t.pending.get? other := by
  unfold settled
  cases t.pending.get? name with
  | none => rfl
  | some refs => exact OrderedMap.get?_update _ _ _ hOther

end Settle

/-! ## Trackers that differ in one declaration -/

/-- The first tracker has bound the name in the frame, the second has not; apart from the bindings
of the name there, they differ at most in their findings. What is pending in the first one has been
settled. -/
structure Ahead (name : String) (home : FrameId) (t u : Tracker) : Prop where
  frames : (t.unbind home name).frames = (u.unbind home name).frames
  active : t.active = u.active
  pending : t.pending = u.settled name home
  predefined : t.predefined = u.predefined
  directiveGlobals : t.directiveGlobals = u.directiveGlobals
  exported : t.exported = u.exported
  unused : t.unused = u.unused

namespace Ahead

variable {t u t' u' : Tracker} {name other : String} {home id : FrameId}

/-! ### What is the same -/

/-- Without the name the frames are the same. -/
theorem frame_unbind (h : Ahead name home t u) (id : FrameId) :
    (t.unbind home name).frame id = (u.unbind home name).frame id := by
  rw [frame, h.frames, frame]

/-- The frames have the same outline. -/
theorem sameArena (h : Ahead name home t u) : u.SameArena t := by
  have hLate := (Rebinds.unbind u home name).toSameArena
  have hEarly := (Rebinds.unbind t home name).toSameArena
  refine ⟨?_, fun id => ?_, h.active⟩
  · rw [← hEarly.size, h.frames, hLate.size]
  · rw [← hEarly.outline, h.frame_unbind, hLate.outline]

/-- Other frames are the same. -/
theorem frame (h : Ahead name home t u) (hId : id ≠ home) : t.frame id = u.frame id := by
  have hOther (t : Tracker) : (t.unbind home name).frame id = t.frame id :=
    (frame_modifyFrame ..).trans (if_neg fun hSame => hId hSame.1)
  rw [← hOther t, h.frame_unbind, hOther]

/-- So are other bindings. -/
theorem binding? (h : Ahead name home t u) (hOther : ¬(id = home ∧ other = name)) :
    t.binding? id other = u.binding? id other := by
  have hUnbound (t : Tracker) : (t.unbind home name).binding? id other = t.binding? id other := by
    rw [binding?_unbind, if_neg hOther]
  rw [← hUnbound t, Tracker.binding?, h.frame_unbind, ← Tracker.binding?, hUnbound]

theorem enclosing (h : Ahead name home t u) : t.enclosing = u.enclosing := by
  unfold Tracker.enclosing
  rw [h.sameArena.lineage, h.sameArena.current]

theorem binds (h : Ahead name home t u) (hOther : other ≠ name) :
    t.binds other = u.binds other := by
  funext id
  rw [binds_eq, binds_eq, h.binding? fun hSame => hOther hSame.2]

/-- Other names are found in the same frames. -/
theorem lookup (h : Ahead name home t u) (hOther : other ≠ name) :
    t.lookup other = u.lookup other := by
  unfold Tracker.lookup
  rw [h.enclosing, h.binds hOther]

theorem functionFrame (h : Ahead name home t u) : t.functionFrame = u.functionFrame := by
  unfold Tracker.functionFrame
  rw [h.sameArena.current, h.sameArena.function]

theorem declarationFrame (h : Ahead name home t u) : t.declarationFrame = u.declarationFrame := by
  unfold Tracker.declarationFrame
  rw [h.enclosing]
  simp only [h.sameArena.kind]

/-! ### Changes -/

/-- What was found in the first one does not matter. -/
theorem early (h : Ahead name home t u) (ht : t.Reports t') (hExtras : t'.extras = t.extras) :
    Ahead name home t' u := by
  simp only [extras, tally, Prod.mk.injEq] at hExtras
  obtain ⟨⟨hUnused, -⟩, hPredefined, hGlobals, hExported⟩ := hExtras
  refine ⟨?_, ht.active.trans h.active, ht.pending.trans h.pending, hPredefined.trans h.predefined,
    hGlobals.trans h.directiveGlobals, hExported.trans h.exported, hUnused.trans h.unused⟩
  rw [← h.frames]
  unfold Tracker.unbind Tracker.modifyFrame
  dsimp only
  rw [ht.frames]

/-- Nor does what was found in the second one. -/
theorem late (h : Ahead name home t u) (hu : u.Reports u') (hExtras : u'.extras = u.extras) :
    Ahead name home t u' := by
  simp only [extras, tally, Prod.mk.injEq] at hExtras
  obtain ⟨⟨hUnused, -⟩, hPredefined, hGlobals, hExported⟩ := hExtras
  refine ⟨?_, h.active.trans hu.active.symm, h.pending.trans ?_,
    h.predefined.trans hPredefined.symm,
    h.directiveGlobals.trans hGlobals.symm, h.exported.trans hExported.symm,
    h.unused.trans hUnused.symm⟩
  · rw [h.frames]
    unfold Tracker.unbind Tracker.modifyFrame
    dsimp only
    rw [hu.frames]
  · exact (settled_congr hu.pending fun _ _ r _ => by rw [hu.frames]).symm

/-- The bindings of a frame change in the same way, and what happens to them does not depend on the
name. -/
theorem modifyBindings (h : Ahead name home t u) (id : FrameId)
    {f : OrderedMap String Binding → OrderedMap String Binding}
    (hf : ∀ bindings, (f bindings).erase name = f (bindings.erase name)) :
    Ahead name home (t.modifyFrame id fun frame => { frame with bindings := f frame.bindings })
      (u.modifyFrame id fun frame => { frame with bindings := f frame.bindings }) := by
  have hUnbind (t : Tracker) :
      ((t.modifyFrame id fun frame => { frame with bindings := f frame.bindings }).unbind
      home name).frames = (t.unbind home name).frames.modify id fun frame =>
        { frame with bindings := f frame.bindings } := by
    refine Array.ext_getElem?  fun other => ?_
    simp only [unbind, modifyFrame, Array.getElem?_modify]
    by_cases hHome : home = other <;> by_cases hId :
      id = other <;> cases t.frames[other]? <;> simp [hHome, hId, hf]
  refine ⟨?_, h.active, h.pending.trans ?_, h.predefined, h.directiveGlobals, h.exported, h.unused⟩
  · rw [hUnbind, hUnbind, h.frames]
  · have hSame :
      u.SameArena (u.modifyFrame id fun frame => { frame with bindings := f frame.bindings }) :=
      .modifyFrame u id fun _ => rfl
    exact Eq.symm (settled_congr rfl fun _ _ r _ => hSame.isWithin r.frame home)

theorem bind (h : Ahead name home t u) (hOther : other ≠ name) (id : FrameId) (b : Binding) :
    Ahead name home (t.bind id other b) (u.bind id other b) :=
  h.modifyBindings id fun bindings => bindings.insert_erase_of_ne hOther b

theorem modifyBinding (h : Ahead name home t u) (hOther : other ≠ name) (id : FrameId)
    (f : Binding → Binding) :
    Ahead name home (t.modifyBinding id other f) (u.modifyBinding id other f) :=
  h.modifyBindings id fun bindings => bindings.modify_erase_of_ne hOther f

theorem unbind (h : Ahead name home t u) (hOther : other ≠ name) (id : FrameId) :
    Ahead name home (t.unbind id other) (u.unbind id other) :=
  h.modifyBindings id fun bindings => bindings.erase_erase_of_ne hOther

/-- The binding that only the first one has may change. -/
theorem modifySelf (h : Ahead name home t u) (f : Binding → Binding) :
    Ahead name home (t.modifyBinding home name f) u := by
  refine ⟨?_, h.active, h.pending, h.predefined, h.directiveGlobals, h.exported, h.unused⟩
  rw [← h.frames]
  refine Array.ext_getElem? fun other => ?_
  simp only [Tracker.unbind, Tracker.modifyBinding, modifyFrame, Array.getElem?_modify]
  by_cases hHome : home = other <;> cases t.frames[other]? <;> simp [hHome, OrderedMap.erase_modify]

/-- The early tracker may bind the name at home. -/
theorem bindSelf (h : Ahead name home t u) (b : Binding) :
    Ahead name home (t.bind home name b) u := by
  refine ⟨?_, h.active, h.pending, h.predefined, h.directiveGlobals, h.exported, h.unused⟩
  rw [← h.frames]
  refine Array.ext_getElem? fun other => ?_
  simp only [Tracker.unbind, Tracker.bind, modifyFrame, Array.getElem?_modify]
  by_cases hHome : home = other <;> cases t.frames[other]? <;> simp [hHome, OrderedMap.erase_insert]

/-- Other names are claimed alike. -/
theorem claim (h : Ahead name home t u) (hOther : other ≠ name) (id : FrameId) :
    Ahead name home (t.claim other id) (u.claim other id) := by
  -- the uses of another name are the same in both trackers
  have hGet : t.pending.get? other = u.pending.get? other := by
    rw [h.pending, get?_settled hOther]
  have hWithin (r : Pending) : isWithin t.frames r.frame id = isWithin u.frames r.frame id :=
    h.sameArena.isWithin r.frame id
  have hTaken : (t.takePending other id).1 = (u.takePending other id).1 := by
    rw [takePending_fst, takePending_fst, usesWithin, usesWithin, pendingUses, pendingUses, hGet]
    simp only [hWithin]
  have hSettled :
      t.settled other id = settled { u with pending := u.settled other id } name home := by
    have hRefs : t.settled other id = match u.pending.get? other with
        | none => u.settled name home
        | some refs =>
          let rest := refs.filter fun r => !isWithin u.frames r.frame id
          (u.settled name home).update other fun _ => if rest.isEmpty then none else some rest := by
      rw [settled, hGet, ← h.pending]
      simp only [hWithin]
    rw [hRefs, settled.eq_1 u other id]
    cases u.pending.get? other with
    | none => rfl
    | some refs => exact (settled_update hOther _).symm
  -- first what is taken, then the reads that the binding is given
  have hTake : Ahead name home (t.takePending other id).2 (u.takePending other id).2 := by
    rw [takePending_snd, takePending_snd]
    exact ⟨h.frames, h.active, hSettled, h.predefined, h.directiveGlobals, h.exported, h.unused⟩
  unfold Tracker.claim
  rw [hTaken]
  unfold Tracker.markReads
  generalize ((u.takePending other id).1.filter (!·.isWrite)) = refs
  generalize (t.takePending other id).2 = t, (u.takePending other id).2 = u at hTake
  clear h
  -- by induction on the reads
  induction refs generalizing t u with
  | nil => exact hTake
  | cons r rest ih => exact ih _ _ (hTake.modifyBinding hOther id (·.use r.line))

theorem defer (h : Ahead name home t u) (hOther : other ≠ name) (line column : Nat) (isWrite : Bool)
    (layers : Layers) : Ahead name home (t.defer other line column isWrite layers)
      (u.defer other line column isWrite layers) := by
  refine ⟨h.frames, h.active, ?_, h.predefined, h.directiveGlobals, h.exported, h.unused⟩
  unfold Tracker.defer
  dsimp only
  rw [h.functionFrame, h.sameArena.current, h.pending, get?_settled hOther]
  exact (settled_insert hOther _).symm

/-- A frame is entered alike. -/
theorem enter (h : Ahead name home t u) (hu : u.Sound) (hHome : home < u.frames.size)
    (kind : FrameKind) : Ahead name home (t.enter kind) (u.enter kind) := by
  have hSize : t.frames.size = u.frames.size := h.sameArena.size
  -- the new frame is not the home, so unbinding there and pushing it commute
  have hUnbind {t : Tracker} (hHome : home < t.frames.size) (a : Frame) :
      (t.frames.push a).modify home (fun f => { f with bindings := f.bindings.erase name }) =
        (t.unbind home name).frames.push a := by
    refine Array.ext_getElem? fun other => ?_
    unfold Tracker.unbind Tracker.modifyFrame
    simp only [Array.getElem?_modify, Array.getElem?_push, Array.size_modify]
    by_cases hId : home = other
    · have hNew : other ≠ t.frames.size := hId ▸ Nat.ne_of_lt hHome
      simp [hId, hNew]
    · simp [hId]
  refine ⟨?_, ?_, ?_, h.predefined, h.directiveGlobals, h.exported, h.unused⟩
  · refine (hUnbind (hSize ▸ hHome) _).trans
      ((congrArg₂ Array.push h.frames ?_).trans (hUnbind hHome _).symm)
    rw [h.sameArena.current, h.functionFrame, hSize]
  · show t.active.push t.frames.size = u.active.push u.frames.size
    rw [h.active, hSize]
  · refine h.pending.trans (Eq.symm (settled_congr rfl fun refs hRefs r hr => ?_))
    have hFrame :
        r.frame < u.frames.size := (hu.pending name r (by simpa [pendingUses, hRefs] using hr)).1
    unfold isWithin
    rw [Arena.lineage_enter u kind hFrame]

/-! ### Findings -/

/-- Findings may differ, here by one of the early tracker. -/
theorem report_early (h : Ahead name home t u) (f : Finding) (line column : Nat) :
    Ahead name home (t.report f line column) u :=
  ⟨h.frames, h.active, h.pending, h.predefined, h.directiveGlobals, h.exported, h.unused⟩

/-- Or by one of the late tracker. -/
theorem report_late (h : Ahead name home t u) (f : Finding) (line column : Nat) :
    Ahead name home t (u.report f line column) :=
  ⟨h.frames, h.active, h.pending, h.predefined, h.directiveGlobals, h.exported, h.unused⟩

theorem outOfScope_early (h : Ahead name home t u) (id : FrameId) (other : String)
    (line column : Nat)
    (layers : Layers) : Ahead name home (t.reportOutOfScope id other line column layers) u := by
  unfold reportOutOfScope
  split
  · exact h.report_early _ _ _
  · exact h

theorem outOfScope (h : Ahead name home t u) (id : FrameId) (other : String) (line column : Nat)
    (layers : Layers) : Ahead name home (t.reportOutOfScope id other line column layers)
      (u.reportOutOfScope id other line column layers) := by
  refine outOfScope_early ?_ id other line column layers
  unfold reportOutOfScope
  split
  · exact h.report_late _ _ _
  · exact h

/-! ### Operations on other names -/

theorem useDirectiveGlobal (h : Ahead name home t u) (other : String) :
    Ahead name home (t.useDirectiveGlobal other) (u.useDirectiveGlobal other) :=
  ⟨h.frames, h.active, h.pending,
    h.predefined, by unfold Tracker.useDirectiveGlobal; rw [h.directiveGlobals],
    h.exported, h.unused⟩

theorem resolvesImplicitly (h : Ahead name home t u) (other : String) :
    t.resolvesImplicitly other = u.resolvesImplicitly other := by
  unfold Tracker.resolvesImplicitly inGlobalCode
  rw [h.functionFrame]

/-- Other names are read alike. -/
theorem reference (h : Ahead name home t u) (hOther : other ≠ name) (line column : Nat)
    (layers : Layers) :
    Ahead name home (t.reference other line column layers)
      (u.reference other line column layers) := by
  unfold Tracker.reference
  rw [h.lookup hOther, h.resolvesImplicitly, h.predefined]
  split
  · exact (h.modifyBinding hOther _ (·.use line)).outOfScope _ _ _ _ _
  · split
    · exact h
    · split
      · exact h.useDirectiveGlobal other
      · exact h.defer hOther line column false layers

/-- And written alike. -/
theorem assign (h : Ahead name home t u) (hOther : other ≠ name) (line column : Nat)
    (layers : Layers) :
    Ahead name home (t.assign other line column layers) (u.assign other line column layers) := by
  unfold Tracker.assign
  -- the same case in both, since the name is another
  rw [h.lookup hOther, h.resolvesImplicitly, h.predefined]
  split
  · rw [h.binding? fun hSame => hOther hSame.2]
    dsimp only
    split
    · exact ((h.report_early _ _ _).report_late _ _ _).outOfScope _ _ _ _ _
    · exact h.outOfScope _ _ _ _ _
  · split
    · exact h
    · split
      · dsimp only
        split
        · exact h.useDirectiveGlobal other
        · exact ((h.useDirectiveGlobal other).report_early _ _ _).report_late _ _ _
      · exact h.defer hOther line column true layers

/-- And declared alike. -/
theorem declare (h : Ahead name home t u) (hOther : other ≠ name) (kind : BindingKind)
    (line column : Nat) (layers : Layers) :
    Ahead name home (t.declare other kind line column layers)
      (u.declare other kind line column layers) := by
  -- both declare anew or neither does
  have hAnew : t.bindsAnew other kind = u.bindsAnew other kind := by
    unfold bindsAnew
    rw [h.declarationFrame, h.binding? fun hSame => hOther hSame.2]
  have hExtras (t : Tracker) : (t.declare other kind line column layers).extras =
    (if t.bindsAnew other kind then
      (t.bind t.declarationFrame other { line, column, kind }).claim other t.declarationFrame else
        t).extras := by
    rw [extras_declare]
    split
    · exact (extras_claim (t.bind t.declarationFrame other { line, column, kind }) ..).symm
    · rfl
  refine (Ahead.early ?_ (reports_declare t other kind line column layers) (hExtras t)).late
    (reports_declare u other kind line column layers) (hExtras u)
  rw [hAnew, h.declarationFrame]
  split
  · exact (h.bind hOther _ _).claim hOther _
  · exact h

/-- And moved out alike. -/
theorem moveOut (h : Ahead name home t u) (id function : FrameId) (funcscope : Bool)
    {entry : String × Binding} (hOther : entry.1 ≠ name) :
    Ahead name home (t.moveOut id function funcscope entry)
      (u.moveOut id function funcscope entry) := by
  obtain ⟨other, b⟩ := entry
  have hUnbound := h.unbind hOther id
  -- both functions have the name or neither does
  have hReceived : Ahead name home ((t.unbind id other).receive function other b)
      ((u.unbind id other).receive function other b) := by
    have hSame :
        (t.unbind id other).binding? function other = (u.unbind id other).binding? function other :=
      hUnbound.binding? fun hSame => hOther hSame.2
    unfold receive
    cases hBound : (u.unbind id other).binding? function other with
    | some old =>
      rw [hSame.trans hBound]
      exact hUnbound.modifyBinding hOther function (·.join b)
    | none =>
      rw [hSame.trans hBound]
      exact hUnbound.bind hOther function { b with hoisted := true }
  have hExtras (t : Tracker) : (t.moveOut id function funcscope (other, b)).extras =
      (((t.unbind id other).receive function other b).claim other function).extras := by
    rw [extras_moveOut, extras_claim]
    unfold receive
    split <;> rfl
  exact ((hReceived.claim hOther function).early (reports_moveOut t id function funcscope other b)
    (hExtras t)).late (reports_moveOut u id function funcscope other b) (hExtras u)

theorem addUnused (h : Ahead name home t u) (policy : Setting.UnusedPolicy) (b : UnusedBinding) :
    Ahead name home (t.addUnused policy b) (u.addUnused policy b) := by
  unfold Tracker.addUnused
  dsimp only
  split
  · exact ⟨h.frames, h.active, h.pending, h.predefined, h.directiveGlobals, h.exported,
      congrArg (· ++ [b]) h.unused⟩
  · exact ⟨h.frames, h.active, h.pending, h.predefined, h.directiveGlobals, h.exported,
      congrArg (· ++ [b]) h.unused⟩

/-- One after the other. -/
theorem foldl {β : Type} {f : Tracker → β → Tracker} (l : List β) (h : Ahead name home t u)
    (hf : ∀ {t u}, ∀ b ∈ l, Ahead name home t u → Ahead name home (f t b) (f u b)) :
    Ahead name home (l.foldl f t) (l.foldl f u) := by
  induction l generalizing t u with
  | nil => exact h
  | cons b rest ih =>
    exact ih (hf b List.mem_cons_self h) fun b' hb' => hf b' (List.mem_cons_of_mem _ hb')

/-- Other frames are judged alike. -/
theorem evaluateUnused (h : Ahead name home t u) (hApart : id ≠ home)
    (policy : Setting.UnusedPolicy)
    (lexicalOnly : Bool) : Ahead name home (t.evaluateUnused id policy lexicalOnly)
      (u.evaluateUnused id policy lexicalOnly) := by
  rw [evaluateUnused_eq, evaluateUnused_eq, h.frame hApart, h.exported]
  exact h.foldl _ fun b _ h => h.addUnused policy b

/-- Frames are left alike, unless it is the name's home or they bind the name. -/
theorem exit (h : Ahead name home t u) (hApart : u.current ≠ home)
    (hUnbound : u.binding? u.current name = none) (layers : Layers) :
    Ahead name home (t.exit layers) (u.exit layers) := by
  -- the same frame is left
  have hLeaving : t.leaving? = u.leaving? := by
    unfold leaving? current
    rw [h.active]
  unfold Tracker.exit
  rw [hLeaving]
  cases hSome : u.leaving? with
  | none => exact h
  | some id =>
    obtain rfl : u.current = id := by
      unfold leaving? at hSome
      split at hSome
      · cases hSome
      · exact Option.some.inj hSome
    have hPopped :
        Ahead name home { t with active := t.active.pop } { u with active := u.active.pop } :=
      ⟨h.frames, congrArg Stack.pop h.active, h.pending, h.predefined, h.directiveGlobals,
        h.exported, h.unused⟩
    dsimp only
    rw [h.frame hApart]
    split
    · exact hPopped.evaluateUnused hApart _ false
    · refine (hPopped.evaluateUnused hApart _ true).foldl _ fun entry hEntry h => h.moveOut _ _ _ ?_
      -- the frame does not bind the name, so the name does not move
      rintro rfl
      have hAbsent := ((u.frame u.current).bindings.get?_eq_none_iff entry.1).mp hUnbound
      exact hAbsent (List.mem_map_of_mem (List.mem_filter.mp hEntry).1)

/-! ### Uses of the name -/

/-- A use inside the frame is settled at once. -/
theorem defer_late (h : Ahead name home t u) (hInside : home ∈ lineage u.frames u.current)
    (line column : Nat) (isWrite : Bool) (layers : Layers) :
    Ahead name home t (u.defer name line column isWrite layers) := by
  refine ⟨h.frames, h.active, h.pending.trans ?_, h.predefined, h.directiveGlobals,
    h.exported, h.unused⟩
  unfold Tracker.defer
  dsimp only
  exact Eq.symm (settled_insert_self (by exact (isWithin_iff u _ _).mpr hInside))

end Ahead

end ScriptLint.Scope.Tracker
