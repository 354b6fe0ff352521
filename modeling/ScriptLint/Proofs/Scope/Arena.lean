import ScriptLint.Proofs.OrderedMap
import ScriptLint.Proofs.Scope.Evolution

/-!
# The arena of frames

Frames are numbered as they are opened. Each but the program's lies inside one opened before it, and
the active frames are the current one and those around it.

- `Tracker.frame_modifyFrame`, `binding?_bind`, `binding?_modifyBinding`: what changes in one frame
  does to the others.
- `Frame.outline`, `Tracker.SameArena`: frames keep what opened them and where they lie; only their
  bindings change.
- `Tracker.Arena`: the invariant of the arena, kept when a frame is opened (`Arena.enter`) and when
  one is left (`Arena.leave`).
-/

namespace ScriptLint.Scope

/-- What opened a frame and where it lies. -/
def Frame.outline (f : Frame) : FrameKind × Option FrameId × FrameId :=
  (f.kind, f.parent, f.function)

namespace Tracker

variable {t u v : Tracker}

/-! ## Single frames -/

/-- Only the frame is modified, and only if it is there. -/
theorem frame_modifyFrame (t : Tracker) (id other : FrameId) (f : Frame → Frame) :
    (t.modifyFrame id f).frame other =
      if other = id ∧ id < t.frames.size then f (t.frame id) else t.frame other := by
  simp only [frame, modifyFrame, Array.getD_eq_getD_getElem?, Array.getElem?_modify]
  by_cases hId : id = other
  · subst hId
    by_cases hSize : id < t.frames.size
    · simp [hSize]
    · simp [hSize]
  · simp [hId, Ne.symm hId]

/-- A frame that is not there reads as the program's. -/
theorem frame_of_size_le {id : FrameId} (h : t.frames.size ≤ id) : t.frame id = .program := by
  simp [frame, Array.getD_eq_getD_getElem?, h]

/-- It binds nothing. -/
theorem binding?_of_size_le {id : FrameId} (h : t.frames.size ≤ id) (name : String) :
    t.binding? id name = none := by
  rw [binding?, frame_of_size_le h]
  rfl

theorem binds_eq (t : Tracker) (name : String) (id : FrameId) :
    t.binds name id = (t.binding? id name).isSome := rfl

/-- A binding is found where it was made. -/
theorem binding?_bind (t : Tracker) {id : FrameId} (h : id < t.frames.size) (name : String)
    (b : Binding) (other : FrameId) (name' : String) :
    (t.bind id name b).binding? other name' =
      if other = id ∧ name' = name then some b else t.binding? other name' := by
  unfold bind binding?
  rw [frame_modifyFrame]
  by_cases hId : other = id
  · simp only [hId, h, and_self, if_true, true_and, OrderedMap.get?_insert]
  · simp [hId]

/-- A binding is modified where it is. -/
theorem binding?_modifyBinding (t : Tracker) (id : FrameId) (name : String) (f : Binding → Binding)
    (other : FrameId) (name' : String) :
    (t.modifyBinding id name f).binding? other name' =
      if other = id ∧ name' = name then (t.binding? id name).map f else t.binding? other name' := by
  -- a frame that is not there has nothing to modify
  by_cases hSize : id < t.frames.size
  · unfold modifyBinding binding?
    rw [frame_modifyFrame]
    by_cases hId : other = id
    · simp only [hId, hSize, and_self, if_true, true_and, OrderedMap.get?_modify]
    · simp [hId]
  · have hNone := binding?_of_size_le (Nat.le_of_not_lt hSize)
    have hSame : (t.modifyBinding id name f).binding? other name' = t.binding? other name' := by
      unfold modifyBinding binding?
      rw [frame_modifyFrame, if_neg fun h => hSize h.2]
    rw [hSame]
    split
    · next h => rw [h.1, hNone, hNone]; rfl
    · rfl

/-- Takes the binding of a name out of a frame. -/
def unbind (t : Tracker) (id : FrameId) (name : String) : Tracker :=
  t.modifyFrame id fun f => { f with bindings := f.bindings.erase name }

/-- It is gone where it was. -/
theorem binding?_unbind (t : Tracker) (id : FrameId) (name : String) (other : FrameId)
    (name' : String) : (t.unbind id name).binding? other name' =
      if other = id ∧ name' = name then none else t.binding? other name' := by
  by_cases hSize : id < t.frames.size
  · unfold unbind binding?
    rw [frame_modifyFrame]
    by_cases hId : other = id
    · simp only [hId, hSize, and_self, if_true, true_and, OrderedMap.get?_erase]
    · simp [hId]
  · have hSame : (t.unbind id name).binding? other name' = t.binding? other name' := by
      unfold unbind binding?
      rw [frame_modifyFrame, if_neg fun h => hSize h.2]
    rw [hSame]
    split
    · next h => rw [h.1, binding?_of_size_le (Nat.le_of_not_lt hSize)]
    · rfl

/-! ## Outlines -/

/-- The same frames in the same places, with the same ones active. -/
structure SameArena (t u : Tracker) : Prop where
  size : u.frames.size = t.frames.size
  outline : ∀ id, (u.frame id).outline = (t.frame id).outline
  active : u.active = t.active

namespace SameArena

theorem refl (t : Tracker) : t.SameArena t := ⟨rfl, fun _ => rfl, rfl⟩

theorem symm (h : t.SameArena u) : u.SameArena t :=
  ⟨h.size.symm, fun id => (h.outline id).symm, h.active.symm⟩

theorem trans (h : t.SameArena u) (h' : u.SameArena v) : t.SameArena v :=
  ⟨h'.size.trans h.size, fun id => (h'.outline id).trans (h.outline id), h'.active.trans h.active⟩

/-- The same frames have the same outline. -/
theorem of_frames (hFrames : u.frames = t.frames) (hActive : u.active = t.active) :
    t.SameArena u := by
  refine ⟨by rw [hFrames], fun id => ?_, hActive⟩
  rw [frame, frame, hFrames]

/-- Bindings are no part of the outline. -/
theorem modifyFrame (t : Tracker) (id : FrameId) {f : Frame → Frame}
    (h : ∀ frame, (f frame).outline = frame.outline) : t.SameArena (t.modifyFrame id f) := by
  refine ⟨Array.size_modify, fun other => ?_, rfl⟩
  rw [frame_modifyFrame]
  split
  · next hSame => rw [h, hSame.1]
  · rfl

theorem kind (h : t.SameArena u) (id : FrameId) : (u.frame id).kind = (t.frame id).kind :=
  congrArg Prod.fst (h.outline id)

theorem parent (h : t.SameArena u) (id : FrameId) : (u.frame id).parent = (t.frame id).parent :=
  congrArg (·.2.1) (h.outline id)

theorem function (h : t.SameArena u) (id : FrameId) :
    (u.frame id).function = (t.frame id).function :=
  congrArg (·.2.2) (h.outline id)

theorem current (h : t.SameArena u) : u.current = t.current := congrArg Stack.top h.active

end SameArena

/-! ## Lineages -/

/-- The frames around a frame, by the place of its parent. -/
theorem lineage_eq (t : Tracker) (id : FrameId) :
    lineage t.frames id = id :: match (t.frame id).parent with
      | some parent => if parent < id then lineage t.frames parent else []
      | none => [] := by
  have hParent : t.frames[id]?.bind Frame.parent = (t.frame id).parent := by
    rw [frame, Array.getD_eq_getD_getElem?]
    cases t.frames[id]? <;> rfl
  rewrite [lineage, hParent]
  rfl

/-- A frame is in its own lineage. -/
theorem self_mem_lineage (t : Tracker) (id : FrameId) : id ∈ lineage t.frames id := by
  rw [lineage_eq]
  exact List.mem_cons_self

/-- By strong induction on the index; parents have smaller ones. -/
theorem le_of_mem_lineage {id other : FrameId} (h : other ∈ lineage t.frames id) : other ≤ id := by
  induction id using Nat.strongRecOn with
  | ind id ih =>
    rw [lineage_eq] at h
    rcases List.mem_cons.mp h with rfl | h
    · exact Nat.le_refl _
    · split at h
      · split at h
        · next hLess => exact Nat.le_of_lt (Nat.lt_of_le_of_lt (ih _ hLess h) hLess)
        · cases h
      · cases h

/-- Lineages depend on the parents only. -/
theorem lineage_congr {id : FrameId} (h : ∀ other ≤ id,
    (u.frame other).parent = (t.frame other).parent) :
    lineage u.frames id = lineage t.frames id := by
  induction id using Nat.strongRecOn with
  | ind id ih =>
    rw [lineage_eq, lineage_eq, h id (Nat.le_refl _)]
    cases (t.frame id).parent with
    | none => rfl
    | some parent =>
      dsimp only
      split
      · next hLess =>
        rw [ih parent hLess fun other hOther => h other (Nat.le_trans hOther (Nat.le_of_lt hLess))]
      · rfl

/-- Lineages depend on the outline alone. -/
theorem SameArena.lineage (h : t.SameArena u) (id : FrameId) :
    lineage u.frames id = lineage t.frames id :=
  lineage_congr fun other _ => h.parent other

theorem SameArena.isWithin (h : t.SameArena u) (id ancestor : FrameId) :
    isWithin u.frames id ancestor = isWithin t.frames id ancestor := by
  rw [Scope.isWithin, Scope.isWithin, h.lineage]

/-- Being within is being of the lineage. -/
theorem isWithin_iff (t : Tracker) (id ancestor : FrameId) :
    isWithin t.frames id ancestor = true ↔ ancestor ∈ lineage t.frames id :=
  List.contains_iff_mem

/-! ## The invariant -/

/-- The program's frame lies outside all others, each of which lies inside one opened before it and
belongs to the function of that one unless it is a function itself. The active frames are those
around the current place. -/
structure Arena (t : Tracker) : Prop where
  size : 0 < t.frames.size
  root : (t.frame 0).outline = Frame.program.outline
  inner : ∀ id, 0 < id → id < t.frames.size → ∃ parent < id, (t.frame id).parent = some parent ∧
    (t.frame id).function = if (t.frame id).kind = .function then id else (t.frame parent).function
  current : t.current < t.frames.size
  active : t.active.toList = lineage t.frames t.current

namespace Arena

/-- So does the invariant. -/
theorem of_sameArena (h : t.Arena) (hSame : t.SameArena u) : u.Arena := by
  refine ⟨hSame.size ▸ h.size, (hSame.outline 0).trans h.root, fun id hPos hSize => ?_, ?_, ?_⟩
  · obtain ⟨parent, hLess, hParent, hFunction⟩ := h.inner id hPos (hSame.size ▸ hSize)
    refine ⟨parent, hLess, (hSame.parent id).trans hParent, ?_⟩
    rw [hSame.function, hFunction, hSame.kind, hSame.function]
  · rw [hSame.current, hSame.size]
    exact h.current
  · rw [hSame.active, h.active, hSame.current, hSame.lineage]

/-- The lineage of the program. -/
theorem lineage_root (h : t.Arena) : lineage t.frames 0 = [0] := by
  have hParent : (t.frame 0).parent = none := congrArg (·.2.1) h.root
  rw [lineage_eq, hParent]

/-- The lineage of any other frame goes on with its parent's. -/
theorem lineage_inner (h : t.Arena) {id : FrameId} (hPos : 0 < id) (hSize : id < t.frames.size) :
    ∃ parent < id, (t.frame id).parent = some parent ∧
      lineage t.frames id = id :: lineage t.frames parent := by
  obtain ⟨parent, hLess, hParent, -⟩ := h.inner id hPos hSize
  refine ⟨parent, hLess, hParent, ?_⟩
  rw [lineage_eq, hParent]
  dsimp only
  rw [if_pos hLess]

/-- A frame lies in the function that it belongs to. By strong induction on the index. -/
theorem function_mem (h : t.Arena) {id : FrameId} (hSize : id < t.frames.size) :
    (t.frame id).function ∈ lineage t.frames id := by
  induction id using Nat.strongRecOn with
  | ind id ih =>
    rcases Nat.eq_zero_or_pos id with rfl | hPos
    · have hFunction : (t.frame 0).function = 0 := congrArg (·.2.2) h.root
      rw [hFunction]
      exact self_mem_lineage t 0
    · obtain ⟨parent, hLess, hParent, hFunction⟩ := h.inner id hPos hSize
      split at hFunction
      · rw [hFunction]
        exact self_mem_lineage t id
      · obtain ⟨parent', hLess', hParent', hLineage⟩ := h.lineage_inner hPos hSize
        obtain rfl : parent = parent' := Option.some.inj (hParent.symm.trans hParent')
        rw [hFunction, hLineage]
        exact List.mem_cons_of_mem _ (ih parent hLess (Nat.lt_trans hLess hSize))

/-- Every frame lies in the program. By strong induction on the index. -/
theorem root_mem (h : t.Arena) {id : FrameId} (hSize : id < t.frames.size) :
    0 ∈ lineage t.frames id := by
  induction id using Nat.strongRecOn with
  | ind id ih =>
    rcases Nat.eq_zero_or_pos id with rfl | hPos
    · exact self_mem_lineage t 0
    · obtain ⟨parent, hLess, -, hLineage⟩ := h.lineage_inner hPos hSize
      rw [hLineage]
      exact List.mem_cons_of_mem _ (ih parent hLess (Nat.lt_trans hLess hSize))

/-- Frames in use are there. -/
theorem lt_size_of_active (h : t.Arena) {id : FrameId} (hActive : id ∈ t.active.toList) :
    id < t.frames.size := by
  rw [h.active] at hActive
  exact Nat.lt_of_le_of_lt (le_of_mem_lineage hActive) h.current

/-- The frame with the number of frames so far as its index is the one that is opened. -/
theorem frame_enter (t : Tracker) (kind : FrameKind) (id : FrameId) :
    (t.enter kind).frame id = if id = t.frames.size then
      { kind, parent := some t.current
        function := if kind = .function then t.frames.size else t.functionFrame }
    else t.frame id := by
  unfold frame enter
  dsimp only
  rw [Array.getD_eq_getD_getElem?, Array.getElem?_push]
  split
  · rfl
  · rw [Array.getD_eq_getD_getElem?]

/-- A new frame leaves the older lineages. -/
theorem lineage_enter (t : Tracker) (kind : FrameKind) {id : FrameId} (hSize : id < t.frames.size) :
    lineage (t.enter kind).frames id = lineage t.frames id := by
  refine lineage_congr fun other hOther => ?_
  rw [frame_enter, if_neg (Nat.ne_of_lt (Nat.lt_of_le_of_lt hOther hSize))]

/-- A new frame has the current one for its parent. -/
theorem enter (h : t.Arena) (kind : FrameKind) : (t.enter kind).Arena := by
  have hSize : (t.enter kind).frames.size = t.frames.size + 1 := Array.size_push _
  have hOld {id : FrameId} (hId : id < t.frames.size) : (t.enter kind).frame id = t.frame id := by
    rw [frame_enter, if_neg (Nat.ne_of_lt hId)]
  have hNew := frame_enter t kind t.frames.size
  rw [if_pos rfl] at hNew
  refine ⟨hSize ▸ Nat.succ_pos _, (hOld h.size) ▸ h.root, fun id hPos hId => ?_, ?_, ?_⟩
  -- an older frame is as it was, and the new one is the last
  · rcases Nat.lt_or_eq_of_le (Nat.le_of_lt_succ (hSize ▸ hId)) with hLess | rfl
    · obtain ⟨parent, hParentLess, hParent, hFunction⟩ := h.inner id hPos hLess
      refine ⟨parent, hParentLess, ?_⟩
      rw [hOld hLess, hOld (Nat.lt_trans hParentLess hLess)]
      exact ⟨hParent, hFunction⟩
    · refine ⟨t.current, h.current, ?_⟩
      rw [hNew, hOld h.current]
      exact ⟨rfl, rfl⟩
  · show t.frames.size < (t.enter kind).frames.size
    omega
  · show t.frames.size :: t.active.toList = lineage (t.enter kind).frames t.frames.size
    rw [lineage_eq, hNew]
    dsimp only
    rw [if_pos h.current, lineage_enter t kind h.current, h.active]

/-- The frames around one that is left are those around its parent. -/
theorem below_eq (h : t.Arena) (hInner : t.active.below ≠ []) :
    ∃ parent < t.current, (t.frame t.current).parent = some parent ∧
      t.active.below = lineage t.frames parent ∧ t.active.pop.top = parent ∧
      t.active.pop.toList = t.active.below := by
  rcases Nat.eq_zero_or_pos t.current with hZero | hPos
  · have hActive := h.active
    rw [hZero, h.lineage_root, Stack.toList] at hActive
    exact absurd (List.cons.inj hActive).2 hInner
  · obtain ⟨parent, hLess, hParent, hLineage⟩ := h.lineage_inner hPos h.current
    have hActive := h.active
    rw [Stack.toList, hLineage] at hActive
    have hBelow := (List.cons.inj hActive).2
    refine ⟨parent, hLess, hParent, hBelow, ?_⟩
    rw [lineage_eq] at hBelow
    rw [Stack.pop, hBelow]
    exact ⟨rfl, rfl⟩

/-- Leaving the innermost frame. -/
theorem leave (h : t.Arena) : Arena { t with active := t.active.pop } := by
  by_cases hInner : t.active.below = []
  · rw [Stack.pop, hInner]
    exact h
  · obtain ⟨parent, hLess, hParent, hBelow, hTop, hPop⟩ := h.below_eq hInner
    refine ⟨h.size, h.root, h.inner, ?_, ?_⟩
    · show t.active.pop.top < t.frames.size
      rw [hTop]
      exact Nat.lt_trans hLess h.current
    · show t.active.pop.toList = lineage t.frames t.active.pop.top
      rw [hPop, hBelow, hTop]

/-- What a frame other than a function leaves behind goes to a function around it. -/
theorem function_mem_below (h : t.Arena) (hInner : t.active.below ≠ [])
    (hKind : (t.frame t.current).kind ≠ .function) :
    t.functionFrame ∈ t.active.below ∧ t.functionFrame ≠ t.current := by
  unfold functionFrame
  obtain ⟨parent, hLess, hParent, hBelow, -⟩ := h.below_eq hInner
  obtain ⟨parent', -, hParent', hFunction⟩ :=
    h.inner t.current (Nat.lt_of_le_of_lt (Nat.zero_le _) hLess) h.current
  obtain rfl : parent = parent' := Option.some.inj (hParent.symm.trans hParent')
  rw [if_neg hKind] at hFunction
  have hMem := h.function_mem (Nat.lt_trans hLess h.current)
  rw [hFunction, hBelow]
  exact ⟨hMem, Nat.ne_of_lt (Nat.lt_of_le_of_lt (le_of_mem_lineage hMem) hLess)⟩

/-- Names are declared in an active frame. -/
theorem declarationFrame_mem (h : t.Arena) : t.declarationFrame ∈ t.active.toList := by
  have hRoot : 0 ∈ t.active.toList := h.active ▸ h.root_mem h.current
  unfold declarationFrame enclosing
  rw [← h.active]
  cases hFind : t.active.toList.find? fun id => (t.frame id).kind ≠ .label with
  | none => exact hRoot
  | some id => exact List.mem_of_find?_eq_some hFind

end Arena

/-- A new tracker has the program's frame. -/
theorem arena_fresh (table : Predefined.Table) : Arena { predefined := table } := by
  refine ⟨Nat.zero_lt_one, rfl, fun id hPos hSize => ?_, Nat.zero_lt_one, ?_⟩
  · exact absurd hSize (Nat.not_lt.mpr hPos)
  · rw [lineage_eq]
    rfl

end Tracker

end ScriptLint.Scope
