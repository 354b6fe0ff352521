import ScriptLint.Proofs.Scope.Ahead

/-!
# Declaring a name late

A use of a name that is not declared yet waits until a declaration claims it. So it makes no
difference when the name is declared, as long as the frame of the declaration is not left in
between: what was read before the declaration and what is read after it come to the same binding.

- `Tracker.Leaves`: no binding of a name and no pending use of it changes.
- `Tracker.extras_exit`, `Tracker.Notes`: what leaving a frame and a use do to what is predefined.
- `Awaits`: two runs of which only the first has declared the name; what it has read so far is what
  waits in the second.
- `Awaits.apply`, `Awaits.foldl`: one operation and a whole run.
- `declare_late`: declaring before a run and after it is the same, up to findings.
-/

namespace ScriptLint.Scope

namespace Tracker

open Setting (Layers)

/-! ## Operations on other names -/

section Untouched

variable {t u : Tracker} {name other : String}

/-- No binding of the name and no pending use of it changes. -/
structure Leaves (name : String) (t t' : Tracker) : Prop where
  binding : ∀ id, t'.binding? id name = t.binding? id name
  uses : t'.pendingUses name = t.pendingUses name

/-- A declaration of another name leaves it. -/
theorem leaves_declare (h : t.Sound) (hOther : other ≠ name) (kind : BindingKind)
    (line column : Nat)
    (layers : Layers) : t.Leaves name (t.declare other kind line column layers) := by
  have hReports := reports_declare t other kind line column layers
  have hSize := h.arena.lt_size_of_active h.arena.declarationFrame_mem
  constructor
  · intro id
    rw [hReports.binding?]
    split
    · rw [binding?_claim, if_neg fun hSame => hOther hSame.2.symm, binding?_bind t hSize,
        if_neg fun hSame => hOther hSame.2.symm]
    · rfl
  · rw [hReports.pendingUses]
    split
    · rw [pendingUses_claim, beq_false_of_ne hOther.symm]
      exact List.filter_eq_self.mpr fun _ _ => rfl
    · rfl

/-- A name is left by one change after the other. -/
theorem Leaves.trans {u v : Tracker} (h : t.Leaves name u) (h' : u.Leaves name v) :
    t.Leaves name v :=
  ⟨fun id => (h'.binding id).trans (h.binding id), h'.uses.trans h.uses⟩

theorem leaves_reports {u : Tracker} (h : t.Reports u) : t.Leaves name u :=
  ⟨fun id => h.binding? id name, h.pendingUses name⟩

theorem leaves_report (t : Tracker) (f : Finding) (line column : Nat) :
    t.Leaves name (t.report f line column) :=
  ⟨fun _ => rfl, rfl⟩

theorem leaves_defer (t : Tracker) (hOther : other ≠ name) (line column : Nat) (isWrite : Bool)
    (layers : Layers) : t.Leaves name (t.defer other line column isWrite layers) := by
  refine ⟨fun _ => rfl, ?_⟩
  unfold defer pendingUses
  rw [OrderedMap.get?_insert, if_neg hOther.symm]

theorem leaves_reference (t : Tracker) (hOther : other ≠ name) (line column : Nat)
    (layers : Layers) : t.Leaves name (t.reference other line column layers) := by
  have hRead (id : FrameId) : t.Leaves name (t.markUsed id other line) := by
    refine ⟨fun id' => ?_, rfl⟩
    rw [markUsed, binding?_modifyBinding, if_neg fun hSame => hOther hSame.2.symm]
  unfold reference
  split
  · exact (hRead _).trans (leaves_reports (reports_reportOutOfScope ..))
  · split
    · exact leaves_reports (.silent rfl)
    · split
      · exact leaves_reports (.silent rfl)
      · exact leaves_defer t hOther line column false layers

/-- A write reports something or is deferred. -/
theorem leaves_assign (t : Tracker) (hLookup : other ≠ name ∨ t.lookup other ≠ none)
    (line column : Nat) (layers : Layers) : t.Leaves name (t.assign other line column layers) := by
  have hSelf : t.Leaves name t := leaves_reports (.silent rfl)
  unfold assign
  cases hFound : t.lookup other with
  | some id =>
    refine Leaves.trans ?_ (leaves_reports (reports_reportOutOfScope ..))
    cases (t.binding? id other).bind (assignFinding? other) with
    | none => exact hSelf
    | some finding => exact leaves_report t finding line column
  | none =>
    have hOther : other ≠ name := hLookup.resolve_right (not_not_intro hFound)
    have hUsed : t.Leaves name (t.useDirectiveGlobal other) := leaves_reports (.silent rfl)
    dsimp only
    split
    · exact hSelf
    · cases t.predefined.lookup other with
      | none => exact leaves_defer t hOther line column true layers
      | some writable =>
        cases writable with
        | true => exact hUsed
        | false => exact hUsed.trans (leaves_report _ _ _ _)

/-- A frame that does not bind the name leaves it. -/
theorem leaves_exit (h : t.Sound) (hUnbound : t.binding? t.current name = none) (layers : Layers) :
    t.Leaves name (t.exit layers) := by
  have hMoves := movesAll_exit h.arena h.tidy.distinct layers
  -- what moves is bound in the frame that is left
  have hStays : name ∉ t.hoisting.map Prod.fst := by
    intro hMoved
    obtain ⟨entry, hEntry, rfl⟩ := List.mem_map.mp hMoved
    unfold hoisting at hEntry
    split at hEntry
    · cases hEntry
    · have hAbsent := ((t.frame t.current).bindings.get?_eq_none_iff entry.1).mp hUnbound
      exact hAbsent (List.mem_map_of_mem (List.mem_filter.mp hEntry).1)
  constructor
  · exact fun id => hMoves.others id name fun hBoth => hStays hBoth.1
  · rw [hMoves.uses]
    refine List.filter_eq_self.mpr fun r _ => ?_
    have hAny : t.hoisting.any (·.1 == name) = false := by
      rw [List.any_eq_false]
      exact fun entry hEntry hSame => hStays (beq_iff_eq.mp hSame ▸ List.mem_map_of_mem hEntry)
    rw [hAny]
    rfl

/-- Leaving a frame lists and hoists; the predefined names and what directives said of them stay. -/
theorem extras_exit (t : Tracker) (layers : Layers) : (t.exit layers).extras.2 = t.extras.2 := by
  have hListed (t : Tracker) (id : FrameId) (lexicalOnly : Bool) :
      (t.evaluateUnused id layers.unusedPolicy lexicalOnly).extras.2 = t.extras.2 := by
    rw [evaluateUnused_eq]
    refine foldl_stays (g := (·.extras.2)) _ _ fun t b => ?_
    unfold addUnused
    dsimp only
    split <;> rfl
  unfold exit
  split
  · rfl
  · dsimp only
    split
    · exact hListed ..
    · refine (foldl_stays (g := (·.extras.2)) _ _ fun t entry => ?_).trans (hListed ..)
      exact congrArg (·.2) (extras_moveOut t ..)

/-- Besides scopes, uses and findings, at most the directive of a name changes: it is noted as
used. -/
def Notes (other : String) (t u : Tracker) : Prop :=
  u.extras.2 = t.extras.2 ∨ u.extras.2 = (t.useDirectiveGlobal other).extras.2

namespace Notes

/-- The predefined names stay. -/
theorem predefined (h : t.Notes other u) : u.predefined = t.predefined := by
  rcases h with h | h
  · exact congrArg Prod.fst h
  · exact congrArg Prod.fst h

theorem exported (h : t.Notes other u) : u.exported = t.exported := by
  rcases h with h | h
  · exact congrArg (·.2.2) h
  · exact congrArg (·.2.2) h

theorem keys (h : t.Notes other u) : u.directiveGlobals.keys = t.directiveGlobals.keys := by
  rcases h with h | h
  · exact congrArg (·.2.1.keys) h
  · exact (congrArg (·.2.1.keys) h).trans (OrderedMap.keys_modify ..)

/-- So do other directives. -/
theorem directive (h : t.Notes other u) (hOther : other ≠ name) :
    u.directiveGlobals.get? name = t.directiveGlobals.get? name := by
  rcases h with h | h
  · exact congrArg (·.2.1.get? name) h
  · refine (congrArg (·.2.1.get? name) h).trans ?_
    exact (OrderedMap.get?_modify ..).trans (if_neg hOther.symm)

end Notes

theorem notes_reportOutOfScope (id : FrameId) (other : String) (line column : Nat)
    (layers : Layers) : t.Notes other (t.reportOutOfScope id other line column layers) := by
  unfold reportOutOfScope
  split <;> exact .inl rfl

theorem notes_reference (t : Tracker) (other : String) (line column : Nat) (layers : Layers) :
    t.Notes other (t.reference other line column layers) := by
  unfold reference
  split
  · exact notes_reportOutOfScope (t := t.markUsed _ other line) ..
  · split
    · exact .inl rfl
    · split
      · exact .inr rfl
      · exact .inl rfl

theorem notes_assign (t : Tracker) (other : String) (line column : Nat) (layers : Layers) :
    t.Notes other (t.assign other line column layers) := by
  unfold assign
  split
  · dsimp only
    split
    · exact notes_reportOutOfScope (t := t.report _ line column) ..
    · exact notes_reportOutOfScope ..
  · split
    · exact .inl rfl
    · split
      · dsimp only
        split <;> exact .inr rfl
      · exact .inl rfl

theorem notes_referenceGuarded (t : Tracker) (other : String) (line : Nat) :
    t.Notes other (t.referenceGuarded other line) := by
  unfold referenceGuarded
  split
  · exact .inl rfl
  · split
    · exact .inr rfl
    · exact .inl rfl

/-- A new frame leaves the name. -/
theorem leaves_enter (t : Tracker) (kind : FrameKind) : t.Leaves name (t.enter kind) := by
  refine ⟨fun id => ?_, rfl⟩
  unfold binding?
  rw [Arena.frame_enter]
  split
  · next hNew =>
    rw [hNew, frame_of_size_le (Nat.le_refl _)]
    rfl
  · rfl

end Untouched

end Tracker

/-! ## Runs -/

open Tracker
open Setting (Layers)

/-- Whether the operation opens or leaves a frame, uses a name or declares one other than this. -/
def Operation.spares (name : String) : Operation → Bool
  | enter _ | exit _ | reference .. | assign .. => true
  | declare other .. => other ≠ name
  | _ => false

/-- Two runs, of which only the first has declared the name in the frame. The second one still
resolves no use of the name from where it is; those made so far inside the frame are what the
binding of the first one has read. -/
structure Awaits (name : String) (home : FrameId) (fresh : Binding) (t u : Tracker) : Prop where
  early : t.Sound
  late : u.Sound
  ahead : Ahead name home t u
  unbound : ∀ id ∈ u.enclosing, u.binding? id name = none
  undeclared : u.predefined.contains name = false
  reads : t.binding? home name = some ((readLines (u.usesWithin name home)).foldl Binding.use fresh)

namespace Awaits

variable {name : String} {home : FrameId} {fresh : Binding} {t u : Tracker} {op : Operation}

/-- In the first run the name resolves to the frame. -/
theorem lookup_early (h : Awaits name home fresh t u) (hInside : home ∈ u.enclosing) :
    t.lookup name = some home := by
  unfold Tracker.lookup
  rw [h.ahead.enclosing]
  cases hFound : u.enclosing.find? (t.binds name) with
  | none =>
    have hNot := List.find?_eq_none.mp hFound home hInside
    rw [binds_eq, h.reads] at hNot
    exact absurd rfl hNot
  | some id =>
    have hBinds := List.find?_some hFound
    by_contra hOther
    have hId : id ≠ home := fun hSame => hOther (congrArg some hSame)
    rw [binds_eq, h.ahead.binding? fun hSame => hId hSame.1,
      h.unbound id (List.mem_of_find?_eq_some hFound)] at hBinds
    cases hBinds

/-- In the second one it does not resolve. -/
theorem lookup_late (h : Awaits name home fresh t u) : u.lookup name = none := by
  unfold Tracker.lookup
  rw [List.find?_eq_none]
  intro id hId
  rw [binds_eq, h.unbound id hId]
  exact Bool.false_ne_true

/-- The home is there. -/
theorem home_lt (h : Awaits name home fresh t u) : home < u.frames.size := by
  by_contra hBeyond
  have hNone : t.binding? home name = none :=
    binding?_of_size_le (h.ahead.sameArena.size ▸ Nat.le_of_not_lt hBeyond) name
  rw [h.reads] at hNone
  cases hNone

/-- An operation that touches neither bindings nor uses of the name. -/
theorem leaves (h : Awaits name home fresh t u) {t' u' : Tracker} (hEarly : t'.Sound)
    (hLate : u'.Sound)
    (hAhead : Ahead name home t' u') (ht : t.Leaves name t') (hu : u.Leaves name u')
    (hPredefined : u'.predefined = u.predefined)
    (hEnclosing : ∀ id ∈ u'.enclosing, id ∈ u.enclosing ∨ u.binding? id name = none)
    (hWithin : ∀ id < u.frames.size, isWithin u'.frames id home = isWithin u.frames id home) :
    Awaits name home fresh t' u' := by
  refine ⟨hEarly, hLate, hAhead, fun id hId => ?_, hPredefined ▸ h.undeclared, ?_⟩
  · rw [hu.binding]
    rcases hEnclosing id hId with hOld | hNone
    · exact h.unbound id hOld
    · exact hNone
  · have hUses : u'.usesWithin name home = u.usesWithin name home := by
      unfold usesWithin
      rw [hu.uses]
      exact List.filter_congr fun r hr => hWithin r.frame (h.late.pending name r hr).1
    rw [ht.binding, hUses]
    exact h.reads

/-- The same where frames stay in their places. -/
theorem leaves_inPlace (h : Awaits name home fresh t u) {t' u' : Tracker} (hEarly : t'.Sound)
    (hLate : u'.Sound)
    (hAhead : Ahead name home t' u') (ht : t.Leaves name t') (hu : u.Leaves name u')
    (hPredefined : u'.predefined = u.predefined) (hSame : u.SameArena u') :
    Awaits name home fresh t' u' := by
  refine h.leaves hEarly hLate hAhead ht hu hPredefined (fun id hId => .inl ?_) fun id _ =>
    hSame.isWithin id home
  unfold Tracker.enclosing at hId ⊢
  rw [hSame.lineage, hSame.current] at hId
  exact hId

/-- A frame may be entered meanwhile. -/
theorem enter (h : Awaits name home fresh t u) (kind : FrameKind) :
    Awaits name home fresh (t.enter kind) (u.enter kind) := by
  have hLate := (sound_enter h.late kind).1
  refine h.leaves (sound_enter h.early kind).1 hLate (h.ahead.enter h.late h.home_lt kind)
    (leaves_enter t kind) (leaves_enter u kind) rfl (fun id hId => ?_) fun id hSize => ?_
  · -- the frame that is opened binds nothing
    have hActive : (u.enter kind).enclosing = u.frames.size :: u.active.toList :=
      hLate.arena.active.symm
    rw [hActive, h.late.arena.active] at hId
    rcases List.mem_cons.mp hId with rfl | hOld
    · exact .inr (binding?_of_size_le (Nat.le_refl _) name)
    · exact .inl hOld
  · unfold isWithin
    rw [Arena.lineage_enter u kind hSize]

/-- Or left, unless it is the home. -/
theorem exit (h : Awaits name home fresh t u) (layers : Layers)
    (hHome : home ∈ (u.exit layers).active.toList) :
    Awaits name home fresh (t.exit layers) (u.exit layers) := by
  -- at the program's frame nothing is left
  by_cases hInner : u.active.below = []
  · have hBottom : u.active.isBottom = true := List.isEmpty_iff.mpr hInner
    rw [exit_of_isBottom (h.ahead.active ▸ hBottom), exit_of_isBottom hBottom]
    exact h
  obtain ⟨parent, hLess, -, hBelow, -, hPop⟩ := h.late.arena.below_eq hInner
  have hActive : (u.exit layers).active.toList = u.active.below := by
    rw [active_exit, hPop]
  have hApart : u.current ≠ home := by
    rintro rfl
    rw [hActive, hBelow] at hHome
    exact absurd (le_of_mem_lineage hHome) (Nat.not_le.mpr hLess)
  have hUnbound : u.binding? u.current name = none :=
    h.unbound u.current (self_mem_lineage u u.current)
  have hUnboundEarly : t.binding? t.current name = none := by
    rw [show t.current = u.current from h.ahead.sameArena.current,
      h.ahead.binding? fun hSame => hApart hSame.1]
    exact hUnbound
  refine h.leaves (sound_exit h.early layers) (sound_exit h.late layers)
    (h.ahead.exit hApart hUnbound layers)
    (leaves_exit h.early hUnboundEarly layers) (leaves_exit h.late hUnbound layers)
    (congrArg Prod.fst (extras_exit u layers))
    (fun id hId => .inl ?_) fun id _ => ?_
  · have hOuter : (u.exit layers).enclosing = u.active.below :=
      (sound_exit h.late layers).arena.active.symm.trans hActive
    rw [hOuter] at hId
    rw [Tracker.enclosing, ← h.late.arena.active]
    exact List.mem_cons_of_mem _ hId
  · exact (edits_exit h.late layers).isWithin id home

/-- A use of the name is the last of those inside the frame. -/
theorem usesWithin_defer (u : Tracker) (hInside : home ∈ u.enclosing) (line column : Nat)
    (isWrite : Bool)
    (layers : Layers) : (u.defer name line column isWrite layers).usesWithin name home =
      u.usesWithin name home ++ [u.useHere line column isWrite layers] := by
  have hHere : isWithin u.frames (u.useHere line column isWrite layers).frame home = true :=
    (isWithin_iff u _ _).mpr hInside
  have hUses : (u.defer name line column isWrite layers).pendingUses name =
      u.pendingUses name ++ [u.useHere line column isWrite layers] := by
    unfold Tracker.defer pendingUses
    rw [OrderedMap.get?_insert, if_pos rfl]
    exact List.reverse_cons
  unfold usesWithin
  rw [hUses, List.filter_append, show (u.defer name line column isWrite layers).frames =
    u.frames from rfl, List.filter_singleton, hHere]
  rfl

/-- The first run notes a read of the name, the second one defers it. -/
theorem reference (h : Awaits name home fresh t u) (hName : name ≠ "arguments")
    (hInside : home ∈ u.enclosing) (line column : Nat) (layers : Layers) :
    Awaits name home fresh (t.reference name line column layers)
      (u.reference name line column layers) := by
  have hEarly : t.reference name line column layers =
      (t.markUsed home name line).reportOutOfScope home name line column layers := by
    unfold Tracker.reference
    rw [h.lookup_early hInside]
  have hLate : u.reference name line column layers = u.defer name line column false layers := by
    unfold Tracker.reference Tracker.resolvesImplicitly
    rw [h.lookup_late, h.undeclared, beq_false_of_ne hName]
    rfl
  have hSoundEarly := (sound_operation h.early (.reference name line column layers)).1
  have hSoundLate := (sound_operation h.late (.reference name line column layers)).1
  have hAhead :
      Ahead name home (t.reference name line column layers)
      (u.reference name line column layers) := by
    rw [hEarly, hLate]
    exact ((h.ahead.modifySelf (·.use line)).outOfScope_early _ _ _ _ _).defer_late hInside line
      column false layers
  refine ⟨hSoundEarly, hSoundLate, hAhead, ?_, ?_, ?_⟩
  · rw [hLate]
    exact h.unbound
  · rw [hLate]
    exact h.undeclared
  · rw [hEarly, hLate, usesWithin_defer u hInside, (reports_reportOutOfScope ..).binding?,
      Tracker.markUsed, binding?_modifyBinding, if_pos ⟨rfl, rfl⟩, h.reads]
    simp [readLines, useHere, List.filter_append]

/-- The first run reports a write to the name at most, the second one defers it. -/
theorem assign (h : Awaits name home fresh t u) (hName : name ≠ "arguments")
    (hInside : home ∈ u.enclosing) (line column : Nat) (layers : Layers) :
    Awaits name home fresh (t.assign name line column layers)
      (u.assign name line column layers) := by
  -- the early run writes to its binding, the late one defers the use
  have hFound := h.lookup_early hInside
  have hWritable : u.predefined.lookup name = none := Option.isNone_iff_eq_none.mp (by
    rw [← Option.not_isSome, show (u.predefined.lookup name).isSome = false from h.undeclared]
    rfl)
  have hLate : u.assign name line column layers = u.defer name line column true layers := by
    unfold Tracker.assign Tracker.resolvesImplicitly
    rw [h.lookup_late, hWritable, beq_false_of_ne hName]
    rfl
  have hAhead : Ahead name home (t.assign name line column layers) u := by
    unfold Tracker.assign
    rw [hFound]
    refine Ahead.outOfScope_early ?_ home name line column layers
    split
    · exact h.ahead.report_early _ _ _
    · exact h.ahead
  have hLeaves : t.Leaves name (t.assign name line column layers) :=
    leaves_assign t (.inr (by simp [hFound])) line column layers
  refine ⟨(sound_operation h.early (.assign name line column layers)).1,
    (sound_operation h.late (.assign name line column layers)).1, ?_, ?_, ?_, ?_⟩
  · rw [hLate]
    exact hAhead.defer_late hInside line column true layers
  · rw [hLate]
    exact h.unbound
  · rw [hLate]
    exact h.undeclared
  · rw [hLeaves.binding, hLate, usesWithin_defer u hInside, h.reads]
    simp [readLines, useHere, List.filter_append]

/-- One operation. It must not leave the frame of the declaration. -/
theorem apply (h : Awaits name home fresh t u) (hName : name ≠ "arguments") (hOp : op.spares name)
    (hHome : home ∈ (op.apply u).active.toList) :
    Awaits name home fresh (op.apply t) (op.apply u) := by
  -- a home that is in use afterwards was in use before
  have hActive : home ∈ u.active.toList := by
    by_contra hLeft
    exact (sound_operation h.late op).2.left home h.home_lt hLeft hHome
  have hInside : home ∈ u.enclosing := by
    rw [Tracker.enclosing, ← h.late.arena.active]
    exact hActive
  have hEarly := (sound_operation h.early op).1
  have hLate := (sound_operation h.late op).1
  cases op with
  | enter kind => exact h.enter kind
  | exit layers => exact h.exit layers hHome
  | declare other kind line column layers =>
    have hOther : other ≠ name := of_decide_eq_true hOp
    exact h.leaves_inPlace hEarly hLate (h.ahead.declare hOther kind line column layers)
      (leaves_declare h.early hOther kind line column layers)
        (leaves_declare h.late hOther kind line column layers)
      (congrArg (·.2.1) (extras_declare u ..))
        (edits_declare h.late other kind line column layers).toSameArena
  | reference other line column layers =>
    by_cases hOther : other = name
    · subst hOther
      exact h.reference hName hInside line column layers
    · refine h.leaves_inPlace hEarly hLate (h.ahead.reference hOther line column layers)
        (leaves_reference t hOther line column layers)
          (leaves_reference u hOther line column layers) ?_
        (edits_reference h.late other line column layers).toSameArena
      exact (notes_reference u other line column layers).predefined
  | assign other line column layers =>
    by_cases hOther : other = name
    · subst hOther
      exact h.assign hName hInside line column layers
    · refine h.leaves_inPlace hEarly hLate (h.ahead.assign hOther line column layers)
        (leaves_assign t (.inl hOther) line column layers)
          (leaves_assign u (.inl hOther) line column layers) ?_
        (edits_assign other line column layers).toSameArena
      exact (notes_assign u other line column layers).predefined
  | _ => cases hOp

/-- By induction on the operations: a frame that is active in the end was active all along. -/
theorem foldl (h : Awaits name home fresh t u) (hName : name ≠ "arguments")
    {operations : List Operation} (hOps : ∀ op ∈ operations, op.spares name)
    (hHome : home ∈ (operations.foldl Operation.apply u).active.toList) :
    Awaits name home fresh (operations.foldl Operation.apply t)
      (operations.foldl Operation.apply u) := by
  induction operations generalizing t u with
  | nil => exact h
  | cons op rest ih =>
    obtain ⟨hFirst, hRest⟩ := List.forall_mem_cons.mp hOps
    obtain ⟨hSound, hTurns⟩ := sound_operation h.late op
    refine ih (h.apply hName hFirst ?_) hRest hHome
    by_contra hLeft
    have hLater := (hSound.calls (rest.map Call.perform)).2.left home
      (Nat.lt_of_lt_of_le h.home_lt hTurns.size) hLeft
    rw [List.foldl_map] at hLater
    exact hLater hHome

end Awaits

/-! ## Early and late -/

/-- A declaration of a name that the frame does not bind binds it and claims the uses inside the
frame. -/
theorem reports_declare_fresh {t : Tracker} {name : String}
    (hNone : t.binding? t.declarationFrame name = none)
    (kind : BindingKind) (line column : Nat) (layers : Layers) :
    ((t.bind t.declarationFrame name { line, column, kind }).claim name t.declarationFrame).Reports
      (t.declare name kind line column layers) := by
  have hReports := reports_declare t name kind line column layers
  have hAnew : t.bindsAnew name kind = true := by
    unfold bindsAnew
    rw [hNone]
  rw [if_pos hAnew] at hReports
  exact hReports

section Fresh

variable {t : Tracker} {name : String} (h : t.Sound)
  (hNone : t.binding? t.declarationFrame name = none)
  (kind : BindingKind) (line column : Nat) (layers : Layers)
include h hNone

/-- A declaration of a new name gives it the reads that waited. -/
theorem binding?_declare_fresh (id : FrameId) (other : String) :
    (t.declare name kind line column layers).binding? id other =
      if id = t.declarationFrame ∧ other = name then
        some
          ((readLines (t.usesWithin name t.declarationFrame)).foldl Binding.use
          { line, column, kind })
      else t.binding? id other := by
  have hSize := h.arena.lt_size_of_active h.arena.declarationFrame_mem
  have hBind := Rebinds.bind t t.declarationFrame name { line, column, kind }
  have hUses :
      (t.bind t.declarationFrame name { line, column, kind }).usesWithin name t.declarationFrame =
      t.usesWithin name t.declarationFrame := by
    unfold usesWithin pendingUses
    rw [hBind.pending]
    exact List.filter_congr fun r _ => hBind.isWithin r.frame _
  rw [(reports_declare_fresh hNone kind line column layers).binding?, binding?_claim, hUses]
  by_cases hHere : id = t.declarationFrame ∧ other = name
  · rw [if_pos hHere, if_pos hHere, binding?_bind t hSize, if_pos ⟨rfl, rfl⟩]
    rfl
  · rw [if_neg hHere, if_neg hHere, binding?_bind t hSize, if_neg hHere]

omit h in
/-- The declaration is all that the tracker is ahead. -/
theorem ahead_declare :
    Ahead name t.declarationFrame (t.declare name kind line column layers) t := by
  have hBind := Rebinds.bind t t.declarationFrame name { line, column, kind }
  have hSettled :
      (t.bind t.declarationFrame name { line, column, kind }).settled name t.declarationFrame =
      t.settled name t.declarationFrame :=
    settled_congr hBind.pending fun _ _ r _ => hBind.isWithin r.frame _
  have hStart :
      Ahead name t.declarationFrame { t with pending := t.settled name t.declarationFrame } t :=
    ⟨rfl, rfl, rfl, rfl, rfl, rfl, rfl⟩
  have hClaimed : Ahead name t.declarationFrame
      ((t.bind t.declarationFrame name { line, column, kind }).claim name t.declarationFrame)
        t := by
    unfold Tracker.claim markReads
    rw [takePending_snd, hSettled]
    have hReads (refs : List Pending) {u : Tracker} (hu : Ahead name t.declarationFrame u t) :
        Ahead name t.declarationFrame
          (refs.foldl (fun t' r => t'.markUsed t.declarationFrame name r.line) u) t := by
      induction refs generalizing u with
      | nil => exact hu
      | cons r rest ih => exact ih (hu.modifySelf (·.use r.line))
    exact hReads _ (hStart.bindSelf { line, column, kind })
  exact hClaimed.early (reports_declare_fresh hNone kind line column layers)
    ((extras_declare ..).trans
      (extras_claim (t.bind t.declarationFrame name { line, column, kind }) ..).symm)

end Fresh

/-- An operation leaves the outlines of the frames as they are. -/
theorem outline_apply {t : Tracker} (h : t.Sound) (op : Operation) {id : FrameId}
    (hSize : id < t.frames.size) : ((op.apply t).frame id).outline = (t.frame id).outline := by
  have hInPlace (hEnter : ∀ kind, op ≠ .enter kind) (hExit : ∀ layers, op ≠ .exit layers) :=
    (edits_operation h op hEnter hExit).outline id
  cases op with
  | enter kind =>
    show ((t.enter kind).frame id).outline = _
    rw [Arena.frame_enter, if_neg (Nat.ne_of_lt hSize)]
  | exit layers => exact (edits_exit h layers).outline id
  | _ => exact hInPlace nofun nofun

/-- By induction on the operations. -/
theorem outline_foldl {t : Tracker} (h : t.Sound) (operations : List Operation) {id : FrameId}
    (hSize : id < t.frames.size) :
    ((operations.foldl Operation.apply t).frame id).outline = (t.frame id).outline := by
  induction operations generalizing t with
  | nil => rfl
  | cons op rest ih =>
    obtain ⟨hSound, hTurns⟩ := sound_operation h op
    exact (ih hSound (Nat.lt_of_lt_of_le hSize hTurns.size)).trans (outline_apply h op hSize)

/-- A declaration would go to the same frame again once the same frames are active. -/
theorem declarationFrame_of_active {t : Tracker} (h : t.Sound) {operations : List Operation}
    (hActive : (operations.foldl Operation.apply t).active = t.active) :
    (operations.foldl Operation.apply t).declarationFrame = t.declarationFrame := by
  have hSound : (operations.foldl Operation.apply t).Sound := by
    have hCalls := (h.calls (operations.map Call.perform)).1
    rw [List.foldl_map] at hCalls
    exact hCalls
  have hEnclosing : (operations.foldl Operation.apply t).enclosing = t.enclosing := by
    rw [Tracker.enclosing, Tracker.enclosing, ← h.arena.active, ← hSound.arena.active, hActive]
  have hFind (l : List FrameId) (hl : ∀ id ∈ l, id < t.frames.size) :
      l.find? (fun id => ((operations.foldl Operation.apply t).frame id).kind ≠ .label) =
        l.find? fun id => (t.frame id).kind ≠ .label := by
    induction l with
    | nil => rfl
    | cons id rest ih =>
      obtain ⟨hFirst, hRest⟩ := List.forall_mem_cons.mp hl
      have hKind : ((operations.foldl Operation.apply t).frame id).kind = (t.frame id).kind :=
        congrArg Prod.fst (outline_foldl h operations hFirst)
      rw [List.find?_cons, List.find?_cons, hKind, ih hRest]
  unfold Tracker.declarationFrame
  rw [hEnclosing, hFind _ fun id hId => ?_]
  rw [Tracker.enclosing, ← h.arena.active] at hId
  exact h.arena.lt_size_of_active hId

/-- Uses leave what was declared. -/
theorem foldl_use (lines : List Nat) (b : Binding) : (lines.foldl Binding.use b).kind = b.kind ∧
    (lines.foldl Binding.use b).line = b.line ∧ (lines.foldl Binding.use b).column = b.column := by
  induction lines generalizing b with
  | nil => exact ⟨rfl, rfl, rfl⟩
  | cons line rest ih => exact ih (b.use line)

/-- Declaring a name early or late is the same but for what is found: the binding notes the same
reads in the same order, and everything else is bound, pending and listed alike. -/
theorem declare_late (table : Predefined.Table) (calls : List Call) (name : String)
    (kind : BindingKind)
    (line column : Nat) (layers : Layers) (operations : List Operation) (hName : name ≠ "arguments")
    (hLookup : (tracked table calls).lookup name = none)
    (hUndeclared : (tracked table calls).predefined.contains name = false)
    (hOps : ∀ op ∈ operations, op.spares name)
    (hBalanced : (operations.foldl Operation.apply (tracked table calls)).active =
    (tracked table calls).active) :
    let t := tracked table calls
    let early := operations.foldl Operation.apply (t.declare name kind line column layers)
    let late := (operations.foldl Operation.apply t).declare name kind line column layers
    (∃ b, early.binding? t.declarationFrame name = some b ∧
    late.binding? t.declarationFrame name = some b ∧
      b.kind = kind ∧ b.line = line ∧ b.column = column) ∧
    (∀ id other, early.binding? id other = late.binding? id other) ∧
    early.pending = late.pending ∧ early.unused = late.unused := by
  intro t early late
  have hSound : t.Sound := sound_tracked table calls
  have hUnbound (id : FrameId) (hId : id ∈ t.enclosing) : t.binding? id name = none := by
    have hNot := List.find?_eq_none.mp hLookup id hId
    rw [binds_eq] at hNot
    simpa using hNot
  -- nothing in reach binds the name, so the declaration starts it anew
  have hHome : t.declarationFrame ∈ t.active.toList := hSound.arena.declarationFrame_mem
  have hNone : t.binding? t.declarationFrame name = none := by
    refine hUnbound _ ?_
    rw [Tracker.enclosing, ← hSound.arena.active]
    exact hHome
  have hStart :
      Awaits name t.declarationFrame { line, column, kind }
      (t.declare name kind line column layers) t :=
    ⟨(sound_operation hSound (.declare name kind line column layers)).1, hSound,
      ahead_declare hNone kind line column layers, hUnbound, hUndeclared,
      (binding?_declare_fresh hSound hNone ..).trans (if_pos ⟨rfl, rfl⟩)⟩
  have hEnd := hStart.foldl hName hOps (by rw [hBalanced]; exact hHome)
  have hFrame : (operations.foldl Operation.apply t).declarationFrame = t.declarationFrame :=
    declarationFrame_of_active hSound hBalanced
  -- the operations leave the name unbound in the late run
  have hStillNone :
      (operations.foldl Operation.apply t).binding?
      (operations.foldl Operation.apply t).declarationFrame name = none := by
    refine hEnd.unbound _ ?_
    rw [Tracker.enclosing, ← hEnd.late.arena.active, hFrame, hBalanced]
    exact hHome
  have hLate := binding?_declare_fresh hEnd.late hStillNone kind line column layers
  rw [hFrame] at hLate
  have hLateAhead := ahead_declare hStillNone kind line column layers
  rw [hFrame] at hLateAhead
  obtain ⟨hKind, hLine, hColumn⟩ := foldl_use
    (readLines ((operations.foldl Operation.apply t).usesWithin name t.declarationFrame))
      { line, column, kind }
  refine ⟨⟨_, hEnd.reads, (hLate _ _).trans (if_pos ⟨rfl, rfl⟩), hKind, hLine, hColumn⟩,
    fun id other => ?_, ?_, ?_⟩
  · rw [hLate]
    split
    · next hHere =>
      rw [hHere.1, hHere.2]
      exact hEnd.reads
    · next hElse => exact hEnd.ahead.binding? hElse
  · exact hEnd.ahead.pending.trans hLateAhead.pending.symm
  · exact hEnd.ahead.unused.trans hLateAhead.unused.symm

/-- Before and after the declaration of `x` in a function, which has read it once already, an inner
function reads and writes it and a block hoists a variable of another name. -/
theorem declare_late_in_function :
    let calls := [Call.perform (.enter .function), .perform (.reference "x" 1 1 {})]
    let operations := [Operation.enter .function, .reference "x" 2 1 {}, .assign "x" 3 1 {},
      .declare "y" .lexical 3 5 {}, .exit {}, .enter .block, .declare "z" .var 4 1 {},
      .reference "x" 5 1 {}, .exit {}]
    let early := operations.foldl Operation.apply ((tracked {} calls).declare "x" .var 6 1 {})
    let late := (operations.foldl Operation.apply (tracked {} calls)).declare "x" .var 6 1 {}
    (tracked {} calls).declarationFrame = 1 ∧ early.pending = late.pending ∧ early.unused =
    late.unused ∧
      (∀ id other, early.binding? id other = late.binding? id other) ∧
      (late.binding? 1 "x").map (fun b => (b.kind, b.used, b.reads)) =
        some (.var, true, [5, 2, 1]) := by
  intro calls operations early late
  obtain ⟨-, hBound, hPending, hUnused⟩ :=
    declare_late {} calls "x" .var 6 1 {} operations (by decide)
    (by decide +kernel) (by decide +kernel) (by decide) (Stack.toList_inj.mp (by decide +kernel))
  exact ⟨by decide +kernel, hPending, hUnused, hBound, by decide +kernel⟩

end ScriptLint.Scope
