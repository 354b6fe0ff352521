import ScriptLint.Proofs.Scope.LateDeclarations

/-!
# Where a directive declares a global

A use of a global after its directive is noted at the directive. A use before it waits, and the
directive looks at the uses that wait. For a name that nothing else declares, the end of a run
therefore depends on the uses alone and on whether they come before or after the directive.

- `Operation.OnlyUses`, `globalUses`: operations that use the name at most, and the uses among them.
- `Standing`: what a tracker knows of such a name; `Standing.use` is what a use does to it.
- `standing_apply`, `standing_foldl`: one operation and a whole run.
- `listed_of_placed`: what the end of a run says of the name, by the place of the directive.
- `directive_moved`: what changes if the directive stands somewhere else.
-/

namespace ScriptLint.Scope

open Tracker
open Setting (Layers)

/-! ## Uses of a global -/

/-- The operation uses the name at most: it neither binds nor declares it, and leaves what is
predefined under it alone. -/
def Operation.OnlyUses (name : String) : Operation → Prop
  | declare other .. | declareGlobal other .. | referenceGuarded other _ => other ≠ name
  | editPredefined edit => ∀ table, (edit table).lookup name = table.lookup name
  | _ => True

/-- Whether the operation uses the name, other than as the arguments of a function, and then whether
it writes it. -/
def Operation.globalUse? (name : String) (t : Tracker) : Operation → Option Bool
  | reference other .. =>
    if other = name ∧ t.resolvesImplicitly name = false then some false else none
  | assign other .. => if other = name ∧ t.resolvesImplicitly name = false then some true else none
  | _ => none

/-- The uses of the name in a run, each with whether it is a write. -/
def globalUses (name : String) : Tracker → List Operation → List Bool
  | _, [] => []
  | t, op :: rest => (op.globalUse? name t).toList ++ globalUses name (op.apply t) rest

/-- Uses are counted on from where the first part ends. -/
theorem globalUses_append (name : String) (t : Tracker) (operations rest : List Operation) :
    globalUses name t (operations ++ rest) =
      globalUses name t operations ++ globalUses name
        (operations.foldl Operation.apply t) rest := by
  induction operations generalizing t with
  | nil => rfl
  | cons op others ih =>
    rw [List.cons_append, globalUses, globalUses, ih, List.append_assoc, List.foldl_cons]

/-- What a tracker knows of a name that is bound nowhere. -/
structure Standing where
  /-- The uses that wait, each with whether it is a write. -/
  waiting : List Bool
  /-- Whether the name is predefined, and then whether it may be written. -/
  predefined : Option Bool
  /-- The directive that declares it. -/
  directive : Option DirectiveGlobal

/-- A use of a predefined name is noted at its directive, any other use waits. -/
def Standing.use (s : Standing) (isWrite : Bool) : Standing :=
  if s.predefined.isSome then { s with directive := s.directive.map ({ · with used := true }) }
  else { s with waiting := s.waiting ++ [isWrite] }

/-- What the tracker knows of the name. -/
def Tracker.standing (t : Tracker) (name : String) : Standing where
  waiting := (t.pendingUses name).map (·.isWrite)
  predefined := t.predefined.lookup name
  directive := t.directiveGlobals.get? name

namespace Standing

variable {s : Standing}

/-- A use of a predefined name is noted. -/
theorem use_noted (h : s.predefined.isSome) (isWrite : Bool) :
    s.use isWrite = { s with directive := s.directive.map ({ · with used := true }) } := if_pos h

/-- A use of any other name waits. -/
theorem use_waits (h : s.predefined = none) (isWrite : Bool) :
    s.use isWrite = { s with waiting := s.waiting ++ [isWrite] } := if_neg (by simp [h])

/-- Uses of a name that is not predefined wait one after the other. -/
theorem foldl_use_waiting (h : s.predefined = none) (uses : List Bool) :
    uses.foldl use s = { s with waiting := s.waiting ++ uses } := by
  induction uses generalizing s with
  | nil => rw [List.append_nil]; rfl
  | cons isWrite rest ih =>
    have hStill : (s.use isWrite).predefined = none := use_waits h isWrite ▸ h
    rw [List.foldl_cons, ih hStill, use_waits h, List.append_assoc]
    rfl

/-- Of the uses of a predefined name only counts whether there are any. -/
theorem foldl_use_noted (h : s.predefined.isSome) (uses : List Bool) : uses.foldl use s =
    { s with
      directive := s.directive.map fun g => { g with used := g.used || !uses.isEmpty } } := by
  induction uses generalizing s with
  | nil => simp
  | cons isWrite rest ih =>
    have hStill : (s.use isWrite).predefined.isSome := use_noted h isWrite ▸ h
    rw [List.foldl_cons, ih hStill, use_noted h]
    simp [Function.comp_def]

end Standing

namespace Tracker

variable {t u : Tracker} {name : String} {op : Operation}

/-! ## Operations that do not use the name -/

/-- Nothing that is known of the name changes. -/
structure Spares (name : String) (t u : Tracker) : Prop extends t.Leaves name u where
  predefined : u.predefined.lookup name = t.predefined.lookup name
  directive : u.directiveGlobals.get? name = t.directiveGlobals.get? name

/-- What spares the name leaves its standing. -/
theorem Spares.standing (h : t.Spares name u) : u.standing name = t.standing name := by
  unfold Tracker.standing
  rw [h.uses, h.predefined, h.directive]

/-- A guarded use of another name leaves it. -/
theorem leaves_referenceGuarded {other : String} (hOther : other ≠ name) (line : Nat) :
    t.Leaves name (t.referenceGuarded other line) := by
  unfold referenceGuarded
  split
  · refine ⟨fun id => ?_, rfl⟩
    rw [markUsed, binding?_modifyBinding, if_neg fun hSame => hOther hSame.2.symm]
  · split <;> exact leaves_reports (.silent rfl)

/-- So does a directive for another name. -/
theorem spares_declareGlobal {other : String} (hOther : other ≠ name) (writable : Bool)
    (line column : Nat) : t.Spares name (t.declareGlobal other writable line column) := by
  refine ⟨⟨fun _ => rfl, ?_⟩, ?_, ?_⟩
  · unfold declareGlobal pendingUses
    rw [OrderedMap.get?_erase, if_neg hOther.symm]
  · exact (OrderedMap.get?_insert ..).trans (if_neg hOther.symm)
  · unfold declareGlobal
    dsimp only
    split
    · rw [OrderedMap.get?_modify, if_neg hOther.symm, OrderedMap.get?_insertIfNew,
        if_neg hOther.symm]
    · rw [OrderedMap.get?_insertIfNew, if_neg hOther.symm]

theorem spares_addLabel (label : String) : t.Spares name (t.addLabel label) := by
  refine ⟨⟨fun id => ?_, rfl⟩, rfl, rfl⟩
  unfold addLabel binding?
  rw [frame_modifyFrame]
  split
  · next hHere => rw [hHere.1]
  · rfl

/-- No frame binds the name, and it was not listed as an unused binding. -/
structure Unbound (name : String) (t : Tracker) : Prop where
  sound : t.Sound
  binding : ∀ id, t.binding? id name = none
  unlisted : ∀ b ∈ t.unused, b.name ≠ name
  distinct : t.directiveGlobals.keys.Nodup

/-- A name without bindings is not found. -/
theorem Unbound.lookup (h : t.Unbound name) : t.lookup name = none := by
  refine List.find?_eq_none.mpr fun id _ => ?_
  rw [binds_eq, h.binding id]
  exact Bool.false_ne_true

/-- An operation that does not use the name leaves all that is known of it. -/
theorem Unbound.spares_apply (h : t.Unbound name) (hOp : op.OnlyUses name)
    (hUse : op.globalUse? name t = none) : t.Spares name (op.apply t) := by
  have hSelf : t.Spares name t := ⟨leaves_reports (.silent rfl), rfl, rfl⟩
  -- a use of the name that does not count stands for the arguments of a function
  have hImplicit {isWrite : Bool}
      (hNone :
        (if name = name ∧ t.resolvesImplicitly name = false then some isWrite else none) = none) :
      t.resolvesImplicitly name = true := by
    by_contra hNot
    rw [if_pos ⟨rfl, Bool.eq_false_iff.mpr hNot⟩] at hNone
    cases hNone
  -- what only uses the name may read or write it; all else is about other names
  cases op with
  | enter kind => exact ⟨leaves_enter t kind, rfl, rfl⟩
  | exit layers =>
    have hExtras := extras_exit t layers
    have hPredefined := congrArg Prod.fst hExtras
    have hDirectives := congrArg (·.2.1) hExtras
    exact ⟨leaves_exit h.sound (h.binding _) layers, congrArg (·.lookup name) hPredefined,
      congrArg (·.get? name) hDirectives⟩
  | declare other kind line column layers =>
    have hExtras := extras_declare t other kind line column layers
    exact ⟨leaves_declare h.sound hOp kind line column layers, congrArg (·.2.1.lookup name) hExtras,
      congrArg (·.2.2.1.get? name) hExtras⟩
  | reference other line column layers =>
    by_cases hOther : other = name
    · subst hOther
      have hSame : t.reference other line column layers = t := by
        unfold reference
        rw [h.lookup, hImplicit hUse]
        rfl
      show t.Spares other (t.reference other line column layers)
      rw [hSame]
      exact hSelf
    · have hNotes := notes_reference t other line column layers
      exact ⟨leaves_reference t hOther line column layers,
        congrArg (·.lookup name) hNotes.predefined, hNotes.directive hOther⟩
  | assign other line column layers =>
    by_cases hOther : other = name
    · subst hOther
      have hSame : t.assign other line column layers = t := by
        unfold assign
        rw [h.lookup, hImplicit hUse]
        rfl
      show t.Spares other (t.assign other line column layers)
      rw [hSame]
      exact hSelf
    · have hNotes := notes_assign t other line column layers
      exact ⟨leaves_assign t (.inl hOther) line column layers,
        congrArg (·.lookup name) hNotes.predefined, hNotes.directive hOther⟩
  | referenceGuarded other line =>
    have hNotes := notes_referenceGuarded t other line
    exact ⟨leaves_referenceGuarded hOp line, congrArg (·.lookup name) hNotes.predefined,
      hNotes.directive hOp⟩
  | declareGlobal other writable line column => exact spares_declareGlobal hOp writable line column
  | editPredefined edit => exact ⟨leaves_reports (.silent rfl), hOp t.predefined, rfl⟩
  | exportName other => exact ⟨leaves_reports (.silent rfl), rfl, rfl⟩
  | addLabel label => exact spares_addLabel label
  | takeFindings => exact ⟨⟨fun _ => rfl, rfl⟩, rfl, rfl⟩

/-! ## Operations that use the name -/

/-- A deferred use waits. -/
theorem standing_defer (t : Tracker) (line column : Nat) (isWrite : Bool) (layers : Layers) :
    (t.defer name line column isWrite layers).standing name =
      { t.standing name with waiting := (t.standing name).waiting ++ [isWrite] } := by
  unfold Tracker.standing Tracker.defer pendingUses
  simp [OrderedMap.get?_insert]

/-- A use of a predefined name uses its directive. -/
theorem standing_useDirectiveGlobal (t : Tracker) : (t.useDirectiveGlobal name).standing name =
    { t.standing name with
      directive := (t.standing name).directive.map ({ · with used := true }) } := by
  have hDirective : (t.useDirectiveGlobal name).directiveGlobals.get? name =
      (t.directiveGlobals.get? name).map ({ · with used := true }) :=
        (OrderedMap.get?_modify ..).trans (if_pos rfl)
  unfold Tracker.standing
  rw [hDirective]
  rfl

/-- A read of a name that stands for nothing at the place. -/
theorem Unbound.reference_eq (h : t.Unbound name) (hExplicit : t.resolvesImplicitly name = false)
    (line column : Nat) (layers : Layers) : t.reference name line column layers =
      if (t.predefined.lookup name).isSome then t.useDirectiveGlobal name
      else t.defer name line column false layers := by
  unfold reference
  rw [h.lookup, hExplicit]
  rfl

/-- A write to such a name reports a read-only one besides. -/
theorem Unbound.assign_eq (h : t.Unbound name) (hExplicit : t.resolvesImplicitly name = false)
    (line column : Nat) (layers : Layers) : t.assign name line column layers =
      match t.predefined.lookup name with
      | some writable => if writable then t.useDirectiveGlobal name
        else (t.useDirectiveGlobal name).report .readOnly line column
      | none => t.defer name line column true layers := by
  unfold assign
  rw [h.lookup, hExplicit]
  rfl

/-- A use of the name is noted at its directive or waits, and changes no binding. -/
theorem Unbound.use_apply {isWrite : Bool} (h : t.Unbound name)
    (hUse : op.globalUse? name t = some isWrite) :
    (op.apply t).standing name = (t.standing name).use isWrite ∧
      ∀ id, (op.apply t).binding? id name = t.binding? id name := by
  -- a predefined name is used at once, any other when it is defined
  have hNoted {writable : Bool} (hPredefined : t.predefined.lookup name = some writable) :
      (t.useDirectiveGlobal name).standing name = (t.standing name).use isWrite := by
    have hSome : (t.standing name).predefined.isSome :=
      Option.isSome_iff_exists.mpr ⟨writable, hPredefined⟩
    rw [standing_useDirectiveGlobal, Standing.use_noted hSome]
  have hWaits (hPredefined : t.predefined.lookup name = none) (line column : Nat)
    (layers : Layers) :
      (t.defer name line column isWrite layers).standing name = (t.standing name).use isWrite := by
    rw [standing_defer, Standing.use_waits hPredefined]
  -- only reads and writes are uses
  cases op with
  | reference other line column layers =>
    obtain ⟨⟨rfl, hExplicit⟩, rfl⟩ := Option.ite_some_none_eq_some.mp hUse
    rw [Operation.apply, h.reference_eq hExplicit]
    cases hPredefined : t.predefined.lookup other with
    | some writable => exact ⟨hNoted hPredefined, fun _ => rfl⟩
    | none => exact ⟨hWaits hPredefined .., fun _ => rfl⟩
  | assign other line column layers =>
    obtain ⟨⟨rfl, hExplicit⟩, rfl⟩ := Option.ite_some_none_eq_some.mp hUse
    rw [Operation.apply, h.assign_eq hExplicit]
    cases hPredefined : t.predefined.lookup other with
    | some writable =>
      cases writable with
      | true => exact ⟨hNoted hPredefined, fun _ => rfl⟩
      | false => exact ⟨hNoted hPredefined, fun _ => rfl⟩
    | none => exact ⟨hWaits hPredefined .., fun _ => rfl⟩
  | _ => cases hUse

/-! ## Runs -/

/-- A name has one directive. -/
theorem nodup_directives (h : t.directiveGlobals.keys.Nodup) (op : Operation) :
    (op.apply t).directiveGlobals.keys.Nodup := by
  cases op with
  | exit layers => exact congrArg (·.2.1.keys.Nodup) (extras_exit t layers) ▸ h
  | declare other kind line column layers =>
    exact congrArg (·.2.2.1.keys.Nodup) (extras_declare t other kind line column layers) ▸ h
  | reference other line column layers =>
    exact (notes_reference t other line column layers).keys ▸ h
  | assign other line column layers => exact (notes_assign t other line column layers).keys ▸ h
  | referenceGuarded other line => exact (notes_referenceGuarded t other line).keys ▸ h
  | declareGlobal other writable line column =>
    have hNew := OrderedMap.nodup_keys_insertIfNew t.directiveGlobals other { line, column } h
    show (t.declareGlobal other writable line column).directiveGlobals.keys.Nodup
    unfold declareGlobal
    dsimp only
    split
    · rw [OrderedMap.keys_modify]
      exact hNew
    · exact hNew
  | _ => exact h

/-- Only `exportName` exports. -/
theorem exported_apply (t : Tracker) (op : Operation) :
    name ∈ (op.apply t).exported ↔ name ∈ t.exported ∨ op = .exportName name := by
  have hSame (hExported : (op.apply t).exported = t.exported)
    (hOther : ∀ other, op ≠ .exportName other) :
      name ∈ (op.apply t).exported ↔ name ∈ t.exported ∨ op = .exportName name := by
    rw [hExported, or_iff_left (hOther name)]
  cases op with
  | exit layers => exact hSame (congrArg (·.2.2) (extras_exit t layers)) (by simp)
  | declare other kind line column layers =>
    exact hSame (congrArg (·.2.2.2) (extras_declare t other kind line column layers)) (by simp)
  | reference other line column layers =>
    exact hSame (notes_reference t other line column layers).exported (by simp)
  | assign other line column layers =>
    exact hSame (notes_assign t other line column layers).exported (by simp)
  | referenceGuarded other line =>
    exact hSame (notes_referenceGuarded t other line).exported (by simp)
  | exportName other => simp [Operation.apply, exportName, or_comm, eq_comm]
  | _ => exact hSame rfl (by simp)

/-- A name is exported by the run, or was before. -/
theorem exported_foldl (t : Tracker) (operations : List Operation) :
    name ∈ (operations.foldl Operation.apply t).exported ↔ name ∈ t.exported ∨
      .exportName name ∈ operations := by
  induction operations generalizing t with
  | nil => simp
  | cons op rest ih =>
    rw [List.foldl_cons, ih, exported_apply, List.mem_cons, or_assoc, eq_comm (a := op)]

/-- What a frame without the name lists is not the name. -/
theorem Unbound.ne_of_listed (h : t.Unbound name) {id : FrameId} {policy : Setting.UnusedPolicy}
    {lexicalOnly : Bool}
    {entry : String × Binding}
    (hEntry : entry ∈ unreadBindings (t.frame id) t.exported policy lexicalOnly) :
    entry.1 ≠ name := by
  intro hName
  have hBound := (OrderedMap.mem_entries_iff _ (h.sound.tidy.distinct id) entry.1 entry.2).mp
    (mem_unreadBindings hEntry).1
  have hNone : (t.frame id).bindings.get? entry.1 = none := hName ▸ h.binding id
  rw [hBound] at hNone
  cases hNone

/-- A name that is only used stays without bindings. -/
theorem Unbound.apply (h : t.Unbound name) (hOp : op.OnlyUses name) :
    (op.apply t).Unbound name := by
  refine ⟨(sound_operation h.sound op).1, fun id => ?_,
    fun b hb => ?_, nodup_directives h.distinct op⟩
  -- the name is never listed, since nothing binds it
  · cases hUse : op.globalUse? name t with
    | none => exact ((h.spares_apply hOp hUse).binding id).trans (h.binding id)
    | some isWrite => exact ((h.use_apply hUse).2 id).trans (h.binding id)
  · have hSame (hExit : ∀ layers, op ≠ .exit layers) (hTake : op ≠ .takeFindings) :
      b.name ≠ name := by
      have hUnused : (op.apply t).unused = t.unused :=
        congrArg Prod.fst (op.tally_apply t hExit hTake)
      exact h.unlisted b (hUnused ▸ hb)
    cases op with
    | exit layers =>
      rw [Operation.apply, unused_exit] at hb
      rcases List.mem_append.mp hb with hOld | hNew
      · exact h.unlisted b hOld
      · obtain ⟨entry, hEntry, rfl⟩ := List.mem_map.mp hNew
        unfold judged at hEntry
        split at hEntry
        · cases hEntry
        · exact h.ne_of_listed hEntry
    | takeFindings => exact h.unlisted b hb
    | _ => exact hSame (by simp) (by simp)

/-- Its standing changes by its uses alone. -/
theorem standing_apply (h : t.Unbound name) (hOp : op.OnlyUses name) :
    (op.apply t).standing name =
    (op.globalUse? name t).toList.foldl Standing.use (t.standing name) := by
  cases hUse : op.globalUse? name t with
  | none => exact (h.spares_apply hOp hUse).standing
  | some isWrite => exact (h.use_apply hUse).1

/-- By induction on the operations: only the uses among them count. -/
theorem standing_foldl (h : t.Unbound name) {operations : List Operation}
    (hOps : ∀ op ∈ operations, op.OnlyUses name) :
    (operations.foldl Operation.apply t).Unbound name ∧
    (operations.foldl Operation.apply t).standing name =
      (globalUses name t operations).foldl Standing.use (t.standing name) := by
  induction operations generalizing t with
  | nil => exact ⟨h, rfl⟩
  | cons op rest ih =>
    obtain ⟨hFirst, hRest⟩ := List.forall_mem_cons.mp hOps
    obtain ⟨hUnbound, hStanding⟩ := ih (h.apply hFirst) hRest
    refine ⟨hUnbound, hStanding.trans ?_⟩
    rw [globalUses, List.foldl_append, standing_apply h hFirst]

/-! ## The same run with other globals -/

/-- Whether a name is the arguments of a function depends on the outline. -/
theorem SameArena.resolvesImplicitly (h : t.SameArena u) (name : String) :
    u.resolvesImplicitly name = t.resolvesImplicitly name := by
  unfold Tracker.resolvesImplicitly inGlobalCode functionFrame
  rw [h.current, h.function]

/-- Which frames are opened and left does not depend on what they bind. -/
theorem SameArena.apply (h : t.SameArena u) (ht : t.Sound) (hu : u.Sound) (op : Operation) :
    (op.apply t).SameArena (op.apply u) := by
  have hInPlace (hEnter : ∀ kind, op ≠ .enter kind) (hExit : ∀ layers, op ≠ .exit layers) :
      (op.apply t).SameArena (op.apply u) :=
    (edits_operation ht op hEnter hExit).toSameArena.symm.trans
      (h.trans (edits_operation hu op hEnter hExit).toSameArena)
  -- entering and leaving depend on the outline; all else edits frames in place
  cases op with
  | enter kind =>
    have hFunction : u.functionFrame = t.functionFrame := by
      unfold functionFrame
      rw [h.current, h.function]
    refine ⟨?_, fun id => ?_, ?_⟩
    · show (u.frames.push _).size = (t.frames.push _).size
      rw [Array.size_push, Array.size_push, h.size]
    · show ((u.enter kind).frame id).outline = ((t.enter kind).frame id).outline
      rw [Arena.frame_enter, Arena.frame_enter, h.size]
      split
      · rw [Frame.outline, Frame.outline, h.current, hFunction]
      · exact h.outline id
    · show u.active.push u.frames.size = t.active.push t.frames.size
      rw [h.active, h.size]
  | exit layers =>
    have hPopped : SameArena { t with active := t.active.pop } { u with active := u.active.pop } :=
      ⟨h.size, h.outline, congrArg Stack.pop h.active⟩
    exact (edits_exit ht layers).toSameArena.symm.trans
      (hPopped.trans (edits_exit hu layers).toSameArena)
  | _ => exact hInPlace nofun nofun

/-- So does which uses count. -/
theorem globalUses_congr (h : t.SameArena u) (ht : t.Sound) (hu : u.Sound) (name : String)
    (operations : List Operation) :
    globalUses name u operations = globalUses name t operations := by
  induction operations generalizing t u with
  | nil => rfl
  | cons op rest ih =>
    have hUse : op.globalUse? name u = op.globalUse? name t := by
      cases op <;> simp only [Operation.globalUse?, h.resolvesImplicitly]
    rw [globalUses, globalUses, hUse, ih (h.apply ht hu op) (sound_operation ht op).1
      (sound_operation hu op).1]

/-! ## The directive and the end of the run -/

/-- The directive settles the uses that wait; it counts as used if one of them is a read. -/
theorem standing_declareGlobal (hNone : (t.standing name).directive = none) (writable : Bool)
    (line column : Nat) : (t.declareGlobal name writable line column).standing name =
      ⟨[], some writable, some ⟨line, column, (t.standing name).waiting.any (!·)⟩⟩ := by
  have hWaiting : (t.declareGlobal name writable line column).pendingUses name = [] := by
    unfold declareGlobal pendingUses
    rw [OrderedMap.get?_erase, if_pos rfl]
    rfl
  have hPredefined :
      (t.declareGlobal name writable line column).predefined.lookup name = some writable :=
    (OrderedMap.get?_insert ..).trans (if_pos rfl)
  have hFresh :
      (t.directiveGlobals.insertIfNew name { line, column }).get? name = some { line, column } := by
    rw [OrderedMap.get?_insertIfNew, if_pos rfl, show t.directiveGlobals.get? name =
      none from hNone]
    rfl
  have hDirective : (t.declareGlobal name writable line column).directiveGlobals.get? name =
      some ⟨line, column, (t.pendingUses name).any (!·.isWrite)⟩ := by
    unfold declareGlobal
    dsimp only
    split
    · next hRead => rw [OrderedMap.get?_modify, if_pos rfl, hFresh, hRead]; rfl
    · next hRead => rw [hFresh, Bool.eq_false_iff.mpr hRead]
  unfold Tracker.standing
  rw [hWaiting, hPredefined, hDirective, List.any_map]
  rfl

/-- By induction on the frames left. -/
theorem Unbound.exitMany (h : t.Unbound name) (layers : Layers) (count : Nat) :
    (t.exitMany layers count).Unbound name ∧ (t.exitMany layers count).standing name =
    t.standing name ∧
      (t.exitMany layers count).exported = t.exported := by
  induction count generalizing t with
  | zero => exact ⟨h, rfl, rfl⟩
  | succ count ih =>
    let leave : Operation := .exit layers
    have hLeave : leave.OnlyUses name := trivial
    obtain ⟨hUnbound, hStanding, hExported⟩ := ih (h.apply hLeave)
    exact ⟨hUnbound, hStanding.trans (standing_apply h hLeave),
      hExported.trans (congrArg (·.2.2) (extras_exit t layers))⟩

/-- The end of the run lists the name if its directive is not noted as used and the name is not
exported. -/
theorem Unbound.listed_iff (h : t.Unbound name) (layers : Layers) :
    (∃ b ∈ (t.finish layers).1.unused, b.name = name ∧ b.kind = .global) ↔
      (∃ g, (t.standing name).directive = some g ∧ g.used = false) ∧ name ∉ t.exported := by
  -- the end of the run leaves all frames first, then lists what the directives left unused
  obtain ⟨hUnbound, hStanding, hExported⟩ := h.exitMany layers t.active.below.length
  have hListed : (t.finish layers).1.unused = (t.exitMany layers t.active.below.length).unused ++
      (t.exitMany layers t.active.below.length).lastListed layers.unusedPolicy :=
    congrArg Prod.fst (tally_finish t layers)
  have hDirective : (t.standing name).directive =
      (t.exitMany layers t.active.below.length).directiveGlobals.get? name :=
        congrArg (·.directive) hStanding.symm
  rw [hListed, ← hExported, hDirective]
  constructor
  · rintro ⟨b, hb, hName, -⟩
    rcases List.mem_append.mp hb with hOld | hLast
    · exact absurd hName (hUnbound.unlisted b hOld)
    rcases List.mem_append.mp hLast with hProgram | hGlobal
    · obtain ⟨entry, hEntry, rfl⟩ := List.mem_map.mp hProgram
      exact absurd hName (hUnbound.ne_of_listed hEntry)
    · obtain ⟨⟨other, g⟩, hEntry, rfl⟩ := List.mem_map.mp hGlobal
      obtain ⟨hMem, hUnread⟩ := List.mem_filter.mp hEntry
      have hSame : other = name := hName
      subst hSame
      simp only [Bool.and_eq_true, Bool.not_eq_true', List.contains_eq_mem,
        decide_eq_false_iff_not] at hUnread
      exact ⟨⟨g, (OrderedMap.mem_entries_iff _ hUnbound.distinct _ _).mp hMem, hUnread.1⟩,
        hUnread.2⟩
  · rintro ⟨⟨g, hGlobal, hUnread⟩, hNot⟩
    refine ⟨⟨name, g.line, g.column, .global⟩, ?_, rfl, rfl⟩
    refine List.mem_append_right _ (List.mem_append_right _ (List.mem_map.mpr ⟨(name, g), ?_, rfl⟩))
    refine List.mem_filter.mpr
      ⟨(OrderedMap.mem_entries_iff _ hUnbound.distinct _ _).mpr hGlobal, ?_⟩
    simp [hUnread, hNot]

/-- By induction on the frames left. -/
theorem Accounted.exitMany {log : List Deferred} (h : t.Accounted log) (layers : Layers)
    (count : Nat) : ∃ left, (t.exitMany layers count).Accounted left := by
  induction count generalizing t log with
  | zero => exact ⟨log, h⟩
  | succ count ih => exact ih (h.exit layers)

/-- A name of which no use waits is neither implied nor reported as not defined. -/
theorem Accounted.settled {log : List Deferred} (h : t.Accounted log) (hUnbound : t.Unbound name)
    (hNone : (t.standing name).waiting = []) (layers : Layers) :
    (∀ i ∈ (t.finish layers).1.implied, i.name ≠ name) ∧
      ∀ f ∈ (t.finish layers).2.findings, f.finding ≠ .notDefined name := by
  obtain ⟨left, hLeft⟩ := h.exitMany layers t.active.below.length
  have hEnd := (hLeft.reports (reports_evaluateUnused _ 0 layers.unusedPolicy false)).reports
    (reports_evaluateGlobals _ layers.unusedPolicy)
  -- a name on which no use waits is not undefined at the end
  have hWaiting : usesOf name left = [] := by
    have hSame := congrArg (·.waiting) (hUnbound.exitMany layers t.active.below.length).2.1
    rw [← hLeft.uses]
    exact List.map_eq_nil_iff.mp (hSame.trans hNone)
  unfold finish
  dsimp only
  rw [hEnd.entries]
  constructor
  · intro i hi hName
    obtain ⟨entry, hEntry, hImplied⟩ := List.mem_filterMap.mp hi
    obtain ⟨other, -, rfl⟩ := List.mem_map.mp hEntry
    unfold implied? at hImplied
    dsimp only at hImplied
    split at hImplied
    · cases hImplied
    · next hLines =>
      have hSame : other = name := by rw [← hName, ← Option.some.inj hImplied]
      rw [hSame, hWaiting] at hLines
      exact hLines rfl
  · intro f hf hName
    rw [findings_foldl_reportUndefined] at hf
    rcases List.mem_append.mp hf with hBefore | hLast
    · have hQuiet := hEnd.quiet f hBefore
      rw [hName] at hQuiet
      cases hQuiet
    · obtain ⟨entry, hEntry, hReported⟩ := List.mem_flatMap.mp hLast
      obtain ⟨other, -, rfl⟩ := List.mem_map.mp hEntry
      obtain ⟨r, hr, rfl⟩ := List.mem_map.mp hReported
      have hSame : other = name := Finding.notDefined.inj hName
      rw [hSame, hWaiting] at hr
      cases hr

/-! ## Where the directive stands -/

/-- A new tracker binds nothing but what is built in. -/
theorem unbound_fresh (table : Predefined.Table) (name : String) :
    Unbound name { predefined := table } := by
  refine ⟨sound_fresh table, fun id => ?_, nofun, .nil⟩
  rcases Nat.eq_zero_or_pos id with rfl | hPos
  · rfl
  · exact binding?_of_size_le (t := { predefined := table }) hPos name

/-- What is known of the name after a run in which a directive declares it: whether one of the uses
before it is a read, or there is a use after it. -/
theorem standing_placed {table : Predefined.Table} (hTable : table.lookup name = none)
    {before after : List Operation} (hBefore : ∀ op ∈ before, op.OnlyUses name)
    (hAfter : ∀ op ∈ after, op.OnlyUses name) (writable : Bool) (line column : Nat) :
    let reached := before.foldl Operation.apply { predefined := table }
    let t :=
      (before ++ .declareGlobal name writable line column :: after).foldl Operation.apply
        { predefined := table }
    t.Unbound name ∧ t.standing name = ⟨[], some writable, some ⟨line, column,
      (globalUses name { predefined := table } before).any (!·) ||
      !(globalUses name reached after).isEmpty⟩⟩ := by
  intro reached t
  let declared := reached.declareGlobal name writable line column
  have hRun : t = after.foldl Operation.apply declared := List.foldl_append
  have hFresh : Tracker.standing { predefined := table } name = ⟨[], none, none⟩ :=
    congrArg (Standing.mk [] · none) hTable
  -- before the directive the name is not predefined, so every use of it waits
  obtain ⟨hReached, hWaiting⟩ := standing_foldl (unbound_fresh table name) hBefore
  rw [hFresh, Standing.foldl_use_waiting rfl] at hWaiting
  have hDeclared : declared.Unbound name :=
    ⟨(sound_operation hReached.sound (.declareGlobal name writable line column)).1,
      hReached.binding,
      hReached.unlisted, nodup_directives hReached.distinct
      (.declareGlobal name writable line column)⟩
  -- the directive opens and leaves no frame, so the same operations use the name as without it
  have hUses : globalUses name declared after = globalUses name reached after :=
    globalUses_congr (edits_declareGlobal name writable line column).toSameArena hReached.sound
      hDeclared.sound name after
  have hDirective : declared.standing name = ⟨[], some writable, some ⟨line, column,
      (globalUses name { predefined := table } before).any (!·)⟩⟩ := by
    have hSettled := standing_declareGlobal (congrArg (·.directive) hWaiting) writable line column
    rw [congrArg (·.waiting) hWaiting] at hSettled
    exact hSettled
  -- after it every use is noted
  obtain ⟨hUnbound, hStanding⟩ := standing_foldl hDeclared hAfter
  rw [hDirective, Standing.foldl_use_noted rfl, hUses] at hStanding
  rw [hRun]
  exact ⟨hUnbound, hStanding⟩

/-- The log of a run does not matter to the tracker. -/
theorem foldl_account (t : Tracker) (log : List Deferred) (operations : List Operation) :
    (operations.foldl Operation.account (t, log)).1 = operations.foldl Operation.apply t := by
  induction operations generalizing t log with
  | nil => rfl
  | cons op rest ih => exact ih _ _

/-- The end of a run in which a directive declares the name, by the uses before the directive and
after it. -/
theorem listed_of_placed {table : Predefined.Table} (hTable : table.lookup name = none)
    {before after : List Operation} (hBefore : ∀ op ∈ before, op.OnlyUses name)
    (hAfter : ∀ op ∈ after, op.OnlyUses name) (writable : Bool) (line column : Nat)
    (layers : Layers) :
    let t :=
      (before ++ .declareGlobal name writable line column :: after).foldl Operation.apply
        { predefined := table }
    ((∃ b ∈ (t.finish layers).1.unused, b.name = name ∧ b.kind = .global) ↔
      .exportName name ∉ before ++ after ∧
        (∀ isWrite ∈ globalUses name { predefined := table } before, isWrite = true) ∧
        globalUses name (before.foldl Operation.apply { predefined := table }) after = []) ∧
    (∀ i ∈ (t.finish layers).1.implied, i.name ≠ name) ∧
      ∀ f ∈ (t.finish layers).2.findings, f.finding ≠ .notDefined name := by
  intro t
  obtain ⟨hUnbound, hStanding⟩ := standing_placed hTable hBefore hAfter writable line column
  refine ⟨?_, ?_⟩
  · have hExported : name ∈ t.exported ↔ .exportName name ∈ before ++ after := by
      simp only [t, exported_foldl, List.mem_append, List.mem_cons]
      simp
    rw [hUnbound.listed_iff, hStanding, hExported, and_comm]
    generalize globalUses name { predefined := table } before = usesBefore
    generalize globalUses name (before.foldl Operation.apply { predefined := table }) after =
      usesAfter
    simp
  · have hAccounts := accounted_foldl (accounted_fresh table)
      (before ++ .declareGlobal name writable line column :: after)
    rw [foldl_account] at hAccounts
    exact hAccounts.settled hUnbound (congrArg (·.waiting) hStanding) layers

end Tracker

/-- A run in which the only operation on a name besides its uses is a directive that declares it,
with the directive before some of the operations and after them. In both places the name is neither
implied nor reported as not defined. It is listed as unused if it is not exported, no use is a read
and none comes after the directive; so the place of the directive makes a difference exactly if it
moves past writes, there are no other uses after them, no use is a read, and the name is not
exported. -/
theorem directive_moved (table : Predefined.Table) (name : String)
    (hTable : table.lookup name = none)
    (before moved after : List Operation) (hOps : ∀ op ∈ before ++ moved ++ after, op.OnlyUses name)
    (writable : Bool) (line column : Nat) (layers : Layers) :
    let start : Tracker := { predefined := table }
    let directive := Operation.declareGlobal name writable line column
    let early :=
      ((before ++ directive :: (moved ++ after)).foldl Operation.apply start).finish layers
    let late := ((before ++ moved ++ directive :: after).foldl Operation.apply start).finish layers
    let lists (ending : Outcome × Tracker) :=
      ∃ b ∈ ending.1.unused, b.name = name ∧ b.kind = .global
    let defined (ending : Outcome × Tracker) :=
      (∀ i ∈ ending.1.implied, i.name ≠ name) ∧
        ∀ f ∈ ending.2.findings, f.finding ≠ .notDefined name
    let usesBefore := globalUses name start before
    let usesMoved := globalUses name (before.foldl Operation.apply start) moved
    let usesAfter := globalUses name ((before ++ moved).foldl Operation.apply start) after
    let exempt := .exportName name ∈ before ++ moved ++ after
    (defined early ∧ defined late) ∧
    (lists early ↔ ¬exempt ∧ (∀ isWrite ∈ usesBefore, isWrite = true) ∧
    usesMoved ++ usesAfter = []) ∧
    (lists late ↔ ¬exempt ∧ (∀ isWrite ∈ usesBefore ++ usesMoved, isWrite = true) ∧
    usesAfter = []) ∧
    (¬(lists early ↔ lists late) ↔ ¬exempt ∧ (∀ isWrite ∈ usesBefore ++ usesMoved, isWrite = true) ∧
      usesMoved ≠ [] ∧ usesAfter = []) := by
  intro start directive early late lists defined usesBefore usesMoved usesAfter exempt
  obtain ⟨hBoth, hAfter⟩ := List.forall_mem_append.mp hOps
  obtain ⟨hBefore, hMoved⟩ := List.forall_mem_append.mp hBoth
  have hEarly :=
    listed_of_placed hTable hBefore (List.forall_mem_append.mpr ⟨hMoved, hAfter⟩)
      writable line column
    layers
  have hLate := listed_of_placed hTable hBoth hAfter writable line column layers
  have hListsEarly : lists early ↔
      ¬exempt ∧ (∀ isWrite ∈ usesBefore, isWrite = true) ∧ usesMoved ++ usesAfter = [] := by
    have hUses :
        usesMoved ++ usesAfter =
        globalUses name (before.foldl Operation.apply start) (moved ++ after) := by
      rw [globalUses_append, ← List.foldl_append]
    rw [hUses]
    simp only [exempt, List.append_assoc]
    exact hEarly.1
  have hListsLate : lists late ↔
      ¬exempt ∧ (∀ isWrite ∈ usesBefore ++ usesMoved, isWrite = true) ∧ usesAfter = [] := by
    have hUses : usesBefore ++ usesMoved = globalUses name start (before ++ moved) :=
      (globalUses_append ..).symm
    rw [hUses]
    exact hLate.1
  refine ⟨⟨hEarly.2, hLate.2⟩, hListsEarly, hListsLate, ?_⟩
  rw [hListsEarly, hListsLate]
  by_cases hNone : usesMoved = []
  · simp [hNone]
  · simp [hNone, and_assoc]

/-- A directive that stands after the only write does not cover it, one before it does. -/
theorem directive_moved_write :
    let write : Operation := .assign "total" 1 1 {}
    let directive : Operation := .declareGlobal "total" true 2 1
    let lists (operations : List Operation) :=
      ∃ b ∈ ((operations.foldl Operation.apply { predefined := {} }).finish {}).1.unused,
        b.name = "total" ∧ b.kind = .global
    Predefined.Table.lookup {} "total" = none ∧ (∀ op ∈ [write], op.OnlyUses "total") ∧
      ¬lists [directive, write] ∧ lists [write, directive] := by
  intro write directive lists
  have hWrite : ∀ op ∈ [write], op.OnlyUses "total" := List.forall_mem_singleton.mpr trivial
  have hUses : globalUses "total" { predefined := {} } [write] = [true] := by decide +kernel
  obtain ⟨-, hEarly, hLate, -⟩ := directive_moved {} "total" rfl [] [write] [] hWrite true 2 1 {}
  refine ⟨rfl, hWrite, fun hListed => ?_, hLate.mpr ⟨?_, ?_, rfl⟩⟩
  · have hNone := (hEarly.mp hListed).2.2
    rw [List.foldl_nil, hUses] at hNone
    cases hNone
  · simp [write]
  · intro isWrite hUse
    rw [List.foldl_nil, hUses] at hUse
    exact List.mem_singleton.mp hUse

end ScriptLint.Scope
