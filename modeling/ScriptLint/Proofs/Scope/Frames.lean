import Mathlib.Data.List.TakeWhile
import Mathlib.Logic.Function.Iterate
import ScriptLint.Proofs.Scope.Accounts

/-!
# Frames that were left

Every operation changes active frames only, and a frame that was left never becomes active again. So
what a frame holds when it is left is final, and with it the verdict on its bindings.

- `Tracker.Edits`: what an operation does to the bindings and labels of some frames.
- `Tracker.Turns`: what a run does to all frames. Those that were left before it do not change.
- `Tracker.Sound`: the invariant of the frames, the bindings and the pending uses; `Sound.call` is
  the step, `sound_tracked` the run.
- `Tracker.judged`: the bindings that are listed as unused when a frame is left; `judged_kept` says
  that they stay there, unread.
- `frames_final`: what holds of the frames after any run.
-/

namespace ScriptLint.Scope

open Setting (Layers UnusedPolicy)

/-! ## Bindings -/

/-- The binding counts as used exactly if a line of a read is noted. -/
def Binding.Honest (b : Binding) : Prop := b.used = true ↔ b.useLines ≠ []

namespace Binding

/-- A new binding is unused, and says so. -/
theorem honest_fresh (line column : Nat) (kind : BindingKind) : Honest { line, column, kind } := by
  simp [Honest, useLines]

/-- A use is a use. -/
theorem honest_use (b : Binding) (line : Nat) : (b.use line).Honest := by
  simp [Honest, useLines, use]

/-- Two honest bindings are joined to one. -/
theorem Honest.join {b other : Binding} (h : b.Honest) (hOther : other.Honest) :
    (b.join other).Honest := by
  unfold Honest useLines Binding.join at *
  simp only [Bool.or_eq_true, List.reverse_append, ne_eq, List.append_eq_nil_iff, not_and_or]
  rw [h, hOther]

end Binding

namespace Tracker

variable {t u v : Tracker} {id : FrameId} {homes : List FrameId}

/-! ## Changing active frames -/

/-- No frame binds a name twice, labels bind nothing, and what counts as used was read. -/
structure Tidy (t : Tracker) : Prop where
  distinct : t.Distinct
  unlabeled : ∀ id name b, t.binding? id name = some b → (t.frame id).kind ≠ .label
  honest : ∀ id name b, t.binding? id name = some b → b.Honest

/-- The bindings and labels of the frames in a list change, and only uses made here become
pending. -/
structure Edits (t u : Tracker) (homes : List FrameId) : Prop extends t.SameArena u where
  others : ∀ id ∉ homes, u.frame id = t.frame id
  pending : ∀ name, ∀ r ∈ u.pendingUses name,
    r ∈ t.pendingUses name ∨ r.frame = t.current ∧ r.function = t.functionFrame
  tidy : t.Tidy → u.Tidy

namespace Edits

/-- Edits follow one another. -/
theorem trans (h : t.Edits u homes) (h' : u.Edits v homes) : t.Edits v homes where
  toSameArena := h.toSameArena.trans h'.toSameArena
  others id hId := (h'.others id hId).trans (h.others id hId)
  pending name r hr := by
    rcases h'.pending name r hr with hOld | ⟨hFrame, hFunction⟩
    · exact h.pending name r hOld
    · rw [functionFrame, h.current, h.function] at hFunction
      exact .inr ⟨h.current ▸ hFrame, hFunction⟩
  tidy := h'.tidy ∘ h.tidy

/-- The frames stay, and nothing new becomes pending. -/
theorem beside (hSame : t.SameArena u) (hFrame : ∀ id, u.frame id = t.frame id)
    (hPending : ∀ name, ∀ r ∈ u.pendingUses name, r ∈ t.pendingUses name) : t.Edits u homes := by
  have hBinding (id : FrameId) (name : String) : u.binding? id name = t.binding? id name := by
    rw [binding?, binding?, hFrame]
  refine ⟨hSame, fun id _ => hFrame id, fun name r hr => .inl (hPending name r hr),
    fun h => ⟨fun id => ?_, fun id name b hb => ?_, fun id name b hb => ?_⟩⟩
  · rw [hFrame]
    exact h.distinct id
  · rw [hFrame]
    exact h.unlabeled id name b (hBinding id name ▸ hb)
  · exact h.honest id name b (hBinding id name ▸ hb)

theorem refl (t : Tracker) (homes : List FrameId) : t.Edits t homes :=
  beside (.refl t) (fun _ => rfl) fun _ _ => id

/-- Findings are no edits. -/
theorem reports (h : t.Reports u) : t.Edits u homes :=
  beside h.sameArena h.frame fun name _ hr => h.pendingUses name ▸ hr

/-- Bindings change in one frame. What it binds afterwards does not lie in a label and is honest. -/
theorem rebinds (h : t.Rebinds u) (hOthers : ∀ other ≠ id, u.frame other = t.frame other)
    (hHome : id ∈ homes)
    (hTidy : t.Tidy → ∀ name b, u.binding? id name = some b →
    (t.frame id).kind ≠ .label ∧ b.Honest) : t.Edits u homes := by
  have hElse {other : FrameId} (hOther : other ≠ id) (name : String) :
      u.binding? other name = t.binding? other name := by
    rw [binding?, binding?, hOthers other hOther]
  refine ⟨h.toSameArena, fun other hOther => hOthers other fun hSame => hOther (hSame ▸ hHome),
    fun name r hr => .inl ?_, fun hOld => ⟨h.distinct hOld.distinct, fun other name b hb => ?_,
      fun other name b hb => ?_⟩⟩
  · rw [pendingUses, h.pending] at hr
    exact hr
  · rw [h.kind]
    by_cases hSame : other = id
    · subst hSame
      exact (hTidy hOld name b hb).1
    · exact hOld.unlabeled other name b (hElse hSame name ▸ hb)
  · by_cases hSame : other = id
    · subst hSame
      exact (hTidy hOld name b hb).2
    · exact hOld.honest other name b (hElse hSame name ▸ hb)

/-- A name may be bound in a frame that is no label. -/
theorem bind (t : Tracker) (hHome : id ∈ homes) (hSize : id < t.frames.size)
    (hKind : (t.frame id).kind ≠ .label) (name : String) {b : Binding} (hb : b.Honest) :
    t.Edits (t.bind id name b) homes := by
  refine .rebinds (.bind t id name b) (fun other hOther => ?_) hHome fun hOld other b' hb' => ?_
  · exact (frame_modifyFrame ..).trans (if_neg fun h => hOther h.1)
  · rw [binding?_bind t hSize] at hb'
    split at hb'
    · exact Option.some.inj hb' ▸ ⟨hKind, hb⟩
    · exact ⟨hKind, hOld.honest id other b' hb'⟩

theorem modifyBinding (t : Tracker) (hHome : id ∈ homes) (name : String) {f : Binding → Binding}
    (hf : ∀ b, b.Honest → (f b).Honest) : t.Edits (t.modifyBinding id name f) homes := by
  refine .rebinds (.modifyBinding t id name f) (fun other hOther => ?_) hHome
    fun hOld other b hb => ?_
  · exact (frame_modifyFrame ..).trans (if_neg fun h => hOther h.1)
  · rw [binding?_modifyBinding] at hb
    split at hb
    · obtain ⟨old, hOldBinding, rfl⟩ := Option.map_eq_some_iff.mp hb
      exact ⟨hOld.unlabeled id name old hOldBinding, hf old (hOld.honest id name old hOldBinding)⟩
    · exact ⟨hOld.unlabeled id other b hb, hOld.honest id other b hb⟩

theorem markUsed (t : Tracker) (hHome : id ∈ homes) (name : String) (line : Nat) :
    t.Edits (t.markUsed id name line) homes :=
  modifyBinding t hHome name fun b _ => b.honest_use line

theorem unbind (t : Tracker) (hHome : id ∈ homes) (name : String) :
    t.Edits (t.unbind id name) homes := by
  refine .rebinds (.unbind t id name) (fun other hOther => ?_) hHome fun hOld other b hb => ?_
  · exact (frame_modifyFrame ..).trans (if_neg fun h => hOther h.1)
  · rw [binding?_unbind] at hb
    split at hb
    · cases hb
    · exact ⟨hOld.unlabeled id other b hb, hOld.honest id other b hb⟩

theorem markReads (t : Tracker) (hHome : id ∈ homes) (name : String) (refs : List Pending) :
    t.Edits (t.markReads id name refs) homes := by
  unfold Tracker.markReads
  induction refs.filter (!·.isWrite) generalizing t with
  | nil => exact refl t homes
  | cons r rest ih => exact (markUsed t hHome name r.line).trans (ih _)

theorem claim (t : Tracker) (hHome : id ∈ homes) (name : String) :
    t.Edits (t.claim name id) homes := by
  obtain ⟨hSame, -, hFrame⟩ := sameArena_takePending t name id
  refine (beside hSame hFrame fun other r hr => ?_).trans (markReads _ hHome name _)
  rw [pendingUses_takePending] at hr
  exact (List.mem_filter.mp hr).1

theorem receive (t : Tracker) (hHome : id ∈ homes) (hSize : id < t.frames.size)
    (hKind : (t.frame id).kind ≠ .label) (name : String) {b : Binding} (hb : b.Honest) :
    t.Edits (t.receive id name b) homes := by
  unfold Tracker.receive
  split
  · exact modifyBinding t hHome name fun old hOld => hOld.join hb
  · exact bind t hHome hSize hKind name hb

/-- A name may move from a block to its function. -/
theorem moveOut (t : Tracker) {function : FrameId} (hHome : id ∈ homes)
    (hFunction : function ∈ homes)
    (hSize : function < t.frames.size) (hKind : (t.frame function).kind ≠ .label) (funcscope : Bool)
    (name : String) {b : Binding} (hb : b.Honest) :
    t.Edits (t.moveOut id function funcscope (name, b)) homes := by
  have hUnbind := unbind t hHome name
  have hReceive :=
    receive (t.unbind id name) hFunction (hUnbind.size ▸ hSize) (hUnbind.kind _ ▸ hKind) name hb
  exact ((hUnbind.trans hReceive).trans (claim _ hFunction name)).trans
    (.reports (reports_moveOut ..))

/-- By induction on the bindings that move. -/
theorem foldl_moveOut (t : Tracker) {function : FrameId} (hHome : id ∈ homes)
    (hFunction : function ∈ homes)
    (hSize : function < t.frames.size) (hKind : (t.frame function).kind ≠ .label) (funcscope : Bool)
    (entries : List (String × Binding)) (hEntries : ∀ entry ∈ entries, entry.2.Honest) :
    t.Edits (entries.foldl (fun t entry => t.moveOut id function funcscope entry) t) homes := by
  induction entries generalizing t with
  | nil => exact refl t homes
  | cons entry rest ih =>
    obtain ⟨name, b⟩ := entry
    obtain ⟨hFirst, hRest⟩ := List.forall_mem_cons.mp hEntries
    have hMove := moveOut t hHome hFunction hSize hKind funcscope name hFirst
    have hStill : ((t.moveOut id function funcscope (name, b)).frame function).kind ≠ .label := by
      rw [hMove.kind]
      exact hKind
    exact hMove.trans (ih _ (hMove.size ▸ hSize) hStill hRest)

/-- A label changes its frame only. -/
theorem addLabel (t : Tracker) (hHome : t.current ∈ homes) (label : String) :
    t.Edits (t.addLabel label) homes := by
  have hBindings (id : FrameId) :
      ((t.addLabel label).frame id).bindings = (t.frame id).bindings := by
    unfold Tracker.addLabel
    rw [frame_modifyFrame]
    split
    · next hHere => rw [hHere.1]
    · rfl
  have hBinding (id : FrameId) (name : String) :
      (t.addLabel label).binding? id name = t.binding? id name := by
    rw [binding?, binding?, hBindings]
  have hSame : t.SameArena (t.addLabel label) := .modifyFrame t _ fun _ => rfl
  refine ⟨hSame, fun other hOther => ?_, fun _ _ hr => .inl hr, fun hOld => ⟨fun id => ?_,
    fun id name b hb => ?_, fun id name b hb => ?_⟩⟩
  · have hApart : other ≠ t.current := fun h => hOther (h ▸ hHome)
    simp [Tracker.addLabel, frame_modifyFrame, hApart]
  · rw [hBindings]
    exact hOld.distinct id
  · rw [hSame.kind]
    exact hOld.unlabeled id name b (hBinding id name ▸ hb)
  · exact hOld.honest id name b (hBinding id name ▸ hb)

/-- A use is deferred by the frame it is in. -/
theorem defer (t : Tracker) (name : String) (line column : Nat) (isWrite : Bool) (layers : Layers) :
    t.Edits (t.defer name line column isWrite layers) homes := by
  have hOld := refl t homes
  refine ⟨.of_frames rfl rfl, hOld.others, fun other r hr => ?_,
    fun h => ⟨h.distinct, h.unlabeled, h.honest⟩⟩
  unfold Tracker.defer pendingUses at hr
  rw [OrderedMap.get?_insert] at hr
  by_cases hName : other = name
  · subst hName
    simp only [if_true, Option.getD_some, List.reverse_cons, List.mem_append,
      List.mem_singleton] at hr
    rcases hr with hr | rfl
    · exact .inl hr
    · exact .inr ⟨rfl, rfl⟩
  · rw [if_neg hName] at hr
    exact .inl hr

end Edits

/-! ## What a run does to the frames -/

/-- Frames may be opened, active ones may change and be left; the others stay, and stay left. -/
structure Turns (t u : Tracker) : Prop where
  size : t.frames.size ≤ u.frames.size
  left : ∀ id < t.frames.size, id ∉ t.active.toList → id ∉ u.active.toList
  frozen : ∀ id < t.frames.size, id ∉ t.active.toList → u.frame id = t.frame id

namespace Turns

theorem refl (t : Tracker) : t.Turns t := ⟨Nat.le_refl _, fun _ _ => id, fun _ _ _ => rfl⟩

/-- Turns follow one another. -/
theorem trans (h : t.Turns u) (h' : u.Turns v) : t.Turns v where
  size := Nat.le_trans h.size h'.size
  left id hSize hLeft := h'.left id (Nat.lt_of_lt_of_le hSize h.size) (h.left id hSize hLeft)
  frozen id hSize hLeft :=
    (h'.frozen id (Nat.lt_of_lt_of_le hSize h.size) (h.left id hSize hLeft)).trans
      (h.frozen id hSize hLeft)

end Turns

/-- The frames are well placed, bindings are tidy, pending uses lie in frames that exist, and
variables and functions were moved out of every frame that was left, functions apart. -/
structure Sound (t : Tracker) : Prop where
  arena : t.Arena
  tidy : t.Tidy
  pending : ∀ name, ∀ r ∈ t.pendingUses name, r.frame < t.frames.size ∧ r.function < t.frames.size
  emptied : ∀ id < t.frames.size, id ∉ t.active.toList → (t.frame id).kind ≠ .function →
    ∀ name b, t.binding? id name = some b → b.kind.hoists = false

/-- A new tracker is sound. -/
theorem sound_fresh (table : Predefined.Table) : Sound { predefined := table } := by
  have hNone (id : FrameId) (name : String) : binding? { predefined := table } id name = none := by
    rcases Nat.eq_zero_or_pos id with rfl | hPos
    · rfl
    · exact binding?_of_size_le (show 1 ≤ id from hPos) name
  refine ⟨arena_fresh table,
    ⟨(accounted_fresh table).distinct, fun id name b hb => ?_, fun id name b hb => ?_⟩,
    fun name r hr => ?_, fun id _ _ _ name b hb => ?_⟩
  · rw [hNone] at hb
    cases hb
  · rw [hNone] at hb
    cases hb
  · cases hr
  · rw [hNone] at hb
    cases hb

namespace Sound

/-- The function of a frame is a function or the program. By strong induction on the index. -/
theorem kind_function (h : t.Sound) (hSize : id < t.frames.size) :
    (t.frame (t.frame id).function).kind ≠ .label := by
  have hRoot : (t.frame 0).kind = .global := congrArg Prod.fst h.arena.root
  induction id using Nat.strongRecOn with
  | ind id ih =>
    rcases Nat.eq_zero_or_pos id with rfl | hPos
    · have hFunction : (t.frame 0).function = 0 := congrArg (·.2.2) h.arena.root
      simp [hFunction, hRoot]
    · obtain ⟨parent, hLess, -, hFunction⟩ := h.arena.inner id hPos hSize
      split at hFunction
      · next hKind => simp [hFunction, hKind]
      · rw [hFunction]
        exact ih parent hLess (Nat.lt_trans hLess hSize)

/-- Names are declared in a frame that is no label. -/
theorem kind_declarationFrame (h : t.Sound) : (t.frame t.declarationFrame).kind ≠ .label := by
  have hRoot : (t.frame 0).kind = .global := congrArg Prod.fst h.arena.root
  unfold declarationFrame
  cases hFind : t.enclosing.find? fun id => (t.frame id).kind ≠ .label with
  | none => simp [hRoot]
  | some id => simpa using List.find?_some hFind

theorem function_lt_size (h : t.Sound) (hSize : id < t.frames.size) :
    (t.frame id).function < t.frames.size :=
  Nat.lt_of_le_of_lt (le_of_mem_lineage (h.arena.function_mem hSize)) hSize

/-- Names resolve to active frames. -/
theorem active_of_lookup (h : t.Sound) {name : String} (hLookup : t.lookup name = some id) :
    id ∈ t.active.toList :=
  h.arena.active ▸ List.mem_of_find?_eq_some hLookup

end Sound

/-- Changing active frames alone keeps the invariant. -/
theorem Sound.edit (h : t.Sound) (hEdits : t.Edits u t.active.toList) : u.Sound ∧ t.Turns u := by
  have hActive : u.active.toList = t.active.toList := by rw [hEdits.active]
  refine ⟨⟨h.arena.of_sameArena hEdits.toSameArena, hEdits.tidy h.tidy, fun name r hr => ?_,
    fun id hSize hLeft hKind name b hb => ?_⟩, Nat.le_of_eq hEdits.size.symm,
    fun id _ hLeft => hActive ▸ hLeft, fun id _ hLeft => hEdits.others id hLeft⟩
  · rw [hEdits.size]
    rcases hEdits.pending name r hr with hOld | ⟨hFrame, hFunction⟩
    · exact h.pending name r hOld
    · rw [hFrame, hFunction]
      exact ⟨h.arena.current, h.function_lt_size h.arena.current⟩
  · rw [hActive] at hLeft
    rw [hEdits.kind] at hKind
    rw [binding?, hEdits.others id hLeft] at hb
    exact h.emptied id (hEdits.size ▸ hSize) hLeft hKind name b hb

/-! ## Operations -/

section Operations

variable (h : t.Sound)
include h

/-- A declaration edits the frames in use. -/
theorem edits_declare (name : String) (kind : BindingKind) (line column : Nat) (layers : Layers) :
    t.Edits (t.declare name kind line column layers) t.active.toList := by
  have hActive := h.arena.declarationFrame_mem
  refine Edits.trans ?_ (.reports (reports_declare t name kind line column layers))
  split
  · exact (Edits.bind t hActive (h.arena.lt_size_of_active hActive) h.kind_declarationFrame name
      (Binding.honest_fresh line column kind)).trans (.claim _ hActive name)
  · exact .refl t _

theorem edits_reference (name : String) (line column : Nat) (layers : Layers) :
    t.Edits (t.reference name line column layers) t.active.toList := by
  unfold reference
  split
  · next id hLookup =>
    exact (Edits.markUsed t (h.active_of_lookup hLookup) name line).trans
      (.reports (reports_reportOutOfScope ..))
  · split
    · exact .refl t _
    · split
      · exact .reports (.silent rfl)
      · exact .defer ..

theorem edits_referenceGuarded (name : String) (line : Nat) :
    t.Edits (t.referenceGuarded name line) t.active.toList := by
  unfold referenceGuarded
  split
  · next id hLookup => exact .markUsed t (h.active_of_lookup hLookup) name line
  · split
    · exact .reports (.silent rfl)
    · exact .refl t _

omit h in
/-- So does a write. -/
theorem edits_assign (name : String) (line column : Nat) (layers : Layers) :
    t.Edits (t.assign name line column layers) t.active.toList := by
  unfold assign
  split
  · refine Edits.trans ?_ (.reports (reports_reportOutOfScope ..))
    split
    · next finding hFinding =>
      obtain ⟨b, -, hb⟩ := Option.bind_eq_some_iff.mp hFinding
      exact .reports (.report finding _ _ (isUndefined_of_assignFinding? hb))
    · exact .refl t _
  · split
    · exact .refl t _
    · split
      · have hUsed : t.Edits (t.useDirectiveGlobal name) t.active.toList := .reports (.silent rfl)
        refine hUsed.trans ?_
        split
        · exact .refl ..
        · exact .reports (.report _ _ _ rfl)
      · exact .defer ..

omit h in
theorem edits_declareGlobal (name : String) (writable : Bool) (line column : Nat) :
    t.Edits (t.declareGlobal name writable line column) t.active.toList := by
  refine .beside (.of_frames rfl rfl) (fun _ => rfl) fun other r hr => ?_
  unfold declareGlobal pendingUses at hr
  rw [OrderedMap.get?_erase] at hr
  split at hr
  · cases hr
  · exact hr

omit h in
/-- The frame of the program is not left. -/
theorem exit_of_isBottom (hBottom : t.active.isBottom = true) (layers : Layers) :
    t.exit layers = t := by
  unfold exit
  rw [show t.leaving? = none from if_pos hBottom]

/-- Leaving a frame changes it and the function around it, both of which are active before. -/
theorem edits_exit (layers : Layers) :
    Edits { t with active := t.active.pop } (t.exit layers) t.active.toList := by
  obtain ⟨u, hReports, hExit⟩ := exit_eq t layers
  have hFirst : Edits { t with active := t.active.pop } u t.active.toList := .reports hReports
  rw [hExit]
  by_cases hNone : t.hoisting = []
  · rw [hNone]
    exact hFirst
  · obtain ⟨hInner, hKind⟩ := inner_of_hoisting hNone
    have hBelow := (h.arena.function_mem_below hInner hKind).1
    have hActive : t.functionFrame ∈ t.active.toList := List.mem_cons_of_mem _ hBelow
    refine hFirst.trans
      (.foldl_moveOut u List.mem_cons_self hActive ?_ ?_ _ _ fun entry hEntry => ?_)
    · exact hReports.frames ▸ h.arena.lt_size_of_active hActive
    · rw [hReports.frame]
      exact h.kind_function h.arena.current
    · unfold hoisting at hEntry
      split at hEntry
      · cases hEntry
      · have hMem := (List.mem_filter.mp hEntry).1
        exact h.tidy.honest t.current entry.1 entry.2
          ((OrderedMap.mem_entries_iff _ (h.tidy.distinct _) _ _).mp hMem)

/-- Leaving a frame opens none. -/
theorem active_exit_subset (layers : Layers) (hActive : id ∈ (t.exit layers).active.toList) :
    id ∈ t.active.toList := by
  have hPop : (t.exit layers).active = t.active.pop := (edits_exit h layers).active
  rw [hPop] at hActive
  by_cases hInner : t.active.below = []
  · rw [Stack.pop, hInner] at hActive
    exact hActive
  · obtain ⟨_, _, _, _, _, hBelow⟩ := h.arena.below_eq hInner
    exact List.mem_cons_of_mem _ (hBelow ▸ hActive)

/-- What was left before stays as it was. -/
theorem turns_exit (layers : Layers) : t.Turns (t.exit layers) where
  size := Nat.le_of_eq (edits_exit h layers).size.symm
  left _ _ hLeft hActive := hLeft (active_exit_subset h layers hActive)
  frozen id _ hLeft := (edits_exit h layers).others id hLeft

/-- The frame that is left keeps no variable and no function, unless it is a function itself. -/
theorem emptied_exit (layers : Layers) (hInner : t.active.below ≠ [])
    (hKind : (t.frame t.current).kind ≠ .function) {name : String} {b : Binding}
    (hb : (t.exit layers).binding? t.current name = some b) : b.kind.hoists = false := by
  have hMoves := movesAll_exit h.arena h.tidy.distinct layers
  by_cases hMoved : name ∈ t.hoisting.map Prod.fst
  · obtain ⟨entry, hEntry, rfl⟩ := List.mem_map.mp hMoved
    rw [hMoves.gone entry hEntry] at hb
    cases hb
  · rw [hMoves.others _ _ fun hBoth => hMoved hBoth.1] at hb
    have hMem := (OrderedMap.mem_entries_iff _ (h.tidy.distinct t.current) name b).mpr hb
    rw [Bool.eq_false_iff]
    intro hHoists
    refine hMoved (List.mem_map.mpr ⟨(name, b), ?_, rfl⟩)
    have hBottom : t.active.isBottom = false := by simpa [Stack.isBottom] using hInner
    simp only [hoisting, hBottom, hKind, decide_false, Bool.or_false, Bool.false_eq_true, if_false]
    exact List.mem_filter.mpr ⟨hMem, hHoists⟩

/-- A tracker stays sound when a frame is left. -/
theorem sound_exit (layers : Layers) : (t.exit layers).Sound := by
  have hEdits := edits_exit h layers
  have hTurns := turns_exit h layers
  have hPop : Tidy { t with active := t.active.pop } :=
    ⟨h.tidy.distinct, h.tidy.unlabeled, h.tidy.honest⟩
  -- hoisting moves what was bound, and takes uses away
  refine ⟨h.arena.leave.of_sameArena hEdits.toSameArena, hEdits.tidy hPop, fun name r hr => ?_,
    fun id hSize hLeft hKind name b hb => ?_⟩
  · have hUses := (movesAll_exit h.arena h.tidy.distinct layers).uses name
    rw [hUses] at hr
    rw [hEdits.size]
    exact h.pending name r (List.mem_filter.mp hr).1
  · have hOld : id < t.frames.size := hEdits.size ▸ hSize
    have hSameKind : ((t.exit layers).frame id).kind = (t.frame id).kind := hEdits.kind id
    rw [hSameKind] at hKind
    by_cases hBefore : id ∈ t.active.toList
    · -- It is the frame that is left now: the others that were active still are.
      rcases List.mem_cons.mp hBefore with rfl | hBelow
      · refine emptied_exit h layers (fun hBottom => hLeft ?_) hKind hb
        rw [hEdits.active]
        show t.current ∈ t.active.pop.toList
        rw [Stack.pop, hBottom]
        exact List.mem_cons_self
      · obtain ⟨_, _, _, _, _, hPop⟩ := h.arena.below_eq (List.ne_nil_of_mem hBelow)
        refine absurd ?_ hLeft
        rw [hEdits.active]
        show id ∈ t.active.pop.toList
        rw [hPop]
        exact hBelow
    · rw [binding?, hTurns.frozen id hOld hBefore] at hb
      exact h.emptied id hOld hBefore hKind name b hb

/-- And when one is entered. -/
theorem sound_enter (kind : FrameKind) : (t.enter kind).Sound ∧ t.Turns (t.enter kind) := by
  have hSize : (t.enter kind).frames.size = t.frames.size + 1 := Array.size_push _
  have hOld {id : FrameId} (hId : id ≠ t.frames.size) : (t.enter kind).frame id = t.frame id := by
    rw [Arena.frame_enter, if_neg hId]
  have hActive : (t.enter kind).active.toList = t.frames.size :: t.active.toList := rfl
  -- the new frame binds nothing
  have hBound {id : FrameId} {name : String} {b : Binding}
      (hb : (t.enter kind).binding? id name = some b) :
        id ≠ t.frames.size ∧ t.binding? id name = some b := by
    rw [binding?, Arena.frame_enter] at hb
    split at hb
    · cases hb
    · next hId => exact ⟨hId, hb⟩
  have hBindings (id : FrameId) : ((t.enter kind).frame id).bindings.keys.Nodup := by
    rw [Arena.frame_enter]
    split
    · exact .nil
    · exact h.tidy.distinct id
  refine ⟨⟨h.arena.enter kind, ⟨hBindings, fun id name b hb => ?_, fun id name b hb => ?_⟩,
    fun name r hr => ?_,
    fun id hId hLeft hKind name b hb => ?_⟩, ?_, fun id hId hLeft => ?_,
    fun id hId _ => hOld (Nat.ne_of_lt hId)⟩
  · rw [hOld (hBound hb).1]
    exact h.tidy.unlabeled id name b (hBound hb).2
  · exact h.tidy.honest id name b (hBound hb).2
  · rw [hSize]
    obtain ⟨hFrame, hFunction⟩ := h.pending name r hr
    exact ⟨Nat.lt_succ_of_lt hFrame, Nat.lt_succ_of_lt hFunction⟩
  · rw [hActive, List.mem_cons, not_or] at hLeft
    rw [hOld hLeft.1] at hKind
    exact h.emptied id (by omega) hLeft.2 hKind name b (hBound hb).2
  · omega
  · rw [hActive, List.mem_cons, not_or]
    exact ⟨Nat.ne_of_lt hId, hLeft⟩

/-- An operation that neither opens nor leaves a frame changes the frames that are active. -/
theorem edits_operation (op : Operation) (hEnter : ∀ kind, op ≠ .enter kind)
    (hExit : ∀ layers, op ≠ .exit layers) : t.Edits (op.apply t) t.active.toList := by
  cases op with
  | enter kind => exact absurd rfl (hEnter kind)
  | exit layers => exact absurd rfl (hExit layers)
  | declare name kind line column layers => exact edits_declare h name kind line column layers
  | reference name line column layers => exact edits_reference h name line column layers
  | referenceGuarded name line => exact edits_referenceGuarded h name line
  | assign name line column layers => exact edits_assign name line column layers
  | declareGlobal name writable line column => exact edits_declareGlobal name writable line column
  | editPredefined edit => exact .reports (.silent rfl)
  | exportName name => exact .reports (.silent rfl)
  | addLabel label => exact .addLabel t List.mem_cons_self label
  | takeFindings => exact .beside (.of_frames rfl rfl) (fun _ => rfl) fun _ _ hr => hr

/-- And after any operation. -/
theorem sound_operation (op : Operation) : (op.apply t).Sound ∧ t.Turns (op.apply t) := by
  cases op with
  | enter kind => exact sound_enter h kind
  | exit layers => exact ⟨sound_exit h layers, turns_exit h layers⟩
  | _ => exact h.edit (edits_operation h _ nofun nofun)

/-- By induction on the frames left. -/
theorem sound_exitMany (layers : Layers) (count : Nat) :
    (t.exitMany layers count).Sound ∧ t.Turns (t.exitMany layers count) := by
  induction count generalizing t with
  | zero => exact ⟨h, .refl t⟩
  | succ count ih =>
    obtain ⟨hSound, hTurns⟩ := ih (sound_exit h layers)
    exact ⟨hSound, (turns_exit h layers).trans hTurns⟩

omit h in
theorem sameArena_foldl_reportUndefined (t : Tracker) (entries : List (String × List Pending)) :
    (entries.foldl reportUndefined t).frames = t.frames ∧
      (entries.foldl reportUndefined t).active = t.active := by
  induction entries generalizing t with
  | nil => exact ⟨rfl, rfl⟩
  | cons entry rest ih => exact ih (t.reportUndefined entry)

/-- And at the end of the run. -/
theorem sound_finish (layers : Layers) :
    (t.finish layers).2.Sound ∧ t.Turns (t.finish layers).2 := by
  obtain ⟨hSound, hTurns⟩ := sound_exitMany h layers t.active.below.length
  obtain ⟨u, hu⟩ : ∃ u, u = t.exitMany layers t.active.below.length := ⟨_, rfl⟩
  rw [← hu] at hSound hTurns
  -- What follows once every frame is left is listing and reporting.
  have hListed :
      u.Edits ((u.evaluateUnused 0 layers.unusedPolicy false).evaluateGlobals layers.unusedPolicy)
      u.active.toList :=
    (Edits.reports (reports_evaluateUnused u 0 layers.unusedPolicy false)).trans
      (.reports (reports_evaluateGlobals _ layers.unusedPolicy))
  have hLast : u.Edits (t.finish layers).2 u.active.toList := by
    refine hListed.trans ?_
    unfold finish
    dsimp only
    rw [← hu]
    refine .beside
      (.of_frames (sameArena_foldl_reportUndefined _ _).1 (sameArena_foldl_reportUndefined _ _).2)
      (fun id => ?_) fun name r hr => by cases hr
    rw [frame, frame, (sameArena_foldl_reportUndefined _ _).1]
  obtain ⟨hEnd, hEndTurns⟩ := hSound.edit hLast
  exact ⟨hEnd, hTurns.trans hEndTurns⟩

end Operations

/-! ## The verdict on bindings -/

/-- The bindings that are listed as unused when the current frame is left. -/
def judged (t : Tracker) (layers : Layers) : List (String × Binding) :=
  if t.active.isBottom then []
  else unreadBindings (t.frame t.current) t.exported layers.unusedPolicy
    ((t.frame t.current).kind ≠ .function)

/-- What an entry of a frame is listed as. -/
def listing (entry : String × Binding) : UnusedBinding :=
  ⟨entry.1, entry.2.line, entry.2.column, entry.2.kind⟩

/-- What a frame leaves unread is listed. -/
theorem unused_evaluateUnused (t : Tracker) (id : FrameId) (policy : UnusedPolicy)
    (lexicalOnly : Bool) : (t.evaluateUnused id policy lexicalOnly).unused =
      t.unused ++ (unreadBindings (t.frame id) t.exported policy lexicalOnly).map listing := by
  unfold evaluateUnused
  generalize unreadBindings (t.frame id) t.exported policy lexicalOnly = entries
  induction entries generalizing t with
  | nil => simp
  | cons entry rest ih =>
    have hFirst : (t.addUnused policy (listing entry)).unused = t.unused ++ [listing entry] := by
      unfold addUnused
      dsimp only
      split <;> rfl
    rw [List.foldl_cons, List.map_cons, List.append_cons, ← hFirst]
    exact ih _

/-- Moving lists nothing. -/
theorem unused_moveOut (t : Tracker) (id function : FrameId) (funcscope : Bool) (name : String)
    (b : Binding) : (t.moveOut id function funcscope (name, b)).unused = t.unused := by
  have hReads (refs : List Pending) (u : Tracker) : (refs.foldl (fun t r =>
      let t := if r.isWrite then t else t.markUsed function name r.line
      if r.function = function && !funcscope then t.report (.outOfScope name) r.line r.column
      else t) u).unused = u.unused := by
    -- by induction on the uses
    induction refs generalizing u with
    | nil => rfl
    | cons r rest ih =>
      rw [List.foldl_cons, ih]
      dsimp only
      split <;> split <;> rfl
  have hTaken (u : Tracker) : (u.takePending name function).2.unused = u.unused := by
    unfold takePending
    split <;> rfl
  unfold moveOut hoist
  dsimp only
  rw [hReads, hTaken]
  split <;> rfl

/-- Leaving a frame lists its unread bindings and no others. -/
theorem unused_exit (t : Tracker) (layers : Layers) :
    (t.exit layers).unused = t.unused ++ (t.judged layers).map listing := by
  have hMoves (id function : FrameId) (funcscope : Bool) (entries : List (String × Binding))
    (u : Tracker) :
      (entries.foldl (fun t entry => t.moveOut id function funcscope entry) u).unused =
        u.unused := by
    induction entries generalizing u with
    | nil => rfl
    | cons entry rest ih => exact (ih _).trans (unused_moveOut ..)
  unfold exit leaving? judged
  by_cases hBottom : t.active.isBottom
  · simp [hBottom]
  · rw [if_neg hBottom, if_neg hBottom]
    dsimp only
    by_cases hKind : (t.frame t.current).kind = .function
    · have hOnly : decide ((t.frame t.current).kind ≠ .function) = false := by simp [hKind]
      rw [if_pos hKind, unused_evaluateUnused, hOnly]
      rfl
    · have hOnly : decide ((t.frame t.current).kind ≠ .function) = true := by simp [hKind]
      rw [if_neg hKind, hMoves, unused_evaluateUnused, hOnly]
      rfl

/-- What is listed is bound in the frame and was not read. Variables and functions are listed in
functions only. -/
theorem mem_unreadBindings {f : Frame} {exported : List String} {policy : UnusedPolicy}
    {lexicalOnly : Bool}
    {entry : String × Binding} (hEntry : entry ∈ unreadBindings f exported policy lexicalOnly) :
    entry ∈ f.bindings.entries ∧ entry.2.used = false ∧
      (lexicalOnly = true → entry.2.kind.hoists = false) := by
  -- a parameter is judged by its uses, and never moves out of a function
  have hParameter {l : List (String × Binding)} (hl : ∀ e ∈ l, e ∈ parameters f)
      (hUnread : ∀ e ∈ l, e.2.used = false) (hMem : entry ∈ l) : entry ∈ f.bindings.entries ∧
        entry.2.used = false ∧ (lexicalOnly = true → entry.2.kind.hoists = false) := by
    obtain ⟨hBound, hKind⟩ := List.mem_filter.mp (hl entry hMem)
    exact ⟨hBound, hUnread entry hMem, fun _ => by rw [of_decide_eq_true hKind]; rfl⟩
  unfold unreadBindings at hEntry
  rw [List.mem_mergeSort, List.mem_append] at hEntry
  rcases hEntry with hVariable | hListed
  · obtain ⟨hBound, hUnread⟩ := List.mem_filter.mp hVariable
    obtain ⟨⟨hKind, hUsed⟩, -⟩ := by simpa only [Bool.and_eq_true] using hUnread
    refine ⟨hBound, by simpa using hUsed, fun hOnly => ?_⟩
    subst hOnly
    revert hKind
    cases entry.2.kind <;> simp [BindingKind.isLexical, BindingKind.hoists]
  · revert hListed
    generalize (if policy = .off then UnusedPolicy.lastParam else policy) = walk
    cases walk with
    | strict =>
      exact hParameter (fun e he => (List.mem_filter.mp he).1) fun e he => by
        simpa using (List.mem_filter.mp he).2
    | lastParam =>
      refine hParameter (fun e he => ?_) fun e he => ?_
      · exact List.mem_reverse.mp ((List.takeWhile_sublist _).subset he)
      · simpa using List.mem_takeWhile_imp he
    | vars => exact fun hNone => by cases hNone
    | off => exact fun hNone => by cases hNone

/-- A binding that is listed as unused stays in the frame that is left, unread. -/
theorem judged_kept (h : t.Sound) (layers : Layers) {entry : String × Binding}
    (hEntry : entry ∈ t.judged layers) : (t.exit layers).binding? t.current entry.1 = some entry.2 ∧
      entry.2.used = false ∧ t.current < t.frames.size ∧
        t.current ∉ (t.exit layers).active.toList := by
  unfold judged at hEntry
  split at hEntry
  · cases hEntry
  · next hBottom =>
    have hInner : t.active.below ≠ [] := fun hNone => hBottom (List.isEmpty_iff.mpr hNone)
    obtain ⟨hBound, hUnread, hKept⟩ := mem_unreadBindings hEntry
    have hBinding :=
      (OrderedMap.mem_entries_iff _ (h.tidy.distinct t.current) entry.1 entry.2).mp hBound
    have hStays : entry.1 ∉ t.hoisting.map Prod.fst := by
      intro hMoved
      obtain ⟨other, hOther, hName⟩ := List.mem_map.mp hMoved
      obtain ⟨-, hKind⟩ := inner_of_hoisting (List.ne_nil_of_mem hOther)
      unfold hoisting at hOther
      split at hOther
      · cases hOther
      · obtain ⟨hMem, hHoists⟩ := List.mem_filter.mp hOther
        -- A frame binds a name once, so what moves is the listed binding itself, which does not.
        have hSame :=
          (OrderedMap.mem_entries_iff _ (h.tidy.distinct t.current) other.1 other.2).mp hMem
        rw [hName, hBinding] at hSame
        rw [← Option.some.inj hSame, hKept (by simp [hKind])] at hHoists
        cases hHoists
    have hMoves := movesAll_exit h.arena h.tidy.distinct layers
    refine ⟨(hMoves.others _ _ fun hBoth => hStays hBoth.1).trans hBinding, hUnread,
      h.arena.current, ?_⟩
    obtain ⟨parent, hLess, -, hBelow, -, hPop⟩ := h.arena.below_eq hInner
    rw [(edits_exit h layers).active]
    show t.current ∉ t.active.pop.toList
    rw [hPop, hBelow]
    exact fun hMem => absurd (le_of_mem_lineage hMem) (Nat.not_le.mpr hLess)

/-! ## Walking outwards -/

/-- The frame around a frame, if there is one. -/
def outward (t : Tracker) (id : Option FrameId) :
    Option FrameId := id.bind fun id => (t.frame id).parent

/-- A parent is older than its child. -/
theorem Sound.parent_lt (h : t.Sound) {parent : FrameId}
    (hParent : (t.frame id).parent = some parent) : parent < id := by
  rcases Nat.lt_or_ge id t.frames.size with hSize | hSize
  · rcases Nat.eq_zero_or_pos id with rfl | hPos
    · have hNone : (t.frame 0).parent = none := congrArg (·.2.1) h.arena.root
      rw [hNone] at hParent
      cases hParent
    · obtain ⟨parent', hLess, hParent', -⟩ := h.arena.inner id hPos hSize
      exact Option.some.inj (hParent'.symm.trans hParent) ▸ hLess
  · rw [frame_of_size_le hSize] at hParent
    cases hParent

/-- The walk from a frame outwards ends. By strong induction on the index: each step makes it
smaller. -/
theorem Sound.outward_ends (h : t.Sound) (id : FrameId) : t.outward^[id + 1] (some id) = none := by
  have hEnded (count : Nat) : t.outward^[count] none = none := Function.iterate_fixed rfl count
  induction id using Nat.strongRecOn with
  | ind id ih =>
    rw [Function.iterate_succ_apply]
    show t.outward^[id] (t.frame id).parent = none
    cases hParent : (t.frame id).parent with
    | none => exact hEnded id
    | some parent =>
      have hLess := h.parent_lt hParent
      have hSplit : id = (id - (parent + 1)) + (parent + 1) := (Nat.sub_add_cancel hLess).symm
      rw [hSplit, Function.iterate_add_apply, ih parent hLess]
      exact hEnded _

/-- The search through the frames around a place never stops short of the program. -/
theorem Sound.lineage_walks (h : t.Sound) (id : FrameId) : lineage t.frames id =
    id :: match (t.frame id).parent with
      | some parent => lineage t.frames parent
      | none => [] := by
  rw [lineage_eq]
  cases hParent : (t.frame id).parent with
  | none => rfl
  | some parent => simp only [if_pos (h.parent_lt hParent)]

/-- Going outwards one ends at the program. -/
theorem Sound.chain (h : t.Sound) : ∀ id < t.frames.size,
    (lineage t.frames id).IsChain (fun inner outer => (t.frame inner).parent = some outer) ∧
      (lineage t.frames id).getLast? = some 0 := by
  intro id hSize
  induction id using Nat.strongRecOn with
  | ind id ih =>
    rcases Nat.eq_zero_or_pos id with rfl | hPos
    · rw [h.arena.lineage_root]
      exact ⟨.singleton 0, rfl⟩
    · obtain ⟨parent, hLess, hParent, hLineage⟩ := h.arena.lineage_inner hPos hSize
      obtain ⟨hChain, hLast⟩ := ih parent hLess (Nat.lt_trans hLess hSize)
      rw [hLineage]
      rw [lineage_eq] at hChain hLast ⊢
      exact ⟨.cons_cons hParent hChain, hLast⟩

end Tracker

/-! ## Runs -/

/-- What a caller can ask of a tracker, the end of a run included. -/
inductive Call where
  | perform (op : Operation)
  | finish (layers : Layers)

/-- The tracker after the call. -/
def Call.apply (t : Tracker) : Call → Tracker
  | perform op => op.apply t
  | finish layers => (t.finish layers).2

/-- A fresh tracker after the calls. -/
def tracked (table : Predefined.Table) (calls : List Call) : Tracker :=
  calls.foldl Call.apply { predefined := table }

namespace Tracker

variable {t : Tracker}

/-- A call keeps the tracker sound. -/
theorem Sound.call (h : t.Sound) (call : Call) : (call.apply t).Sound ∧ t.Turns (call.apply t) := by
  cases call with
  | perform op => exact sound_operation h op
  | finish layers => exact sound_finish h layers

/-- By induction on the calls. -/
theorem Sound.calls (h : t.Sound) (calls : List Call) :
    (calls.foldl Call.apply t).Sound ∧ t.Turns (calls.foldl Call.apply t) := by
  induction calls generalizing t with
  | nil => exact ⟨h, .refl t⟩
  | cons call rest ih =>
    obtain ⟨hFirst, hTurns⟩ := h.call call
    obtain ⟨hRest, hThen⟩ := ih hFirst
    exact ⟨hRest, hTurns.trans hThen⟩

end Tracker

open Tracker

/-- So does any run. -/
theorem sound_tracked (table : Predefined.Table) (calls : List Call) :
    (tracked table calls).Sound :=
  ((sound_fresh table).calls calls).1

/-- The frames of a tracker, and what becomes of them once they are left. -/
structure FramesFinal (t : Tracker) : Prop where
  /-- The program's frame is at the bottom, and each other active frame lies in the one below it. -/
  bottom : t.active.toList.getLast? = some 0
  stacked : t.active.toList.IsChain fun inner outer => (t.frame inner).parent = some outer
  /-- The program's frame lies in no other and belongs to itself. -/
  program : (t.frame 0).parent = none ∧ (t.frame 0).function = 0
  /-- Every other frame lies in one opened before it, and belongs to the same function unless it is
  a function itself. -/
  placed : ∀ id, 0 < id → id < t.frames.size → ∃ parent < id, (t.frame id).parent = some parent ∧
    (t.frame id).function = if (t.frame id).kind = .function then id else (t.frame parent).function
  /-- Labels bind nothing. -/
  labels : ∀ id, (t.frame id).kind = .label → (t.frame id).bindings.entries = []
  /-- A binding counts as used exactly if lines of reads are noted. -/
  honest : ∀ id, ∀ entry ∈ (t.frame id).bindings.entries, entry.2.used =
    true ↔ entry.2.useLines ≠ []
  /-- A frame that was left holds no variable and no function, unless it is a function. -/
  emptied : ∀ id < t.frames.size, id ∉ t.active.toList → (t.frame id).kind ≠ .function →
    ∀ entry ∈ (t.frame id).bindings.entries, entry.2.kind ≠ .var ∧ entry.2.kind ≠ .function
  /-- A frame that was left never changes again and is never active again. -/
  frozen : ∀ id < t.frames.size, id ∉ t.active.toList → ∀ later : List Call,
    (later.foldl Call.apply t).frame id = t.frame id ∧ id ∉ (later.foldl Call.apply t).active.toList
  /-- Leaving a frame lists unread bindings of it, which stay in it and are never read
  afterwards. -/
  verdict : ∀ layers, (t.exit layers).unused = t.unused ++ (t.judged layers).map listing ∧
    ∀ entry ∈ t.judged layers, ∀ later : List Call,
      (later.foldl Call.apply (t.exit layers)).binding? t.current entry.1 = some entry.2 ∧
        entry.2.used = false
  /-- Every index stands for a frame: of an active frame, the function of a frame, the place of a
  pending use, the frame that declares a name, and the one that a declaration goes to. -/
  inRange : (∀ id ∈ t.active.toList, id < t.frames.size) ∧
    (∀ id < t.frames.size, (t.frame id).function < t.frames.size) ∧
    (∀ name, ∀ r ∈ t.pendingUses name, r.frame < t.frames.size ∧ r.function < t.frames.size) ∧
    (∀ name id, t.lookup name = some id → id < t.frames.size) ∧ t.declarationFrame < t.frames.size
  /-- A walk outwards ends, and the searches go all the way. -/
  walks : ∀ id, t.outward^[id + 1] (some id) = none ∧ lineage t.frames id =
    id :: match (t.frame id).parent with
      | some parent => lineage t.frames parent
      | none => []

/-- After every run the frames are in order, and those that were left are final. -/
theorem frames_final (table : Predefined.Table) (calls : List Call) :
    FramesFinal (tracked table calls) := by
  have h := sound_tracked table calls
  generalize tracked table calls = t at h
  have hBinding {id : FrameId} {entry : String × Binding}
    (hEntry : entry ∈ (t.frame id).bindings.entries) :
      t.binding? id entry.1 = some entry.2 :=
    (OrderedMap.mem_entries_iff _ (h.tidy.distinct id) _ _).mp hEntry
  obtain ⟨hChain, hLast⟩ := h.chain t.current h.arena.current
  refine ⟨h.arena.active ▸ hLast, h.arena.active ▸ hChain, ?_, h.arena.inner, fun id hLabel => ?_,
    fun id entry hEntry => ?_, fun id hSize hLeft hKind entry hEntry => ?_,
    fun id hSize hLeft later => ?_,
    fun layers => ⟨unused_exit t layers, fun entry hEntry later => ?_⟩, ?_,
    fun id => ⟨h.outward_ends id, h.lineage_walks id⟩⟩
  · exact ⟨congrArg (·.2.1) h.arena.root, congrArg (·.2.2) h.arena.root⟩
  · refine List.eq_nil_iff_forall_not_mem.mpr fun entry hEntry => ?_
    exact h.tidy.unlabeled id entry.1 entry.2 (hBinding hEntry) hLabel
  · exact h.tidy.honest id entry.1 entry.2 (hBinding hEntry)
  · have hStays := h.emptied id hSize hLeft hKind entry.1 entry.2 (hBinding hEntry)
    constructor <;> intro hSame <;> rw [hSame] at hStays <;> cases hStays
  · have hTurns := (h.calls later).2
    exact ⟨hTurns.frozen id hSize hLeft, hTurns.left id hSize hLeft⟩
  · obtain ⟨hKept, hUnread, hSize, hLeft⟩ := judged_kept h layers hEntry
    have hTurns := ((sound_exit h layers).calls later).2
    have hFrozen :=
      hTurns.frozen t.current (Nat.lt_of_lt_of_le hSize (turns_exit h layers).size) hLeft
    refine ⟨?_, hUnread⟩
    rw [binding?, hFrozen]
    exact hKept
  · exact ⟨fun id hId => h.arena.lt_size_of_active hId,
      fun id hSize => h.function_lt_size hSize, h.pending,
      fun name id hLookup => h.arena.lt_size_of_active (h.active_of_lookup hLookup),
      h.arena.lt_size_of_active h.arena.declarationFrame_mem⟩

end ScriptLint.Scope
