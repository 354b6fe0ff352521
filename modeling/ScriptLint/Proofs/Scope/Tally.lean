import ScriptLint.Proofs.Isolation.Names
import ScriptLint.Proofs.Scope.Frames

/-!
# What is said about unused bindings

Unused bindings are listed and reported when a frame is left and at the end of a run, and at no
other time.

- `Tracker.tally`: the unused bindings that were listed and those that were reported.
- `Tracker.extras_declare`, `Tracker.extras_moveOut`: declaring and hoisting change frames and
  pending uses only.
- `Closing`, `Closing.verdict`: a frame at the moment when it is left, and what is listed of it.
- `Tracker.tally_exit`: leaving a frame lists and reports the verdict on it.
- `Tracker.tally_finish`: the end of a run lists and reports what remains.
- `Operation.tally_apply`: nothing else lists or reports an unused binding.
- `Tracker.Sound.parameters_exit`: a frame that is left keeps its parameters, in their order.
-/

namespace ScriptLint

/-- Whether an unused binding is reported. -/
def PlacedFinding.isUnused (f : PlacedFinding) : Bool := f.finding.code == "W098"

namespace Scope

open Setting (Layers UnusedPolicy)

/-! ## What is said about unused bindings -/

/-- The report of an unused binding. -/
def UnusedBinding.reported (b : UnusedBinding) : PlacedFinding := ⟨.unused b.name, b.line, b.column⟩

namespace Tracker

variable {t u : Tracker}

/-- The unused bindings that were listed and those that were reported. -/
def tally (t : Tracker) : List UnusedBinding × List PlacedFinding :=
  (t.unused, t.findings.filter (·.isUnused))

/-- What a tracker holds besides frames and pending uses, findings about other things apart. -/
def extras (t : Tracker) :
    (List UnusedBinding × List PlacedFinding) × Predefined.Table × OrderedMap String DirectiveGlobal
    × List String :=
  (t.tally, t.predefined, t.directiveGlobals, t.exported)

/-- A finding that is not about unused names leaves the rest. -/
theorem extras_report (t : Tracker) {f : Finding} {line column : Nat}
    (h : PlacedFinding.isUnused ⟨f, line, column⟩ = false) :
    (t.report f line column).extras = t.extras := by
  simp [extras, tally, report, List.filter_append, h]

/-- By induction on the list: what no step changes stays. -/
theorem foldl_stays {β γ : Type} {g : Tracker → γ} {f : Tracker → β → Tracker} (t : Tracker)
    (l : List β) (h : ∀ (t : Tracker) (b : β), g (f t b) = g t) : g (l.foldl f t) = g t := by
  induction l generalizing t with
  | nil => rfl
  | cons b rest ih => exact (ih _).trans (h t b)

theorem extras_takePending (t : Tracker) (name : String) (id : FrameId) :
    (t.takePending name id).2.extras = t.extras := by
  unfold takePending
  split <;> rfl

/-- So does a claim. -/
theorem extras_claim (t : Tracker) (other : String) (id : FrameId) :
    (t.claim other id).extras = t.extras := by
  unfold Tracker.claim markReads
  exact (foldl_stays (g := extras) _ _ fun _ _ => by rfl).trans (extras_takePending t other id)

/-- So does a new binding. -/
theorem extras_bindNew (t : Tracker) (name : String) (id : FrameId) (kind : BindingKind)
    (line column : Nat) : (t.bindNew name id kind line column).extras = t.extras := by
  -- a claim marks reads, and may report an inner function
  have hClaim (t : Tracker) : (t.claimPending name id kind line column).extras = t.extras := by
    have hReads :
        ((t.takePending name id).2.markReads id name (t.takePending name id).1).extras =
        t.extras := by
      unfold markReads
      exact (foldl_stays (g := extras) _ _ fun _ _ => by rfl).trans (extras_takePending t name id)
    unfold claimPending
    dsimp only
    split
    · exact (extras_report _ rfl).trans hReads
    · exact hReads
  unfold bindNew
  split
  · split
    · exact hClaim _
    · rfl
  · exact hClaim _

/-- So does a declaration. -/
theorem extras_declare (t : Tracker) (name : String) (kind : BindingKind) (line column : Nat)
    (layers : Layers) : (t.declare name kind line column layers).extras = t.extras := by
  have hNew (t : Tracker) (id : FrameId) :
      ((t.reportPredefined name id kind layers.shadowPolicy line
      column).bindNew name id kind line column).extras = t.extras := by
    rw [extras_bindNew]
    unfold reportPredefined
    split
    · exact extras_report t rfl
    · rfl
  -- a redefinition is reported by a code of its own
  have hAgain :
      (t.reportAny (t.redefinition? name layers.shadowPolicy) line column).extras = t.extras := by
    cases hf : t.redefinition? name layers.shadowPolicy with
    | none => rfl
    | some f =>
      refine extras_report t (beq_false_of_ne fun hCode => ?_)
      have hGoverned := governs_of_redefinition? hf
      rw [show f.code = "W098" from hCode] at hGoverned
      cases hGoverned
  unfold declare
  dsimp only
  split
  · split
    · exact extras_report t rfl
    · exact hNew t _
  · rw [hNew]
    cases kind <;> first | exact hAgain | rfl

/-- So does a binding that is moved out. -/
theorem extras_moveOut (t : Tracker) (id function : FrameId) (funcscope : Bool)
    (entry : String × Binding) : (t.moveOut id function funcscope entry).extras = t.extras := by
  unfold moveOut hoist
  dsimp only
  refine (foldl_stays (g := extras) _ _ fun t r => ?_).trans ((extras_takePending ..).trans ?_)
  · have hRead :
      (if r.isWrite then t else t.markUsed function entry.1 r.line).extras = t.extras := by
      split <;> rfl
    split
    · exact (extras_report _ rfl).trans hRead
    · exact hRead
  · split <;> rfl

theorem tally_reportOutOfScope (t : Tracker) (id : FrameId) (name : String) (line column : Nat)
    (layers : Layers) : (t.reportOutOfScope id name line column layers).tally = t.tally := by
  unfold reportOutOfScope
  split
  · exact congrArg Prod.fst (extras_report t rfl)
  · rfl

/-- A read lists nothing. -/
theorem tally_reference (t : Tracker) (name : String) (line column : Nat) (layers : Layers) :
    (t.reference name line column layers).tally = t.tally := by
  unfold reference
  split
  · exact tally_reportOutOfScope ..
  · split
    · rfl
    · split <;> rfl

theorem tally_referenceGuarded (t : Tracker) (name : String) (line : Nat) :
    (t.referenceGuarded name line).tally = t.tally := by
  unfold referenceGuarded
  split
  · rfl
  · split <;> rfl

/-- Nor does a write. -/
theorem tally_assign (t : Tracker) (name : String) (line column : Nat) (layers : Layers) :
    (t.assign name line column layers).tally = t.tally := by
  unfold assign
  split
  · refine (tally_reportOutOfScope ..).trans ?_
    split
    · next finding hFinding =>
      obtain ⟨b, -, hb⟩ := Option.bind_eq_some_iff.mp hFinding
      refine congrArg Prod.fst (extras_report t ?_)
      unfold assignFinding? at hb
      split at hb <;> cases hb <;> rfl
    · rfl
  · split
    · rfl
    · split
      · dsimp only
        split
        · rfl
        · exact congrArg Prod.fst (extras_report _ rfl)
      · rfl

/-- What is unused is listed, and reported unless the policy is off. -/
theorem tally_addUnused (t : Tracker) (policy : UnusedPolicy) (b : UnusedBinding) :
    (t.addUnused policy b).tally =
      (t.tally.1 ++ [b], t.tally.2 ++ if policy = .off then [] else [b.reported]) := by
  have hReported : (t.findings ++ [b.reported]).filter (·.isUnused) =
      t.findings.filter (·.isUnused) ++ [b.reported] := List.filter_append ..
  unfold addUnused
  by_cases hOff : policy = .off
  · simp [hOff, tally]
  · rw [if_neg hOff, if_neg hOff]
    exact Prod.ext rfl hReported

/-- By induction on the bindings that are listed. -/
theorem tally_foldl_addUnused (t : Tracker) (policy : UnusedPolicy) (bs : List UnusedBinding) :
    (bs.foldl (·.addUnused policy ·) t).tally =
      (t.tally.1 ++ bs, t.tally.2 ++ if policy =
        .off then [] else bs.map UnusedBinding.reported) := by
  induction bs generalizing t with
  | nil => simp
  | cons b rest ih =>
    rw [List.foldl_cons, ih, tally_addUnused]
    split <;> simp

/-- A frame is judged name by name. -/
theorem evaluateUnused_eq (t : Tracker) (id : FrameId) (policy : UnusedPolicy)
    (lexicalOnly : Bool) : t.evaluateUnused id policy lexicalOnly =
      ((unreadBindings (t.frame id) t.exported policy lexicalOnly).map listing).foldl
        (·.addUnused policy ·) t := by
  rw [List.foldl_map]
  rfl

/-- What it leaves unread is listed and reported in order. -/
theorem tally_evaluateUnused (t : Tracker) (id : FrameId) (policy : UnusedPolicy)
    (lexicalOnly : Bool) :
    let listed := (unreadBindings (t.frame id) t.exported policy lexicalOnly).map listing
    (t.evaluateUnused id policy lexicalOnly).tally =
      (t.tally.1 ++ listed, t.tally.2 ++ if policy =
        .off then [] else listed.map UnusedBinding.reported) := by
  intro listed
  rw [evaluateUnused_eq, tally_foldl_addUnused]

/-- The globals of directives that nobody read, as they are listed. -/
def unreadGlobals (t : Tracker) : List UnusedBinding :=
  (t.directiveGlobals.entries.filter fun (name, g) => !g.used && !t.exported.contains name).map
    fun (name, g) => ⟨name, g.line, g.column, .global⟩

/-- So are the directives that were not used. -/
theorem tally_evaluateGlobals (t : Tracker) (policy : UnusedPolicy) :
    (t.evaluateGlobals policy).tally = (t.tally.1 ++ t.unreadGlobals,
      t.tally.2 ++ if policy = .off then [] else t.unreadGlobals.map UnusedBinding.reported) := by
  rw [← tally_foldl_addUnused, unreadGlobals, List.foldl_map]
  rfl

/-- What is listed at the end of a run, once every frame is left. -/
def lastListed (t : Tracker) (policy : UnusedPolicy) : List UnusedBinding :=
  (unreadBindings (t.frame 0) t.exported policy false).map listing ++ t.unreadGlobals

theorem tally_reportUndefined (t : Tracker) (entry : String × List Pending) :
    (t.reportUndefined entry).tally = t.tally := by
  have hNone : ((entry.2.filter (·.undef)).map fun r =>
      (⟨.notDefined entry.1, r.line, r.column⟩ : PlacedFinding)).filter (·.isUnused) = [] := by
    rw [List.filter_eq_nil_iff]
    intro f hf
    obtain ⟨r, -, rfl⟩ := List.mem_map.mp hf
    exact Bool.false_ne_true
  unfold tally reportUndefined reportAt
  dsimp only
  rw [List.map_map, List.filter_append]
  exact Prod.ext rfl ((congrArg (_ ++ ·) hNone).trans (List.append_nil _))

/-- The end of a run, once every frame is left, lists what remains and reports it unless the check
is off. -/
theorem tally_finish (t : Tracker) (layers : Layers) :
    let left := t.exitMany layers t.active.below.length
    let listed := left.lastListed layers.unusedPolicy
    ((t.finish layers).1.unused, (t.finish layers).2.findings.filter (·.isUnused)) =
    (left.tally.1 ++ listed,
      left.tally.2 ++ if layers.unusedPolicy = .off then
      [] else listed.map UnusedBinding.reported) := by
  intro left listed
  have hGlobals (bs : List UnusedBinding) (t : Tracker) :
      (bs.foldl (·.addUnused layers.unusedPolicy ·) t).unreadGlobals = t.unreadGlobals := by
    induction bs generalizing t with
    | nil => rfl
    | cons b rest ih =>
      refine (ih _).trans ?_
      unfold addUnused
      dsimp only
      split <;> rfl
  have hListed :
      ((left.evaluateUnused 0 layers.unusedPolicy false).evaluateGlobals
      layers.unusedPolicy).tally =
      (listed.foldl (·.addUnused layers.unusedPolicy ·) left).tally := by
    simp only [listed, lastListed]
    rw [tally_evaluateGlobals, evaluateUnused_eq, hGlobals, List.foldl_append,
      tally_foldl_addUnused _ _ left.unreadGlobals]
  rw [← tally_foldl_addUnused, ← hListed]
  exact foldl_stays (g := tally) _ _ tally_reportUndefined

/-- Listing and reporting leave the frames as they are. -/
theorem frames_finish (t : Tracker) (layers : Layers) :
    (t.finish layers).2.frames = (t.exitMany layers t.active.below.length).frames := by
  refine (sameArena_foldl_reportUndefined _ _).1.trans ?_
  rw [(reports_evaluateGlobals _ layers.unusedPolicy).frames,
    (reports_evaluateUnused _ 0 _ false).frames]

end Tracker

/-! ## Frames that are left -/

/-- A frame at the moment when it is left. -/
structure Closing where
  id : FrameId
  frame : Frame
  exported : List String
  lexicalOnly : Bool

/-- The bindings of the frame that a policy lists. -/
def Closing.verdict (policy : UnusedPolicy) (c : Closing) : List UnusedBinding :=
  (unreadBindings c.frame c.exported policy c.lexicalOnly).map Tracker.listing

namespace Tracker

variable {t : Tracker}

/-- The frame that would be left next, as it is now. -/
def closing? (t : Tracker) : Option Closing :=
  t.leaving?.map fun id => ⟨id, t.frame id, t.exported, (t.frame id).kind ≠ .function⟩

/-- Leaving a frame lists the verdict on it, and reports it unless the check is off. -/
theorem tally_exit (t : Tracker) (layers : Layers) :
    let listed := t.closing?.toList.flatMap (·.verdict layers.unusedPolicy)
    (t.exit layers).tally = (t.tally.1 ++ listed,
      t.tally.2 ++ if layers.unusedPolicy = .off then
      [] else listed.map UnusedBinding.reported) := by
  intro listed
  unfold exit
  -- the program's frame is not left before the end
  cases hLeaving : t.leaving? with
  | none =>
    have hNone : listed = [] := by simp only [listed, closing?, hLeaving]; rfl
    simp [hNone]
  | some id =>
    have hListed : listed = (unreadBindings (t.frame id) t.exported layers.unusedPolicy
        ((t.frame id).kind ≠ .function)).map listing := by
      simp only [listed, closing?, hLeaving]
      exact List.append_nil _
    have hLeft (lexicalOnly : Bool) := tally_evaluateUnused { t with active := t.active.pop } id
      layers.unusedPolicy lexicalOnly
    dsimp only
    -- a function lists all, a block what does not move out of it
    by_cases hKind : (t.frame id).kind = .function
    · have hOnly : decide ((t.frame id).kind ≠ .function) = false := by simp [hKind]
      rw [if_pos hKind, hListed, hOnly]
      exact hLeft false
    · have hOnly : decide ((t.frame id).kind ≠ .function) = true := by simp [hKind]
      rw [if_neg hKind, hListed, hOnly]
      refine .trans (foldl_stays (g := tally) _ _ fun t entry => ?_) (hLeft true)
      exact congrArg Prod.fst (extras_moveOut t ..)

/-- Moving a binding out of a frame takes its entry away and leaves the others as they are. -/
theorem entries_moveOut (t : Tracker) {id function : FrameId} (hApart : id ≠ function)
    (funcscope : Bool)
    (entry : String × Binding) :
    ((t.moveOut id function funcscope entry).frame id).bindings.entries =
      (t.frame id).bindings.entries.filter (·.1 ≠ entry.1) := by
  obtain ⟨name, b⟩ := entry
  have hUnbound : ((t.unbind id name).frame id).bindings.entries =
      (t.frame id).bindings.entries.filter (·.1 ≠ name) := by
    rw [unbind, frame_modifyFrame]
    split
    · rfl
    · next hSize =>
      have hNone : (t.frame id).bindings.entries = [] := by
        rw [frame_of_size_le (Nat.le_of_not_lt fun hLess => hSize ⟨rfl, hLess⟩)]
        rfl
      rw [hNone]
      rfl
  have hReceived : ((t.unbind id name).receive function name b).frame id =
      (t.unbind id name).frame id := by
    unfold receive
    split
    · exact (frame_modifyFrame ..).trans (if_neg fun h => hApart h.1)
    · exact (frame_modifyFrame ..).trans (if_neg fun h => hApart h.1)
  have hClaim : Edits ((t.unbind id name).receive function name b)
      (((t.unbind id name).receive function name b).claim name function) [function] :=
    .claim _ List.mem_cons_self name
  rw [(reports_moveOut t id function funcscope name b).frame,
    hClaim.others id (by simpa using hApart), hReceived, hUnbound]

/-- By induction on the bindings that move: those of other names stay, in their order. -/
theorem entries_foldl_moveOut (t : Tracker) {id function : FrameId} (hApart : id ≠ function)
    (funcscope : Bool) (moved : List (String × Binding)) :
    ((moved.foldl (fun t entry => t.moveOut id function funcscope entry) t).frame
    id).bindings.entries =
      (t.frame id).bindings.entries.filter (·.1 ∉ moved.map Prod.fst) := by
  induction moved generalizing t with
  | nil => exact (List.filter_eq_self.mpr fun _ _ => by simp).symm
  | cons entry rest ih =>
    rw [List.foldl_cons, ih, entries_moveOut t hApart, List.filter_filter]
    refine List.filter_congr fun other _ => ?_
    by_cases hSame : other.1 = entry.1 <;> simp [hSame]

/-- A frame that is left keeps its parameters, in their order. -/
theorem Sound.parameters_exit (h : t.Sound) (layers : Layers) :
    parameters ((t.exit layers).frame t.current) = parameters (t.frame t.current) := by
  obtain ⟨u, hReports, hExit⟩ := exit_eq t layers
  rw [hExit]
  -- a block that hoists nothing keeps all that it binds
  by_cases hNone : t.hoisting = []
  · rw [hNone]
    exact congrArg parameters (hReports.frame t.current)
  · obtain ⟨hInner, hKind⟩ := inner_of_hoisting hNone
    have hApart := (h.arena.function_mem_below hInner hKind).2
    have hFrame : u.frame t.current = t.frame t.current := hReports.frame t.current
    unfold parameters
    rw [entries_foldl_moveOut u hApart.symm, hFrame, List.filter_filter]
    refine List.filter_congr fun entry hEntry => ?_
    -- a name has one entry, so what moves under the name of a parameter would be a parameter
    have hStays : entry.2.kind = .param → entry.1 ∉ t.hoisting.map Prod.fst := by
      intro hParameter hMoved
      obtain ⟨other, hOther, hName⟩ := List.mem_map.mp hMoved
      unfold hoisting at hOther
      split at hOther
      · cases hOther
      · obtain ⟨hMem, hHoists⟩ := List.mem_filter.mp hOther
        have hDistinct := h.tidy.distinct t.current
        have hValue := (OrderedMap.mem_entries_iff _ hDistinct entry.1 entry.2).mp hEntry
        have hOtherValue := (OrderedMap.mem_entries_iff _ hDistinct other.1 other.2).mp hMem
        rw [hName, hValue] at hOtherValue
        rw [← Option.some.inj hOtherValue, hParameter] at hHoists
        cases hHoists
    by_cases hParameter : entry.2.kind = .param
    · simp [hParameter, hStays hParameter]
    · simp [hParameter]

end Tracker

open Tracker

/-- An operation that leaves no frame and takes no findings lists and reports nothing. -/
theorem Operation.tally_apply (op : Operation) (t : Tracker) (hExit : ∀ layers, op ≠ .exit layers)
    (hTake : op ≠ .takeFindings) : (op.apply t).tally = t.tally := by
  cases op with
  | exit layers => exact absurd rfl (hExit layers)
  | takeFindings => exact absurd rfl hTake
  | declare name kind line column layers => exact congrArg Prod.fst (extras_declare t ..)
  | reference name line column layers => exact tally_reference ..
  | referenceGuarded name line => exact tally_referenceGuarded ..
  | assign name line column layers => exact tally_assign ..
  | _ => rfl

end Scope

end ScriptLint
