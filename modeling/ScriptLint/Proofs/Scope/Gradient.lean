import Mathlib.Data.List.DropRight
import Mathlib.Data.List.Flatten
import Mathlib.Data.List.Perm.Subperm
import ScriptLint.Proofs.Scope.Tally

/-!
# The degrees of the check for unused bindings

The setting `unused` has four degrees. They differ in the parameters that are listed and in whether
anything is reported; what else a run does is the same for all of them.

- `Course`: a run with what it delivered and the frames that it left, as they were then.
- `Course.Kept`: the list of a run holds the verdicts on those frames, and what is reported is the
  list.
- `Course.Placed`: each frame was left once, and its parameters stayed as they were.
- `Gradient`, `Graded`: settings and operations for each degree that differ in nothing else.
- `Course.Parallel`: the same run at two degrees.
- `unused_gradient`: what is listed and reported at each degree.
-/

namespace ScriptLint.Scope

open Setting (Layers UnusedPolicy)
open Tracker

/-! ## Runs -/

/-- A run so far: the tracker, what it delivered, time by time, and the frames that were left. -/
structure Course where
  tracker : Tracker
  delivered : List (List PlacedFinding) := []
  closings : List Closing := []

namespace Course

variable {c : Course} {op : Operation} {policy : UnusedPolicy}

/-- A run goes on. -/
def perform (c : Course) (op : Operation) : Course where
  tracker := op.apply c.tracker
  delivered := match op with
    | .takeFindings => c.delivered ++ [c.tracker.findings]
    | _ => c.delivered
  closings := match op with
    | .exit _ => c.closings ++ c.tracker.closing?.toList
    | _ => c.closings

/-! ### What is listed and reported -/

end Course

/-- Whether the operation lists unused bindings, if it does so at all, by the policy. -/
def Operation.listsBy (policy : UnusedPolicy) : Operation → Prop
  | exit layers => layers.unusedPolicy = policy
  | _ => True

namespace Course

variable {c c' : Course} {op : Operation} {policy : UnusedPolicy}

/-- The list holds the verdicts on the frames that were left, and what was reported is the list. -/
structure Kept (policy : UnusedPolicy) (c : Course) : Prop where
  listed : c.tracker.unused = c.closings.flatMap (·.verdict policy)
  reported : (c.delivered.flatten ++ c.tracker.findings).filter (·.isUnused) =
    if policy = .off then [] else c.tracker.unused.map UnusedBinding.reported

/-- What was listed and reported stays so. -/
theorem Kept.perform (h : c.Kept policy) (hOp : op.listsBy policy) :
    (c.perform op).Kept policy := by
  have hTold := h.reported
  rw [List.filter_append] at hTold
  -- leaving a frame lists; taking the findings delivers; all else does neither
  by_cases hExit : ∃ layers, op = .exit layers
  · obtain ⟨layers, rfl⟩ := hExit
    obtain rfl : layers.unusedPolicy = policy := hOp
    obtain ⟨hUnused, hFindings⟩ := Prod.mk.inj (c.tracker.tally_exit layers)
    constructor
    · show (c.tracker.exit layers).unused = (c.closings ++ c.tracker.closing?.toList).flatMap _
      rw [hUnused, List.flatMap_append, ← h.listed]
      rfl
    · show (c.delivered.flatten ++ (c.tracker.exit layers).findings).filter _ =
        if _ then [] else (c.tracker.exit layers).unused.map _
      rw [List.filter_append, hFindings, hUnused]
      show _ ++ (c.tracker.findings.filter _ ++ _) = _
      rw [← List.append_assoc, hTold]
      split
      · rfl
      · exact List.map_append.symm
  by_cases hTake : op = .takeFindings
  · subst hTake
    refine ⟨h.listed, ?_⟩
    show ((c.delivered ++ [c.tracker.findings]).flatten ++ []).filter _ = if _ then
      [] else c.tracker.unused.map _
    rw [List.append_nil, List.flatten_append, List.flatten_singleton]
    exact h.reported
  · obtain ⟨hUnused, hFindings⟩ := Prod.mk.inj
      (op.tally_apply c.tracker (fun layers hSame => hExit ⟨layers, hSame⟩) hTake)
    have hSame : c.perform op = { c with tracker := op.apply c.tracker } := by
      cases op <;> first | rfl | exact absurd ⟨_, rfl⟩ hExit | exact absurd rfl hTake
    rw [hSame]
    refine ⟨hUnused.trans h.listed, ?_⟩
    dsimp only
    rw [List.filter_append, hFindings, hUnused]
    exact hTold

/-- By induction on the operations. -/
theorem Kept.foldl (h : c.Kept policy) {operations : List Operation}
    (hOps : ∀ op ∈ operations, op.listsBy policy) :
    (operations.foldl Course.perform c).Kept policy := by
  induction operations generalizing c with
  | nil => exact h
  | cons op rest ih =>
    obtain ⟨hFirst, hRest⟩ := List.forall_mem_cons.mp hOps
    exact ih (h.perform hFirst) hRest

/-! ### Which frames were left -/

/-- Each frame that was left was left once, and has the parameters that it had then. -/
structure Placed (c : Course) : Prop where
  sound : c.tracker.Sound
  once : (c.closings.map Closing.id).Nodup
  left :
    ∀ id, id ∈ c.closings.map Closing.id ↔ id < c.tracker.frames.size ∧ id ∉ c.tracker.active.toList
  kept : ∀ closing ∈ c.closings, parameters closing.frame = parameters (c.tracker.frame closing.id)

/-- What was left before stays as it was then. -/
theorem Placed.kept_perform (h : c.Placed) (op : Operation) : ∀ closing ∈ c.closings,
    parameters closing.frame = parameters ((op.apply c.tracker).frame closing.id) := by
  intro closing hClosing
  obtain ⟨hSize, hLeft⟩ := (h.left closing.id).mp (List.mem_map_of_mem hClosing)
  rw [(sound_operation h.sound op).2.frozen closing.id hSize hLeft]
  exact h.kept closing hClosing

/-- Leaving a frame puts it among the closings. -/
theorem Placed.exit (h : c.Placed) (layers : Layers) : (c.perform (.exit layers)).Placed := by
  have hSound := (sound_operation h.sound (.exit layers)).1
  have hKept := h.kept_perform (.exit layers)
  -- at the program's frame nothing is left
  by_cases hBottom : c.tracker.active.isBottom
  · have hClosings : c.closings ++ c.tracker.closing?.toList = c.closings := by
      rw [closing?, show c.tracker.leaving? = none from if_pos hBottom]
      exact List.append_nil _
    unfold perform Operation.apply
    dsimp only
    rw [exit_of_isBottom hBottom, hClosings]
    exact ⟨h.sound, h.once, h.left, h.kept⟩
  have hSome : c.tracker.closing? = some ⟨c.tracker.current, c.tracker.frame c.tracker.current,
      c.tracker.exported, (c.tracker.frame c.tracker.current).kind ≠ .function⟩ := by
    rw [closing?, show c.tracker.leaving? = some c.tracker.current from if_neg hBottom]
    rfl
  have hInner : c.tracker.active.below ≠ [] := fun hNone => hBottom (List.isEmpty_iff.mpr hNone)
  obtain ⟨parent, hLess, -, hBelow, -, hPop⟩ := h.sound.arena.below_eq hInner
  have hApart : c.tracker.current ∉ c.tracker.active.below := by
    rw [hBelow]
    exact fun hMem => absurd (le_of_mem_lineage hMem) (Nat.not_le.mpr hLess)
  have hActive : (c.tracker.exit layers).active.toList = c.tracker.active.below := by
    rw [active_exit, hPop]
  have hSize : (c.tracker.exit layers).frames.size = c.tracker.frames.size :=
    (edits_exit h.sound layers).size
  have hOpen : c.tracker.active.toList = c.tracker.current :: c.tracker.active.below := rfl
  unfold perform Operation.apply
  dsimp only
  rw [hSome]
  refine ⟨hSound, ?_, fun id => ?_, ?_⟩
  · rw [List.map_append, List.nodup_append]
    refine ⟨h.once, by simp, fun id hId id' hId' => ?_⟩
    obtain rfl : id' = c.tracker.current := List.mem_singleton.mp hId'
    rintro rfl
    exact ((h.left _).mp hId).2 List.mem_cons_self
  · rw [List.map_append, List.mem_append, h.left, hActive, hSize, hOpen, List.mem_cons]
    show _ ∨ id ∈ [c.tracker.current] ↔ _
    rw [List.mem_singleton]
    constructor
    -- the frame that is left now was not left before
    · rintro (⟨hSize, hLeft⟩ | rfl)
      · exact ⟨hSize, fun hMem => hLeft (.inr hMem)⟩
      · exact ⟨h.sound.arena.current, hApart⟩
    · rintro ⟨hSize, hLeft⟩
      by_cases hHere : id = c.tracker.current
      · exact .inr hHere
      · exact .inl ⟨hSize, fun hMem => hMem.elim hHere hLeft⟩
  · intro closing hClosing
    rcases List.mem_append.mp hClosing with hOld | hNew
    · exact hKept closing hOld
    · obtain rfl := List.mem_singleton.mp hNew
      exact (h.sound.parameters_exit layers).symm

/-- After any operation the closings are the frames that were left. -/
theorem Placed.perform (h : c.Placed) (op : Operation) : (c.perform op).Placed := by
  have hSound := (sound_operation h.sound op).1
  have hKept := h.kept_perform op
  -- nothing is left where the frames stay in their places
  have hStays (hEnter : ∀ kind, op ≠ .enter kind) (hExit : ∀ layers, op ≠ .exit layers)
      (hPerform : (c.perform op).closings = c.closings) : (c.perform op).Placed := by
    have hSame := (edits_operation h.sound op hEnter hExit).toSameArena
    refine ⟨hSound, hPerform ▸ h.once, fun id => ?_, hPerform ▸ hKept⟩
    show _ ↔ id < (op.apply c.tracker).frames.size ∧ id ∉ (op.apply c.tracker).active.toList
    rw [hPerform, h.left, hSame.size, hSame.active]
  -- a new frame is not among the closings
  cases op with
  | exit layers => exact h.exit layers
  | enter kind =>
    refine ⟨hSound, h.once, fun id => ?_, hKept⟩
    have hSize : (c.tracker.enter kind).frames.size = c.tracker.frames.size + 1 := Array.size_push _
    have hActive :
        (c.tracker.enter kind).active.toList = c.tracker.frames.size :: c.tracker.active.toList :=
        rfl
    show id ∈ c.closings.map Closing.id ↔
      id < (c.tracker.enter kind).frames.size ∧ id ∉ (c.tracker.enter kind).active.toList
    rw [h.left, hSize, hActive, List.mem_cons, not_or]
    constructor
    · rintro ⟨hLess, hLeft⟩
      exact ⟨Nat.lt_succ_of_lt hLess, Nat.ne_of_lt hLess, hLeft⟩
    · rintro ⟨hLess, hNew, hLeft⟩
      exact ⟨Nat.lt_of_le_of_ne (Nat.le_of_lt_succ hLess) hNew, hLeft⟩
  | _ => exact hStays nofun nofun rfl

/-- By induction on the operations. -/
theorem Placed.foldl (h : c.Placed) (operations : List Operation) :
    (operations.foldl Course.perform c).Placed := by
  induction operations generalizing c with
  | nil => exact h
  | cons op rest ih => exact ih (h.perform op)

end Course

/-! ## The same run at each degree -/

/-- Settings for each degree of the check that differ in nothing else. -/
structure Gradient where
  layers : UnusedPolicy → Layers
  policy : ∀ policy, (layers policy).unusedPolicy = policy
  agree : ∀ policy policy', Layers.Agree Setting.unused.affects (layers policy) (layers policy')

/-- The value of `unused` that asks for a policy. -/
def unusedValue : UnusedPolicy → Setting.Value
  | .off => .flag false
  | .lastParam => .flag true
  | .vars => .level "vars"
  | .strict => .level "strict"

/-- Settings in which `unused` takes each of its values. -/
def Gradient.over (layers : Layers) : Gradient where
  layers policy := layers.write .unused (unusedValue policy) true
  policy policy := by
    have hValue :
        (layers.write .unused (unusedValue policy) true).resolve .unused = unusedValue policy := by
      unfold Layers.resolve Stack.toList
      rw [List.findSome?_cons, Layers.get?_top_write, if_pos rfl]
    unfold Layers.unusedPolicy
    rw [hValue]
    cases policy <;> rfl
  agree policy policy' := by
    have hSelf : Layers.Agree Setting.unused.affects layers layers :=
      ⟨fun _ _ => rfl, List.forall₂_same.mpr fun _ _ _ _ => rfl⟩
    have hWritten (policy : UnusedPolicy) := hSelf.write_hidden (.inl rfl) (unusedValue policy) true
    exact ((hWritten policy).symm.write_hidden (.inl rfl) (unusedValue policy') true)

/-- The settings that the operation reads. -/
def Operation.settings? : Operation → Option Layers
  | exit layers | declare _ _ _ _ layers | reference _ _ _ layers | assign _ _ _ layers =>
    some layers
  | _ => none

/-- The same operation at each degree of the check. -/
inductive Graded : (UnusedPolicy → Operation) → Prop
  | exit (g : Gradient) : Graded fun policy => .exit (g.layers policy)
  | declare (name : String) (kind : BindingKind) (line column : Nat) (g : Gradient) :
    Graded fun policy => .declare name kind line column (g.layers policy)
  | reference (name : String) (line column : Nat) (g : Gradient) :
    Graded fun policy => .reference name line column (g.layers policy)
  | assign (name : String) (line column : Nat) (g : Gradient) :
    Graded fun policy => .assign name line column (g.layers policy)
  | plain (op : Operation) (h : op.settings? = none) : Graded fun _ => op

variable {family : UnusedPolicy → Operation} {families : List (UnusedPolicy → Operation)}

/-- A graded operation lists by its policy. -/
theorem Graded.listsBy (h : Graded family) (policy : UnusedPolicy) :
    (family policy).listsBy policy := by
  cases h with
  | exit g => exact g.policy policy
  | plain op hPlain =>
    cases op with
    | exit layers => cases hPlain
    | _ => trivial
  | _ => trivial

/-- At two policies it does the same but for the unused. -/
theorem Graded.alike (h : Graded family) {t t' : Tracker} (hAlike : Alike .unused t t')
    (policy policy' : UnusedPolicy) :
    Alike .unused ((family policy).apply t) ((family policy').apply t') := by
  -- each operation is alike at the two settings that agree outside `unused`
  cases h with
  | exit g => exact hAlike.exit (g.agree policy policy')
  | declare name kind line column g =>
    exact hAlike.declare (g.agree policy policy') name kind line column
  | reference name line column g => exact hAlike.reference (g.agree policy policy') name line column
  | assign name line column g => exact hAlike.assign (g.agree policy policy') name line column
  | plain op hPlain =>
    cases op with
    | enter kind => exact hAlike.map (f := (Tracker.enter · kind)) fun _ => rfl
    | referenceGuarded name line => exact hAlike.referenceGuarded name line
    | declareGlobal name writable line column =>
      exact hAlike.declareGlobal name writable line column
    | editPredefined edit =>
      exact hAlike.map (f := fun t => { t with predefined := edit t.predefined }) fun _ => rfl
    | exportName name => exact hAlike.map (f := (Tracker.exportName · name)) fun _ => rfl
    | addLabel label => exact hAlike.map (f := (Tracker.addLabel · label)) fun _ => rfl
    | takeFindings => exact hAlike.map (f := fun t => { t with findings := [] }) fun _ => rfl
    | _ => cases hPlain

/-- The other findings are those that the setting does not govern. -/
theorem others_of_alike {t t' : Tracker} (h : Alike .unused t t') :
    t'.findings.filter (!·.isUnused) = t.findings.filter (!·.isUnused) := by
  have hSpares (f : PlacedFinding) : Setting.unused.spares f.finding.code = !f.isUnused := by
    show (!(["W098"].contains f.finding.code)) = !(f.finding.code == "W098")
    rw [List.contains_cons, List.contains_nil, Bool.or_false]
  simpa only [hSpares] using h.findings

namespace Course

variable {c c' : Course}

/-- The same run at two degrees. -/
structure Parallel (c c' : Course) : Prop where
  alike : Alike .unused c.tracker c'.tracker
  delivered : c'.delivered.map (·.filter (!·.isUnused)) = c.delivered.map (·.filter (!·.isUnused))
  closings : c'.closings = c.closings

/-- Two parallel runs go on in parallel. -/
theorem Parallel.perform (h : c.Parallel c') (hGraded : Graded family)
    (policy policy' : UnusedPolicy) :
    (c.perform (family policy)).Parallel (c'.perform (family policy')) := by
  refine ⟨hGraded.alike h.alike policy policy', ?_, ?_⟩
  · cases hGraded with
    | plain op hPlain =>
      cases op with
      | takeFindings =>
        show (c'.delivered ++ [c'.tracker.findings]).map _ =
          (c.delivered ++ [c.tracker.findings]).map _
        rw [List.map_append, List.map_append, h.delivered]
        exact congrArg (fun others => _ ++ [others]) (others_of_alike h.alike)
      | _ => exact h.delivered
    | _ => exact h.delivered
  · cases hGraded with
    | exit g =>
      have hClosing : c'.tracker.closing? = c.tracker.closing? := h.alike.same fun _ => rfl
      show c'.closings ++ c'.tracker.closing?.toList = c.closings ++ c.tracker.closing?.toList
      rw [h.closings, hClosing]
    | plain op hPlain =>
      cases op with
      | exit layers => cases hPlain
      | _ => exact h.closings
    | _ => exact h.closings

/-- By induction on the operations. -/
theorem Parallel.foldl (h : c.Parallel c') (hGraded : ∀ family ∈ families, Graded family)
    (policy policy' : UnusedPolicy) : ((families.map (· policy)).foldl Course.perform c).Parallel
      ((families.map (· policy')).foldl Course.perform c') := by
  induction families generalizing c c' with
  | nil => exact h
  | cons family rest ih =>
    obtain ⟨hFirst, hRest⟩ := List.forall_mem_cons.mp hGraded
    exact ih (h.perform hFirst policy policy') hRest

/-! ### The end of a run -/

/-- The run with every frame left but the program's. -/
def leaveAll (c : Course) (layers : Layers) : Course :=
  (List.replicate c.tracker.active.below.length (.exit layers)).foldl perform c

/-- By induction on the frames left. -/
theorem foldl_exit (c : Course) (layers : Layers) (count : Nat) :
    ((List.replicate count (.exit layers)).foldl perform c).tracker =
    c.tracker.exitMany layers count ∧
      ((List.replicate count (.exit layers)).foldl perform c).delivered = c.delivered := by
  induction count generalizing c with
  | zero => exact ⟨rfl, rfl⟩
  | succ count ih => exact ih (c.perform (.exit layers))

/-- By induction on the frames around the current one. -/
theorem below_exitMany (t : Tracker) (layers : Layers) :
    (t.exitMany layers t.active.below.length).active.below = [] := by
  induction hCount : t.active.below.length generalizing t with
  | zero => exact List.length_eq_zero_iff.mp hCount
  | succ count ih =>
    refine ih (t.exit layers) ?_
    rw [active_exit, Stack.pop]
    cases hBelow : t.active.below with
    | nil =>
      rw [hBelow] at hCount
      cases hCount
    | cons next rest =>
      rw [hBelow] at hCount
      exact Nat.succ.inj hCount

/-- At the end only the program is in use. -/
theorem below_leaveAll (c : Course) (layers : Layers) :
    (c.leaveAll layers).tracker.active.below = [] := by
  rw [show (c.leaveAll layers).tracker = _ from (c.foldl_exit layers _).1]
  exact below_exitMany c.tracker layers

/-- The end lists as its policy says. -/
theorem Kept.leaveAll {layers : Layers} {policy : UnusedPolicy} (h : c.Kept policy)
    (hPolicy : layers.unusedPolicy = policy) : (c.leaveAll layers).Kept policy := by
  refine h.foldl fun op hOp => ?_
  rw [List.eq_of_mem_replicate hOp]
  exact hPolicy

theorem Placed.leaveAll (h : c.Placed) (layers : Layers) : (c.leaveAll layers).Placed := h.foldl _

theorem Parallel.leaveAll (h : c.Parallel c') (g : Gradient) (policy policy' : UnusedPolicy) :
    (c.leaveAll (g.layers policy)).Parallel (c'.leaveAll (g.layers policy')) := by
  have hActive : c'.tracker.active = c.tracker.active := h.alike.same fun _ => rfl
  have hExits (policy : UnusedPolicy) (count : Nat) :
      List.replicate count (Operation.exit (g.layers policy)) =
      (List.replicate count fun policy => Operation.exit (g.layers policy)).map (· policy) := by
    rw [List.map_replicate]
  unfold Course.leaveAll
  rw [hActive, hExits, hExits]
  refine h.foldl (fun family hFamily => ?_) policy policy'
  rw [List.eq_of_mem_replicate hFamily]
  exact .exit g

/-- The program's frame, which is never left, at the end of the run. -/
def program (c : Course) : Closing := ⟨0, c.tracker.frame 0, c.tracker.exported, false⟩

/-- What a run lists that ends here. -/
def verdicts (c : Course) (policy : UnusedPolicy) : List UnusedBinding :=
  (c.closings ++ [c.program]).flatMap (·.verdict policy) ++ c.tracker.unreadGlobals

/-- Two parallel runs have the same verdicts. -/
theorem Parallel.verdicts (h : c.Parallel c') (policy : UnusedPolicy) :
    c'.verdicts policy = c.verdicts policy := by
  have hProgram : c'.program = c.program := by
    unfold program
    rw [h.alike.frame, h.alike.same (f := Tracker.exported) fun _ => rfl]
  have hGlobals : c'.tracker.unreadGlobals = c.tracker.unreadGlobals := h.alike.same fun _ => rfl
  rw [Course.verdicts, Course.verdicts, h.closings, hProgram, hGlobals]

/-- The end of a run lists what it holds against all frames, and reports that unless the check is
off. -/
theorem finish_of_kept {layers : Layers} {policy : UnusedPolicy}
    (hPolicy : layers.unusedPolicy = policy) (h : (c.leaveAll layers).Kept policy) :
    (c.tracker.finish layers).1.unused = (c.leaveAll layers).verdicts policy ∧
    (c.delivered.flatten ++ (c.tracker.finish layers).2.findings).filter (·.isUnused) =
      if policy = .off then
        [] else ((c.leaveAll layers).verdicts policy).map UnusedBinding.reported := by
  subst hPolicy
  obtain ⟨hTracker, hDelivered⟩ := c.foldl_exit layers c.tracker.active.below.length
  have hEnd := Prod.mk.inj (c.tracker.tally_finish layers)
  rw [← show (c.leaveAll layers).tracker = _ from hTracker] at hEnd
  have hTold := h.reported
  rw [List.filter_append, show (c.leaveAll layers).delivered = c.delivered from hDelivered] at hTold
  have hVerdicts : (c.leaveAll layers).verdicts layers.unusedPolicy =
    (c.leaveAll layers).tracker.unused ++
      (c.leaveAll layers).tracker.lastListed layers.unusedPolicy := by
    rw [h.listed, verdicts, List.flatMap_append, List.append_assoc]
    exact congrArg (fun last => _ ++ (last ++ _)) (List.append_nil _)
  rw [hVerdicts, List.filter_append, hEnd.1, hEnd.2]
  refine ⟨rfl, ?_⟩
  show _ ++ ((c.leaveAll layers).tracker.findings.filter _ ++ _) = _
  rw [← List.append_assoc, hTold]
  split
  · rfl
  · exact List.map_append.symm

/-! ### All frames -/

/-- At the end of a run, every frame but the program's was left. -/
theorem Placed.ids (h : c.Placed) (hBottom : c.tracker.active.below = []) :
    (c.closings.map Closing.id ++ [0]).Perm (List.range c.tracker.frames.size) := by
  have hLast := (h.sound.chain c.tracker.current h.sound.arena.current).2
  have hActive : c.tracker.active.toList = [c.tracker.current] := congrArg (List.cons _) hBottom
  rw [← h.sound.arena.active, hActive] at hLast
  have hZero : c.tracker.active.toList = [0] :=
    hActive.trans (congrArg (fun id => [id]) (Option.some.inj hLast))
  have hLeft (id : FrameId) :
      id ∈ c.closings.map Closing.id ↔ id < c.tracker.frames.size ∧ id ≠ 0 := by
    rw [h.left, hZero, List.mem_singleton]
  have hNodup : (c.closings.map Closing.id ++ [0]).Nodup := by
    rw [List.nodup_append]
    refine ⟨h.once, by simp, fun id hId id' hId' => ?_⟩
    rw [List.mem_singleton.mp hId']
    exact ((hLeft id).mp hId).2
  refine (List.perm_ext_iff_of_nodup hNodup List.nodup_range).mpr fun id => ?_
  rw [List.mem_append, hLeft, List.mem_singleton, List.mem_range]
  constructor
  · rintro (⟨hSize, -⟩ | rfl)
    · exact hSize
    · exact h.sound.arena.size
  · intro hSize
    by_cases hId : id = 0
    · exact .inr hId
    · exact .inl ⟨hSize, hId⟩

/-- What a policy lists beyond the variables are parameters of the frames, whether they were looked
at when the frame was left or at the end of the run. -/
theorem Placed.verdicts (h : c.Placed) (hBottom : c.tracker.active.below = [])
    (policy : UnusedPolicy) (hOn : policy ≠ .off) : (c.verdicts policy).Perm (c.verdicts .vars ++
      (List.range c.tracker.frames.size).flatMap fun id =>
        (unreadParameters (c.tracker.frame id) policy).map listing) := by
  -- what is unread in one frame: its variables, then its parameters
  have hEach (closing : Closing) : (closing.verdict policy).Perm
      (closing.verdict .vars ++ (unreadParameters closing.frame policy).map listing) := by
    have hSorted (policy : UnusedPolicy) (hOn : policy ≠ .off) : (closing.verdict policy).Perm
        ((unreadVariables closing.frame closing.exported closing.lexicalOnly).map listing ++
          (unreadParameters closing.frame policy).map listing) := by
      unfold Closing.verdict unreadBindings
      dsimp only
      rw [if_neg hOn, ← List.map_append]
      exact (List.mergeSort_perm ..).map _
    refine (hSorted policy hOn).trans (.append_right _ ?_)
    refine .trans ?_ (hSorted .vars nofun).symm
    exact .of_eq (List.append_nil _).symm
  have hParameters {f g : Frame} (hSame : parameters f = parameters g) :
      unreadParameters f policy = unreadParameters g policy := by
    cases policy <;> simp only [unreadParameters, hSame]
  -- a frame keeps its parameters after it was left
  have hFrames : (c.closings ++ [c.program]).flatMap (fun closing =>
      (unreadParameters closing.frame policy).map listing) =
        (c.closings.map Closing.id ++ [0]).flatMap fun id =>
        (unreadParameters (c.tracker.frame id) policy).map listing := by
    rw [List.flatMap_append, List.flatMap_append, List.flatMap_map]
    refine congrArg (· ++ _) ?_
    refine List.flatMap_congr fun closing hClosing => ?_
    rw [hParameters (h.kept closing hClosing)]
  have hAll : ((c.closings ++ [c.program]).flatMap (·.verdict policy)).Perm
      ((c.closings ++ [c.program]).flatMap (·.verdict .vars) ++
        (List.range c.tracker.frames.size).flatMap fun id =>
          (unreadParameters (c.tracker.frame id) policy).map listing) := by
    refine (List.Perm.flatMap_left _ fun closing _ => hEach closing).trans ?_
    refine (List.flatMap_append_perm ..).symm.trans (.append_left _ ?_)
    rw [hFrames]
    exact (h.ids hBottom).flatMap_right _
  unfold Course.verdicts
  refine (hAll.append_right _).trans ?_
  rw [List.append_assoc, List.append_assoc]
  exact List.perm_append_comm.append_left _

/-- The parameters at the end of each frame are listed from the last one on. -/
theorem Placed.trailing (h : c.Placed) (hBottom : c.tracker.active.below = []) :
    (c.verdicts .lastParam).Perm
    (c.verdicts .vars ++ (List.range c.tracker.frames.size).flatMap fun id =>
      ((parameters (c.tracker.frame id)).rtakeWhile (!·.2.used)).map listing) := by
  refine (h.verdicts hBottom .lastParam nofun).trans (.append_left _ ?_)
  exact List.Perm.flatMap_left _ fun id _ => ((List.reverse_perm _).symm).map _

/-- They are some of those that were not read. -/
theorem rtakeWhile_sublist_unread (l : List (String × Binding)) :
    (l.rtakeWhile (!·.2.used)).Sublist (l.filter (!·.2.used)) := by
  have hUnread : (l.rtakeWhile (!·.2.used)).filter (!·.2.used) = l.rtakeWhile (!·.2.used) :=
    List.filter_eq_self.mpr fun _ => List.mem_rtakeWhile_imp
      (p := fun entry : String × Binding => !entry.2.used)
  rw [← hUnread]
  exact (List.rtakeWhile_suffix _ l).sublist.filter _

end Course

/-! ## The degrees -/

/-- A run that has ended: the tracker, the outcome, and what was delivered, the last findings
included. -/
structure Completed where
  tracker : Tracker
  outcome : Outcome
  delivered : List (List PlacedFinding)

/-- A fresh tracker after the operations and the end of the run. -/
def complete (table : Predefined.Table) (operations : List Operation) (layers : Layers) :
    Completed :=
  let c := operations.foldl Course.perform { tracker := { predefined := table } }
  let (outcome, tracker) := c.tracker.finish layers
  { tracker, outcome, delivered := c.delivered ++ [tracker.findings] }

/-- What the degrees of the check for unused bindings list and report, and what they have in
common. -/
structure UnusedGradient (run : UnusedPolicy → Completed) : Prop where
  /-- A run that does not report unused bindings lists the same as the default. -/
  off : (run .off).outcome.unused = (run .lastParam).outcome.unused
  /-- The default lists the unread parameters at the end of each frame besides the variables. -/
  lastParam : (run .lastParam).outcome.unused.Perm ((run .vars).outcome.unused ++
    (List.range (run .vars).tracker.frames.size).flatMap fun id =>
      ((parameters ((run .vars).tracker.frame id)).rtakeWhile (!·.2.used)).map listing)
  /-- The strictest degree lists every unread parameter besides the variables. -/
  strict : (run .strict).outcome.unused.Perm ((run .vars).outcome.unused ++
    (List.range (run .vars).tracker.frames.size).flatMap fun id =>
      ((parameters ((run .vars).tracker.frame id)).filter (!·.2.used)).map listing)
  /-- Each degree lists what the weaker ones do. -/
  included : (run .vars).outcome.unused.Subperm (run .lastParam).outcome.unused ∧
    (run .lastParam).outcome.unused.Subperm (run .strict).outcome.unused
  /-- What is listed is reported, in the same order, unless the check is off. -/
  reported : ∀ policy, (run policy).delivered.flatten.filter (·.isUnused) =
    if policy = .off then [] else (run policy).outcome.unused.map UnusedBinding.reported
  /-- The other findings are the same, each time that findings are delivered. -/
  others : ∀ policy, (run policy).delivered.map (·.filter (!·.isUnused)) =
    (run .vars).delivered.map (·.filter (!·.isUnused))
  /-- So is what else is known at the end. -/
  outcome : ∀ policy, (run policy).outcome.implied = (run .vars).outcome.implied ∧
    (run policy).outcome.globals = (run .vars).outcome.globals ∧
    (run policy).tracker.frames = (run .vars).tracker.frames

/-- The degrees of the check for unused bindings, over the same run. -/
theorem unused_gradient (table : Predefined.Table) (families : List (UnusedPolicy → Operation))
    (hGraded : ∀ family ∈ families, Graded family) (last : Gradient) :
    UnusedGradient fun policy => complete table (families.map (· policy)) (last.layers policy) := by
  -- the run at a degree, up to its end, with every frame left, and complete
  let course (policy : UnusedPolicy) : Course :=
    (families.map (· policy)).foldl Course.perform { tracker := { predefined := table } }
  let left (policy : UnusedPolicy) : Course := (course policy).leaveAll (last.layers policy)
  let run (policy : UnusedPolicy) : Completed :=
    complete table (families.map (· policy)) (last.layers policy)
  have hCourse (policy : UnusedPolicy) : (course .vars).Parallel (course policy) :=
    Course.Parallel.foldl ⟨.refl _ _, rfl, rfl⟩ hGraded .vars policy
  have hKept (policy : UnusedPolicy) : (course policy).Kept policy := by
    refine Course.Kept.foldl ⟨rfl, by simp⟩ fun op hOp => ?_
    obtain ⟨family, hFamily, rfl⟩ := List.mem_map.mp hOp
    exact (hGraded family hFamily).listsBy policy
  have hStart : Course.Placed { tracker := { predefined := table } } := by
    refine ⟨sound_fresh table, .nil, fun id => ?_, fun closing hClosing => by cases hClosing⟩
    show id ∈ [] ↔ id < 1 ∧ id ∉ [0]
    simp
  have hPlaced : (left .vars).Placed := (hStart.foldl _).leaveAll _
  have hBottom : (left .vars).tracker.active.below = [] := Course.below_leaveAll _ _
  have hEnd (policy : UnusedPolicy) := Course.finish_of_kept (last.policy policy)
    ((hKept policy).leaveAll (last.policy policy))
  have hSame (policy : UnusedPolicy) :
      (left policy).verdicts policy = (left .vars).verdicts policy :=
    ((hCourse policy).leaveAll last .vars policy).verdicts policy
  have hListed (policy : UnusedPolicy) :
      (run policy).outcome.unused = (left .vars).verdicts policy :=
    (hEnd policy).1.trans (hSame policy)
  have hFrames : (run .vars).tracker.frames = (left .vars).tracker.frames :=
    (frames_finish _ _).trans
      (congrArg Tracker.frames ((course .vars).foldl_exit (last.layers .vars) _).1.symm)
  have hFrame (id : FrameId) : (run .vars).tracker.frame id = (left .vars).tracker.frame id := by
    rw [Tracker.frame, Tracker.frame, hFrames]
  have hFinish (policy : UnusedPolicy) := (hCourse policy).alike.finish (last.agree .vars policy)
  have hTrailing := hPlaced.trailing hBottom
  have hStrict := hPlaced.verdicts hBottom .strict fun hOff => by cases hOff
  show UnusedGradient run
  -- each part is read off the verdicts of the common course
  constructor
  case off =>
    rw [hListed, hListed]
    rfl
  case lastParam =>
    simp only [hListed, hFrames, hFrame]
    exact hTrailing
  case strict =>
    simp only [hListed, hFrames, hFrame]
    exact hStrict
  case included =>
    simp only [hListed]
    refine ⟨(List.sublist_append_left ..).subperm.trans hTrailing.symm.subperm, ?_⟩
    refine hTrailing.subperm.trans (.trans (List.Sublist.subperm ?_) hStrict.symm.subperm)
    exact (List.Sublist.flatMap_right _ fun id _ =>
      (Course.rtakeWhile_sublist_unread _).map _).append_left _
  case reported =>
    intro policy
    show ((course policy).delivered ++ [(run policy).tracker.findings]).flatten.filter _ = _
    rw [List.flatten_append, List.flatten_singleton, hListed, ← hSame]
    exact (hEnd policy).2
  case others =>
    intro policy
    show ((course policy).delivered ++ [(run policy).tracker.findings]).map _ =
      ((course .vars).delivered ++ [(run .vars).tracker.findings]).map _
    rw [List.map_append, List.map_append, (hCourse policy).delivered]
    exact congrArg (fun others => _ ++ [others]) (others_of_alike (hFinish policy).1)
  case outcome =>
    intro policy
    obtain ⟨hAlike, hGlobals, hImplied, -⟩ := hFinish policy
    exact ⟨hImplied fun hUndef => (by cases hUndef), hGlobals,
      hAlike.same (f := Tracker.frames) fun _ => rfl⟩

/-- A function with three parameters, of which the second is read, and a variable. -/
theorem unused_gradient_of_function :
    let settings := Gradient.over {}
    let families : List (UnusedPolicy → Operation) := [fun _ => .enter .function,
      fun policy => .declare "a" .param 1 1 (settings.layers policy),
      fun policy => .declare "b" .param 1 2 (settings.layers policy),
      fun policy => .declare "c" .param 1 3 (settings.layers policy),
      fun policy => .declare "x" .var 2 1 (settings.layers policy),
      fun policy => .reference "b" 3 1 (settings.layers policy),
      fun _ => .takeFindings, fun policy => .exit (settings.layers policy)]
    let run (policy : UnusedPolicy) :=
      complete {} (families.map (· policy)) (settings.layers policy)
    (∀ family ∈ families, Graded family) ∧ UnusedGradient run ∧
      (run .vars).outcome.unused.map (·.name) = ["x"] ∧
      (parameters ((run .vars).tracker.frame 1)).map (fun entry => (entry.1, entry.2.used)) =
        [("a", false), ("b", true), ("c", false)] := by
  intro settings families run
  have hGraded : ∀ family ∈ families, Graded family := by
    simp only [families, List.forall_mem_cons]
    exact ⟨.plain _ rfl, .declare .., .declare .., .declare .., .declare .., .reference ..,
      .plain _ rfl, .exit _, nofun⟩
  exact ⟨hGraded, unused_gradient {} families hGraded
    settings, by decide +kernel, by decide +kernel⟩

end ScriptLint.Scope
