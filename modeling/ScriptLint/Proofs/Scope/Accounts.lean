import Mathlib.Data.List.Induction
import ScriptLint.Proofs.Scope.Claims

/-!
# The accounts of unresolved uses

Every use that was deferred is claimed by a later declaration or settled at the end of the run,
once. The log of a run holds the uses that were deferred and not claimed so far, in the order in
which they were made; the tracker keeps the same uses by name.

- `Operation`, `history`: runs of the tracker, with their logs.
- `Tracker.Accounted`: the invariant that links the log, the active frames and the arena.
- `accounted_apply`: every operation keeps it.
- `references_accounted`: what becomes of every unresolved use.
-/

namespace ScriptLint.Scope

open Setting (Layers)

/-! ## Keys in order of their first occurrence -/

section FirstOccurrence

variable {α κ : Type} [DecidableEq κ] (key : α → κ)

/-- Erasing repetitions leaves none. -/
theorem nodup_eraseDups (l : List κ) : l.eraseDups.Nodup := by
  induction hn : l.length using Nat.strongRecOn generalizing l with
  | ind n ih =>
    cases l with
    | nil => exact .nil
    | cons a rest =>
      rw [List.eraseDups_cons]
      refine List.nodup_cons.mpr ⟨?_, ih _ ?_ _ rfl⟩
      · simp [List.mem_eraseDups]
      · exact hn ▸ Nat.lt_succ_of_le (List.length_filter_le ..)

/-- A key comes last, unless it came before. -/
theorem eraseDups_concat (l : List κ) (a : κ) :
    (l ++ [a]).eraseDups = if a ∈ l then l.eraseDups else l.eraseDups ++ [a] := by
  rw [List.eraseDups_append, List.removeAll]
  split
  · next h => simp [h]
  · next h =>
    have hOnly : [a].eraseDups = [a] := by simp [List.eraseDups_cons]
    simp [h, hOnly]

/-- If of the elements with one key the earlier ones are kept with the later ones, the keys that are
left keep their order. By induction from the end: the last element only matters if no other has its
key. -/
theorem eraseDups_filter {p : α → Bool} (l : List α)
    (h : l.Pairwise fun a b => key a = key b → p b → p a) :
    ((l.filter p).map key).eraseDups =
      (l.map key).eraseDups.filter fun k => k ∈ (l.filter p).map key := by
  -- by induction from the end; `h` says that a key is kept again once it was kept
  induction l using List.reverseRecOn with
  | nil => rfl
  | append_singleton l a ih =>
    obtain ⟨hBefore, -, hLast⟩ := List.pairwise_append.mp h
    have hKept : ∀ k ∈ (l.filter p).map key, k ∈ l.map key := fun k hk => by
      obtain ⟨b, hb, rfl⟩ := List.mem_map.mp hk
      exact List.mem_map_of_mem (List.mem_filter.mp hb).1
    have hEarlier (hp : p a) (hMem : key a ∈ l.map key) : key a ∈ (l.filter p).map key := by
      obtain ⟨b, hb, hKey⟩ := List.mem_map.mp hMem
      exact hKey ▸ List.mem_map_of_mem (List.mem_filter.mpr ⟨hb, hLast b hb a (by simp) hKey hp⟩)
    rw [List.filter_append, List.map_append, List.map_append, List.map_singleton, eraseDups_concat]
    cases hp : p a with
    | false =>
      simp only [List.filter_cons, hp, Bool.false_eq_true, if_false, List.filter_nil, List.map_nil,
        List.append_nil]
      rw [ih hBefore]
      split
      · rfl
      · next hNew => simp [List.filter_append, mt (hKept _) hNew]
    | true =>
      simp only [List.filter_cons, hp, if_true, List.filter_nil, List.map_singleton]
      rw [eraseDups_concat, ih hBefore]
      by_cases hMem : key a ∈ l.map key
      · rw [if_pos hMem, if_pos (hEarlier hp hMem)]
        refine List.filter_congr fun k _ => ?_
        grind
      · have hOthers : (l.map key).eraseDups.filter (· ∈ (l.filter p).map key) =
            (l.map key).eraseDups.filter (· ∈ (l.filter p).map key ++ [key a]) := by
          refine List.filter_congr fun k hk => ?_
          have hOther : k ≠ key a := fun hSame => hMem (hSame ▸ List.mem_eraseDups.mp hk)
          simp [hOther]
        rw [if_neg hMem, if_neg (mt (hKept _) hMem), List.filter_append, hOthers]
        simp

end FirstOccurrence

/-- A list in which what holds of one element holds of all later ones ends with those of which it
holds. -/
theorem filter_append_filter {α : Type} {p : α → Bool} {l : List α}
    (h : l.Pairwise fun a b => p a → p b) : l = l.filter (!p ·) ++ l.filter p := by
  induction l with
  | nil => rfl
  | cons a rest ih =>
    obtain ⟨hFirst, hRest⟩ := List.pairwise_cons.mp h
    cases hp : p a with
    | true =>
      have hAll : ∀ b ∈ rest, p b = true := fun b hb => hFirst b hb hp
      have hNone : rest.filter (!p ·) = [] := List.filter_eq_nil_iff.mpr fun b hb => by
        simp [hAll b hb]
      simp [hp, hNone, List.filter_eq_self.mpr hAll]
    | false =>
      simp only [List.filter_cons, hp, Bool.not_false, if_true, Bool.false_eq_true, if_false,
        List.cons_append]
      rw [← ih hRest]

/-! ## Logs -/

/-- A use that was deferred, with its name. -/
abbrev Deferred := String × Pending

/-- The uses of a name in a log. -/
def usesOf (name : String) (log : List Deferred) :
    List Pending := (log.filter (·.1 = name)).map (·.2)

/-- The uses of a name in a log are its entries under the name. -/
theorem mem_usesOf {name : String} {log : List Deferred} {r : Pending} :
    r ∈ usesOf name log ↔ (name, r) ∈ log := by
  simp [usesOf]

/-- Filtering a log filters the uses of each name. -/
theorem usesOf_filter (name : String) (p : Deferred → Bool) (log : List Deferred) :
    usesOf name (log.filter p) = (usesOf name log).filter fun r => p (name, r) := by
  unfold usesOf
  rw [List.filter_map, List.filter_filter, List.filter_filter]
  congr 1
  refine List.filter_congr fun e _ => ?_
  by_cases h : e.1 = name
  · subst h
    simp [Bool.and_comm]
  · simp [h]

/-- A name has uses if it is in the log. -/
theorem usesOf_ne_nil_iff {name : String} {log : List Deferred} :
    usesOf name log ≠ [] ↔ name ∈ log.map Prod.fst := by
  constructor
  · intro h
    obtain ⟨r, hr⟩ := List.exists_mem_of_ne_nil _ h
    exact List.mem_map_of_mem (mem_usesOf.mp hr)
  · intro h
    obtain ⟨⟨_, r⟩, hMem, rfl⟩ := List.mem_map.mp h
    exact List.ne_nil_of_mem (mem_usesOf.mpr hMem)

theorem usesOf_append (name : String) (log rest : List Deferred) :
    usesOf name (log ++ rest) = usesOf name log ++ usesOf name rest := by
  simp [usesOf]

namespace Tracker

variable {t u : Tracker} {log : List Deferred}

/-- The tracker keeps the uses of a log: by name, in order, none of them where its name is bound.
What lies in an active frame was made after what does not. -/
structure Accounted (t : Tracker) (log : List Deferred) : Prop where
  arena : t.Arena
  distinct : t.Distinct
  inside : ∀ e ∈ log, e.2.frame < t.frames.size
  uses : ∀ name, t.pendingUses name = usesOf name log
  names : t.pending.keys = (log.map Prod.fst).eraseDups
  free : ∀ e ∈ log, ∀ id ∈ lineage t.frames e.2.frame, t.binds e.1 id = false
  ordered : log.Pairwise fun d e => ∀ id ∈ t.active.toList,
    isWithin t.frames d.2.frame id → isWithin t.frames e.2.frame id
  quiet : ∀ f ∈ t.findings, f.finding.isUndefined = false

/-- A new tracker is accounted for by an empty log. -/
theorem accounted_fresh (table : Predefined.Table) : Accounted { predefined := table } [] where
  arena := arena_fresh table
  distinct := by
    intro id
    rcases Nat.eq_zero_or_pos id with rfl | hPos
    · exact .nil
    · rw [frame_of_size_le (show 1 ≤ id from hPos)]
      exact .nil
  inside := by simp
  uses _ := rfl
  names := rfl
  free := by simp
  ordered := .nil
  quiet := by simp

namespace Accounted

/-- Findings that are not about undefined names leave the account as it is. -/
theorem reports (h : t.Accounted log) (hReports : t.Reports u) : u.Accounted log := by
  have hSame := hReports.sameArena
  -- frames and pending uses are the same, so each part of the account is
  refine ⟨h.arena.of_sameArena hSame, fun id => ?_, fun e he => ?_, fun name => ?_, ?_,
    fun e he id hId => ?_, ?_, fun f hf => ?_⟩
  · rw [hReports.frame]
    exact h.distinct id
  · rw [hReports.frames]
    exact h.inside e he
  · rw [hReports.pendingUses]
    exact h.uses name
  · rw [hReports.pending]
    exact h.names
  · rw [hReports.frames] at hId
    rw [binds_eq, hReports.binding?]
    exact h.free e he id hId
  · rw [hReports.frames, hReports.active]
    exact h.ordered
  · exact (hReports.findings f hf).elim (h.quiet f) id

/-- Where nothing is claimed, the log stays. -/
theorem unclaimed (h : t.Accounted log) {p : Deferred → Bool} (hp : ∀ e ∈ log, p e = true) :
    t.Accounted (log.filter p) :=
  (List.filter_eq_self.mpr hp).symm ▸ h

/-- Some uses are taken out, the later ones of a name before the earlier ones, and the others are
not bound by what changes. -/
theorem keep (h : t.Accounted log) {p : Deferred → Bool} (hSame : t.SameArena u)
    (hDistinct : u.Distinct) (hUses : ∀ name, u.pendingUses name =
    (t.pendingUses name).filter fun r => p (name, r))
    (hKeys : u.pending.keys = t.pending.keys.filter fun name => u.pendingUses name ≠ [])
    (hEarlier : log.Pairwise fun d e => d.1 = e.1 → p e → p d)
    (hFree : ∀ e ∈ log, p e → ∀ id ∈ lineage t.frames e.2.frame, u.binds e.1 id = false)
    (hQuiet : ∀ f ∈ u.findings, f.finding.isUndefined = false) : u.Accounted (log.filter p) := by
  have hLog (name : String) : u.pendingUses name = usesOf name (log.filter p) := by
    rw [hUses, h.uses, usesOf_filter]
  refine ⟨h.arena.of_sameArena hSame, hDistinct, fun e he => ?_, hLog, ?_,
    fun e he id hId => ?_, ?_, hQuiet⟩
  · rw [hSame.size]
    exact h.inside e (List.mem_filter.mp he).1
  · rw [hKeys, h.names, eraseDups_filter Prod.fst log hEarlier]
    refine List.filter_congr fun name _ => ?_
    rw [hLog]
    exact decide_eq_decide.mpr usesOf_ne_nil_iff
  · obtain ⟨hMem, hp⟩ := List.mem_filter.mp he
    rw [hSame.lineage] at hId
    exact hFree e hMem hp id hId
  · refine (h.ordered.imp fun hWithin id hId => ?_).filter p
    rw [hSame.isWithin, hSame.isWithin]
    exact hWithin id (hSame.active ▸ hId)

/-- A frame around the current place claims the uses of a name, which nothing else binds. -/
theorem claim (h : t.Accounted log) {name : String} {id : FrameId} (hActive : id ∈ t.active.toList)
    (hRebinds : t.Rebinds u)
    (hBinds : ∀ other frame, u.binds other frame → t.binds other frame ∨ other = name ∧
    frame = id) : (u.claim name id).Accounted
      (log.filter fun e => !(e.1 == name && isWithin t.frames e.2.frame id)) := by
  -- a name loses the uses within the frame, and no other
  have hPending (other : String) : u.pendingUses other = t.pendingUses other := by
    rw [pendingUses, pendingUses, hRebinds.pending]
  have hUses (other : String) : (u.claim name id).pendingUses other =
      (t.pendingUses other).filter fun r => !(other == name && isWithin t.frames r.frame id) := by
    rw [pendingUses_claim, hPending]
    simp only [hRebinds.isWithin]
  refine h.keep (hRebinds.toSameArena.trans (sameArena_claim u name id))
    (distinct_claim u name id (hRebinds.distinct h.distinct)) hUses ?_ ?_ ?_ ?_
  · rw [keys_claim, hRebinds.pending]
    -- a name that loses all of its uses loses its key
    refine List.filter_congr fun other hOther => ?_
    by_cases hName : other = name
    · simp [hName]
    · have hSome : (u.claim name id).pendingUses other ≠ [] := by
        rw [hUses, beq_false_of_ne hName]
        simp only [Bool.false_and, Bool.not_false, h.uses]
        rw [List.filter_eq_self.mpr fun _ _ => rfl]
        exact usesOf_ne_nil_iff.mpr (List.mem_eraseDups.mp (h.names ▸ hOther))
      simp [hName, hSome]
  -- what is left of the pairs in order: the later is within the frame if the earlier is
  · refine h.ordered.imp fun {d e} hWithin hName hLater => ?_
    cases hClaimed : d.1 == name && isWithin t.frames d.2.frame id with
    | false => rfl
    | true =>
      obtain ⟨hThis, hInside⟩ := Bool.and_eq_true_iff.mp hClaimed
      rw [← hName, hThis, hWithin id hActive hInside] at hLater
      cases hLater
  -- the claimed name is newly bound there, but no use within is left
  · intro e he hKept frame hFrame
    have hBinds' : (u.claim name id).binds e.1 frame = u.binds e.1 frame := by
      rw [binds_eq, binds_eq, binding?_claim]
      split
      · next hHere => rw [Option.isSome_map, hHere.1, hHere.2]
      · rfl
    rw [hBinds', Bool.eq_false_iff]
    intro hBound
    rcases hBinds e.1 frame hBound with hOld | ⟨hName, rfl⟩
    · rw [h.free e he frame hFrame] at hOld
      cases hOld
    · rw [hName, (isWithin_iff t _ _).mpr hFrame] at hKept
      simp at hKept
  · rw [findings_claim, hRebinds.findings]
    exact h.quiet

/-- Nothing is claimed where bindings only note reads. -/
theorem rebinds (h : t.Accounted log) (hRebinds : t.Rebinds u)
    (hBinds : ∀ name id, u.binds name id = t.binds name id) : u.Accounted log := by
  have hSame := hRebinds.toSameArena
  refine ⟨h.arena.of_sameArena hSame, hRebinds.distinct h.distinct, fun e he => ?_,
    fun name => ?_, ?_, fun e he id hId => ?_, ?_, fun f hf => ?_⟩
  · rw [hSame.size]
    exact h.inside e he
  · rw [← h.uses, pendingUses, pendingUses, hRebinds.pending]
  · rw [hRebinds.pending]
    exact h.names
  · rw [hSame.lineage] at hId
    rw [hBinds]
    exact h.free e he id hId
  · refine h.ordered.imp fun hWithin id hId => ?_
    rw [hSame.isWithin, hSame.isWithin]
    exact hWithin id (hSame.active ▸ hId)
  · exact h.quiet f (hRebinds.findings ▸ hf)

/-- So does a use of a binding. -/
theorem markUsed (h : t.Accounted log) (id : FrameId) (name : String) (line : Nat) :
    (t.markUsed id name line).Accounted log := by
  refine h.rebinds (.modifyBinding t id name (·.use line)) fun other frame => ?_
  rw [binds_eq, binds_eq, Tracker.markUsed, binding?_modifyBinding]
  split
  · next hHere => rw [Option.isSome_map, hHere.1, hHere.2]
  · rfl

/-- A frame that is opened holds no use yet and binds nothing. -/
theorem enter (h : t.Accounted log) (kind : FrameKind) : (t.enter kind).Accounted log := by
  -- older frames keep their lineage, and nothing was used in the new one
  have hLineage {e : Deferred} (he : e ∈ log) :
      lineage (t.enter kind).frames e.2.frame = lineage t.frames e.2.frame :=
    Arena.lineage_enter t kind (h.inside e he)
  have hBindings (id : FrameId) : ((t.enter kind).frame id).bindings =
      if id = t.frames.size then {} else (t.frame id).bindings := by
    rw [Arena.frame_enter]
    split <;> rfl
  refine ⟨h.arena.enter kind, fun id => ?_, fun e he => ?_, h.uses, h.names,
    fun e he id hId => ?_, ?_, h.quiet⟩
  · rw [hBindings]
    split
    · exact .nil
    · exact h.distinct id
  · exact Nat.lt_trans (h.inside e he) (by simp [Tracker.enter])
  · rw [hLineage he] at hId
    have hOld : id ≠ t.frames.size :=
      Nat.ne_of_lt (Nat.lt_of_le_of_lt (le_of_mem_lineage hId) (h.inside e he))
    rw [binds, hBindings, if_neg hOld]
    exact h.free e he id hId
  · refine List.Pairwise.imp_of_mem (fun {d e} hd he hWithin id hId => ?_) h.ordered
    rw [isWithin_iff, isWithin_iff, hLineage hd, hLineage he, ← isWithin_iff, ← isWithin_iff]
    rcases List.mem_cons.mp (show id ∈ t.frames.size :: t.active.toList from hId) with rfl | hId
    · intro hInside
      have hLess :=
        Nat.lt_of_le_of_lt (le_of_mem_lineage ((isWithin_iff t _ _).mp hInside)) (h.inside d hd)
      exact absurd hLess (Nat.lt_irrefl _)
    · exact hWithin id hId

/-- So does leaving a frame. -/
theorem leave (h : t.Accounted log) : Accounted { t with active := t.active.pop } log := by
  refine ⟨h.arena.leave, h.distinct, h.inside, h.uses, h.names, h.free, ?_, h.quiet⟩
  refine h.ordered.imp fun hWithin id hId => hWithin id ?_
  by_cases hInner : t.active.below = []
  · rw [Stack.pop, hInner] at hId
    exact hId
  · obtain ⟨_, _, _, _, _, hPop⟩ := h.arena.below_eq hInner
    exact List.mem_cons_of_mem _ (hPop ▸ hId)

end Accounted

/-- A use at the current place, with the settings in force. -/
def useHere (t : Tracker) (line column : Nat) (isWrite : Bool) (layers : Layers) : Pending :=
  { line, column, isWrite
    frame := t.current
    function := t.functionFrame
    undef := layers.enabled .undef
    lateDef := layers.lateDefPolicy }

/-- Whether the name stands for nothing known at the current place. -/
def unresolved (t : Tracker) (name : String) : Bool :=
  (t.lookup name).isNone && !t.resolvesImplicitly name && !t.predefined.contains name

/-- A use that is deferred comes last, where all active frames are around it. -/
theorem Accounted.defer (h : t.Accounted log) {name : String} (hName : t.lookup name = none)
    (line column : Nat) (isWrite : Bool) (layers : Layers) :
    (t.defer name line column isWrite layers).Accounted
      (log ++ [(name, t.useHere line column isWrite layers)]) := by
  -- a use goes to the end of its name's uses
  have hUses (other : String) : (t.defer name line column isWrite layers).pendingUses other =
      t.pendingUses other ++ usesOf other [(name, t.useHere line column isWrite layers)] := by
    unfold pendingUses Tracker.defer usesOf
    dsimp only
    rw [OrderedMap.get?_insert]
    by_cases hOther : other = name
    · subst hOther
      simp [useHere]
    · simp [hOther, Ne.symm hOther]
  refine ⟨h.arena.of_sameArena (.of_frames rfl rfl), h.distinct, fun e he => ?_,
    fun other => ?_, ?_, fun e he id hId => ?_, ?_, h.quiet⟩
  · rcases List.mem_append.mp he with he | he
    · exact h.inside e he
    · rw [List.mem_singleton.mp he]
      exact h.arena.current
  · rw [hUses, h.uses, usesOf_append]
  · show (t.pending.insert name _).keys = _
    rw [OrderedMap.keys_insert, List.map_append, List.map_singleton, eraseDups_concat, h.names]
    simp only [List.mem_eraseDups]
  · rcases List.mem_append.mp he with he | he
    · exact h.free e he id hId
    · rw [List.mem_singleton.mp he] at hId ⊢
      exact Bool.eq_false_iff.mpr (List.find?_eq_none.mp hName id hId)
  · refine List.pairwise_append.mpr ⟨h.ordered, List.pairwise_singleton ..,
      fun d hd e he id hId _ => ?_⟩
    rw [List.mem_singleton.mp he]
    exact (isWithin_iff t _ _).mpr (h.arena.active ▸ hId)

/-- A directive takes every use of its name out of the log. -/
theorem Accounted.declareGlobal (h : t.Accounted log) (name : String) (writable : Bool)
    (line column : Nat) :
    (t.declareGlobal name writable line column).Accounted (log.filter fun e => !(e.1 == name)) := by
  have hUses (other : String) : (t.declareGlobal name writable line column).pendingUses other =
      (t.pendingUses other).filter fun _ => !(other == name) := by
    unfold pendingUses Tracker.declareGlobal
    dsimp only
    -- by the name: the directive erases its uses and spares the others
    rw [OrderedMap.get?_erase]
    by_cases hOther : other = name
    · simp [hOther]
    · rw [if_neg hOther, beq_false_of_ne hOther]
      exact (List.filter_eq_self.mpr fun _ _ => rfl).symm
  refine h.keep (.of_frames rfl rfl) h.distinct hUses ?_ ?_ (fun e he _ => h.free e he) h.quiet
  · show (t.pending.erase name).keys = _
    rw [OrderedMap.keys_erase]
    refine List.filter_congr fun other hOther => ?_
    rw [hUses]
    by_cases hName : other = name
    · simp [hName]
    · have hSome := usesOf_ne_nil_iff.mpr (List.mem_eraseDups.mp (h.names ▸ hOther))
      have hAll : (t.pendingUses other).filter (fun _ => !(other == name)) = usesOf other log := by
        rw [h.uses]
        exact List.filter_eq_self.mpr fun _ _ => by simp [hName]
      rw [hAll]
      simp [hName, hSome]
  · exact h.ordered.imp fun _ hName hLater => hName ▸ hLater

/-- A declaration takes the uses within its frame, if it binds anew. -/
theorem Accounted.declare (h : t.Accounted log) (name : String) (kind : BindingKind)
    (line column : Nat)
    (layers : Layers) : (t.declare name kind line column layers).Accounted (log.filter fun e =>
      !(t.bindsAnew name kind &&
        (e.1 == name && isWithin t.frames e.2.frame t.declarationFrame))) := by
  refine Accounted.reports ?_ (reports_declare t name kind line column layers)
  have hActive := h.arena.declarationFrame_mem
  cases t.bindsAnew name kind with
  | false =>
    rw [if_neg Bool.false_ne_true]
    exact h.unclaimed fun _ _ => rfl
  | true =>
    rw [if_pos rfl]
    refine h.claim hActive (.bind t _ name _) fun other frame hBound => ?_
    rw [binds_eq, binding?_bind t (h.arena.lt_size_of_active hActive)] at hBound
    split at hBound
    · next hHere => exact .inr ⟨hHere.2, hHere.1⟩
    · exact .inl hBound

/-- One binding moves out of the frame that was left. -/
theorem Accounted.moveOut (h : t.Accounted log) (id : FrameId) {function : FrameId}
    (hActive : function ∈ t.active.toList) (funcscope : Bool) (name : String) (b : Binding) :
    (t.moveOut id function funcscope (name, b)).Accounted (log.filter fun e =>
      !(e.1 == name && isWithin t.frames e.2.frame function)) := by
  refine Accounted.reports ?_ (reports_moveOut t id function funcscope name b)
  have hUnbind := Rebinds.unbind t id name
  have hSize : function < (t.unbind id name).frames.size :=
    hUnbind.size ▸ h.arena.lt_size_of_active hActive
  refine h.claim hActive (hUnbind.trans (.receive _ function name b)) fun other frame hBound => ?_
  by_cases hHere : frame = function ∧ other = name
  · exact .inr ⟨hHere.2, hHere.1⟩
  · rw [binds_eq, (binding?_receive _ hSize name b).2 _ _ hHere, binding?_unbind] at hBound
    split at hBound
    · cases hBound
    · exact .inl hBound

/-- By induction on the bindings that move. -/
theorem Accounted.foldl_moveOut (h : t.Accounted log) {id function : FrameId}
    (hApart : function ≠ id)
    (hActive : function ∈ t.active.toList) (funcscope : Bool) (entries : List (String × Binding)) :
    (entries.foldl (fun t entry => t.moveOut id function funcscope entry) t).Accounted
      (log.filter fun e =>
        !(entries.any (·.1 == e.1) && isWithin t.frames e.2.frame function)) := by
  induction entries generalizing t log with
  | nil => exact h.unclaimed fun _ _ => rfl
  | cons entry rest ih =>
    obtain ⟨name, b⟩ := entry
    have hMoves := moves_moveOut t hApart (h.arena.lt_size_of_active hActive) funcscope name b
    have hRest := ih (h.moveOut id hActive funcscope name b) (hMoves.same.active ▸ hActive)
    rw [List.filter_filter] at hRest
    have hBoth (e : Deferred) : (!(rest.any (·.1 == e.1) && isWithin
        (t.moveOut id function funcscope (name, b)).frames e.2.frame function) &&
          !(e.1 == name && isWithin t.frames e.2.frame function)) =
        !(((name, b) :: rest).any (·.1 == e.1) && isWithin t.frames e.2.frame function) := by
      rw [hMoves.same.isWithin, List.any_cons, Bool.beq_comm (a := e.1)]
      cases isWithin t.frames e.2.frame function <;> cases name == e.1 <;> simp
    simp only [hBoth] at hRest
    exact hRest

/-- A block that is left takes the uses of what it hoists. -/
theorem Accounted.exit (h : t.Accounted log) (layers : Layers) :
    (t.exit layers).Accounted (log.filter fun e =>
      !(t.hoisting.any (·.1 == e.1) && isWithin t.frames e.2.frame t.functionFrame)) := by
  obtain ⟨u, hReports, hExit⟩ := exit_eq t layers
  have hLeft := h.leave.reports hReports
  rw [hExit]
  -- a block that hoists nothing only reports; else it is inside a function that takes the uses
  by_cases hNone : t.hoisting = []
  · rw [hNone]
    exact hLeft.unclaimed fun _ _ => rfl
  · obtain ⟨hInner, hKind⟩ := inner_of_hoisting hNone
    obtain ⟨hBelow, hApart⟩ := h.arena.function_mem_below hInner hKind
    obtain ⟨_, _, _, _, _, hPop⟩ := h.arena.below_eq hInner
    have hActive : t.functionFrame ∈ u.active.toList := by
      rw [hReports.active, hPop]
      exact hBelow
    have hAll := hLeft.foldl_moveOut hApart hActive (layers.enabled .funcscope) t.hoisting
    rw [hReports.frames] at hAll
    exact hAll

/-- A read that nothing answers is logged. -/
theorem Accounted.reference (h : t.Accounted log) (name : String) (line column : Nat)
    (layers : Layers) : (t.reference name line column layers).Accounted (log ++
      if t.unresolved name then [(name, t.useHere line column false layers)] else []) := by
  unfold Tracker.reference unresolved
  cases hLookup : t.lookup name with
  | some id =>
    refine (List.append_nil log).symm ▸ ?_
    exact (h.markUsed id name line).reports (reports_reportOutOfScope ..)
  | none =>
    dsimp only
    cases t.resolvesImplicitly name with
    | true => exact (List.append_nil log).symm ▸ h
    | false =>
      cases t.predefined.contains name with
      | true => exact (List.append_nil log).symm ▸ h.reports (.silent rfl)
      | false => exact h.defer hLookup line column false layers

/-- So is a write. -/
theorem Accounted.assign (h : t.Accounted log) (name : String) (line column : Nat)
    (layers : Layers) : (t.assign name line column layers).Accounted (log ++
      if t.unresolved name then [(name, t.useHere line column true layers)] else []) := by
  unfold Tracker.assign unresolved
  -- four cases: a binding, the arguments of a function, a predefined name, none of these
  cases hLookup : t.lookup name with
  | some id =>
    refine (List.append_nil log).symm ▸ ?_
    dsimp only
    refine Accounted.reports ?_ (reports_reportOutOfScope ..)
    split
    · next finding hFinding =>
      obtain ⟨b, -, hb⟩ := Option.bind_eq_some_iff.mp hFinding
      exact h.reports (.report finding _ _ (isUndefined_of_assignFinding? hb))
    · exact h
  | none =>
    dsimp only
    cases t.resolvesImplicitly name with
    | true => exact (List.append_nil log).symm ▸ h
    | false =>
      cases hPredefined : t.predefined.lookup name with
      | some writable =>
        have hKnown : t.predefined.contains name := by
          rw [Predefined.Table.contains, OrderedMap.contains]
          exact Option.isSome_iff_exists.mpr ⟨writable, hPredefined⟩
        rw [hKnown]
        have hWrite :
            (t.useDirectiveGlobal name).Reports (if writable then t.useDirectiveGlobal name
            else (t.useDirectiveGlobal name).report .readOnly line column) := by
          split
          · exact .silent rfl
          · exact .report _ _ _ rfl
        have hUsed : t.Reports (t.useDirectiveGlobal name) := .silent rfl
        exact (List.append_nil log).symm ▸ h.reports (hUsed.trans hWrite)
      | none =>
        have hUnknown : t.predefined.contains name = false := by
          rw [Predefined.Table.contains, OrderedMap.contains]
          exact Option.isSome_eq_false_iff.mpr (Option.isNone_iff_eq_none.mpr hPredefined)
        rw [hUnknown]
        exact h.defer hLookup line column true layers

theorem Accounted.referenceGuarded (h : t.Accounted log) (name : String) (line : Nat) :
    (t.referenceGuarded name line).Accounted log := by
  unfold Tracker.referenceGuarded
  split
  · exact h.markUsed _ _ _
  · split
    · exact h.reports (.silent rfl)
    · exact h

theorem Accounted.addLabel (h : t.Accounted log) (label : String) :
    (t.addLabel label).Accounted log := by
  have hBindings (id : FrameId) :
      ((t.addLabel label).frame id).bindings = (t.frame id).bindings := by
    unfold Tracker.addLabel
    rw [frame_modifyFrame]
    split
    · next hHere => rw [hHere.1]
    · rfl
  refine h.rebinds ⟨.modifyFrame t _ fun _ => rfl, rfl, rfl, fun hDistinct id => ?_⟩
    fun name id => ?_
  · rw [hBindings]
    exact hDistinct id
  · rw [binds, binds, hBindings]

end Tracker

/-! ## Runs -/

/-- What a caller can ask of a tracker. -/
inductive Operation where
  | enter (kind : FrameKind)
  | exit (layers : Layers)
  | declare (name : String) (kind : BindingKind) (line column : Nat) (layers : Layers)
  | reference (name : String) (line column : Nat) (layers : Layers)
  | referenceGuarded (name : String) (line : Nat)
  | assign (name : String) (line column : Nat) (layers : Layers)
  | declareGlobal (name : String) (writable : Bool) (line column : Nat)
  | editPredefined (edit : Predefined.Table → Predefined.Table)
  | exportName (name : String)
  | addLabel (label : String)
  | takeFindings

namespace Operation

/-- The tracker after the operation. -/
def apply (t : Tracker) : Operation → Tracker
  | enter kind => t.enter kind
  | exit layers => t.exit layers
  | declare name kind line column layers => t.declare name kind line column layers
  | reference name line column layers => t.reference name line column layers
  | referenceGuarded name line => t.referenceGuarded name line
  | assign name line column layers => t.assign name line column layers
  | declareGlobal name writable line column => t.declareGlobal name writable line column
  | editPredefined edit => { t with predefined := edit t.predefined }
  | exportName name => t.exportName name
  | addLabel label => t.addLabel label
  | takeFindings => { t with findings := [] }

/-- The use that the operation defers. -/
def defers (t : Tracker) : Operation → List Deferred
  | reference name line column layers =>
    if t.unresolved name then [(name, t.useHere line column false layers)] else []
  | assign name line column layers =>
    if t.unresolved name then [(name, t.useHere line column true layers)] else []
  | _ => []

/-- Whether the operation claims a use: by binding its name in a frame around it, or as a global. -/
def claims (t : Tracker) : Operation → Deferred → Bool
  | exit _, e => t.hoisting.any (·.1 == e.1) && isWithin t.frames e.2.frame t.functionFrame
  | declare name kind _ _ _, e =>
    t.bindsAnew name kind && (e.1 == name && isWithin t.frames e.2.frame t.declarationFrame)
  | declareGlobal name _ _ _, e => e.1 == name
  | _, _ => false

/-- The tracker after the operation, and the uses that were deferred and not claimed so far. -/
def account (state : Tracker × List Deferred) (op : Operation) : Tracker × List Deferred :=
  (op.apply state.1, state.2.filter (!op.claims state.1 ·) ++ op.defers state.1)

end Operation

/-- A fresh tracker after the operations, and the uses that were deferred and not claimed. -/
def history (table : Predefined.Table) (operations : List Operation) : Tracker × List Deferred :=
  operations.foldl Operation.account ({ predefined := table }, [])

namespace Tracker

variable {t : Tracker} {log : List Deferred}

/-- Every operation keeps the accounts. -/
theorem accounted_apply (h : t.Accounted log) (op : Operation) :
    (op.apply t).Accounted (log.filter (!op.claims t ·) ++ op.defers t) := by
  have hQuiet {u : Tracker} (h : u.Accounted log) :
      u.Accounted (log.filter (fun _ => !false) ++ []) := by
    rw [List.append_nil]
    exact h.unclaimed fun _ _ => rfl
  have hDefers {u : Tracker} {rest : List Deferred} (h : u.Accounted (log ++ rest)) :
      u.Accounted (log.filter (fun _ => !false) ++ rest) := by
    have hAll : log.filter (fun _ => !false) = log := List.filter_eq_self.mpr fun _ _ => rfl
    rw [hAll]
    exact h
  cases op with
  | enter kind => exact hQuiet (h.enter kind)
  | exit layers => exact (List.append_nil _).symm ▸ h.exit layers
  | declare name kind line column layers =>
    exact (List.append_nil _).symm ▸ h.declare name kind line column layers
  | reference name line column layers => exact hDefers (h.reference name line column layers)
  | referenceGuarded name line => exact hQuiet (h.referenceGuarded name line)
  | assign name line column layers => exact hDefers (h.assign name line column layers)
  | declareGlobal name writable line column =>
    exact (List.append_nil _).symm ▸ h.declareGlobal name writable line column
  | editPredefined edit => exact hQuiet (h.reports (.silent rfl))
  | exportName name => exact hQuiet (h.reports (.silent rfl))
  | addLabel label => exact hQuiet (h.addLabel label)
  | takeFindings => exact hQuiet (h.reports ⟨rfl, rfl, rfl, by simp [Operation.apply]⟩)

/-- By induction on the operations. -/
theorem accounted_foldl (h : t.Accounted log) (operations : List Operation) :
    (operations.foldl Operation.account (t, log)).1.Accounted
      (operations.foldl Operation.account (t, log)).2 := by
  induction operations generalizing t log with
  | nil => exact h
  | cons op rest ih => exact ih (accounted_apply h op)

/-- Every run is accounted for. -/
theorem accounted_history (table : Predefined.Table) (operations : List Operation) :
    (history table operations).1.Accounted (history table operations).2 :=
  accounted_foldl (accounted_fresh table) operations

/-! ## What becomes of unresolved uses -/

/-- The last of the pending uses of a name, those within a frame, go to the binding of the frame,
which notes the reads among them after the lines that it has. -/
structure Takes (t u : Tracker) (name : String) (id : FrameId) (lines : List Nat) : Prop where
  suffix : t.pendingUses name = u.pendingUses name ++ t.usesWithin name id
  reads : (u.binding? id name).map Binding.useLines =
    some (lines ++ readLines (t.usesWithin name id))

/-- What a frame in use takes comes after what it leaves. -/
theorem Accounted.suffix (h : t.Accounted log) (name : String) {id : FrameId}
    (hActive : id ∈ t.active.toList) : t.pendingUses name =
      (t.pendingUses name).filter (fun r => !isWithin t.frames r.frame id) ++
        t.usesWithin name id := by
  refine filter_append_filter ?_
  rw [h.uses]
  refine List.pairwise_map.mpr ((h.ordered.filter _).imp fun hWithin => hWithin id hActive)

/-- A declaration that binds its name takes uses of it, and touches nothing else. -/
theorem Accounted.takes_declare (h : t.Accounted log) (name : String) (kind : BindingKind)
    (line column : Nat) (layers : Layers) (hAnew : t.bindsAnew name kind) :
    t.Takes (t.declare name kind line column layers) name t.declarationFrame [] ∧
      (∀ other ≠ name, (t.declare name kind line column layers).pendingUses other =
        t.pendingUses other) ∧
      ∀ id other, ¬(id = t.declarationFrame ∧ other = name) →
        (t.declare name kind line column layers).binding? id other = t.binding? id other := by
  have hReports := reports_declare t name kind line column layers
  rw [if_pos hAnew] at hReports
  have hActive := h.arena.declarationFrame_mem
  have hSize := h.arena.lt_size_of_active hActive
  have hBind := Rebinds.bind t t.declarationFrame name { line, column, kind }
  have hPending (other : String) :
      (t.bind t.declarationFrame name { line, column, kind }).pendingUses other =
        t.pendingUses other := by
    rw [pendingUses, pendingUses, hBind.pending]
  have hUses (other : String) : (t.declare name kind line column layers).pendingUses other =
      (t.pendingUses other).filter fun r =>
        !(other == name && isWithin t.frames r.frame t.declarationFrame) := by
    rw [hReports.pendingUses, pendingUses_claim, hPending]
    simp only [hBind.isWithin]
  refine ⟨⟨?_, ?_⟩, fun other hOther => ?_, fun id other hOther => ?_⟩
  · rw [hUses, beq_self_eq_true]
    exact h.suffix name hActive
  · rw [hReports.binding?, binding?_claim, if_pos ⟨rfl, rfl⟩, binding?_bind t hSize,
      if_pos ⟨rfl, rfl⟩, Option.map_some, Option.map_some, useLines_foldl_use]
    simp only [usesWithin, hPending, hBind.isWithin]
    rfl
  · rw [hUses, beq_false_of_ne hOther]
    exact List.filter_eq_self.mpr fun _ _ => rfl
  · rw [hReports.binding?, binding?_claim, if_neg hOther, binding?_bind t hSize, if_neg hOther]

/-- A declaration that does not bind its name touches nothing. -/
theorem declare_of_not_bindsAnew (t : Tracker) (name : String) (kind : BindingKind)
    (line column : Nat) (layers : Layers) (hAnew : t.bindsAnew name kind = false) :
    (∀ other, (t.declare name kind line column layers).pendingUses other = t.pendingUses other) ∧
      ∀ id other, (t.declare name kind line column layers).binding? id other =
        t.binding? id other := by
  have hReports := reports_declare t name kind line column layers
  rw [hAnew, if_neg Bool.false_ne_true] at hReports
  exact ⟨hReports.pendingUses, hReports.binding?⟩

/-- Leaving a frame moves its variables and functions to the function around it, each of which takes
uses of its name, and touches nothing else. -/
theorem Accounted.takes_exit (h : t.Accounted log) (layers : Layers) :
    (∀ entry ∈ t.hoisting,
      t.Takes (t.exit layers) entry.1 t.functionFrame
        (((t.binding? t.functionFrame entry.1).map Binding.useLines).getD [] ++ entry.2.useLines) ∧
      (t.exit layers).binding? t.current entry.1 = none) ∧
    (∀ name ∉ t.hoisting.map Prod.fst, (t.exit layers).pendingUses name = t.pendingUses name) ∧
    ∀ id name, ¬(name ∈ t.hoisting.map Prod.fst ∧ (id = t.current ∨ id = t.functionFrame)) →
      (t.exit layers).binding? id name = t.binding? id name := by
  have hMoves := movesAll_exit h.arena h.distinct layers
  refine ⟨fun entry hEntry => ⟨⟨?_, hMoves.home entry hEntry⟩, hMoves.gone entry hEntry⟩,
    fun name hName => ?_, hMoves.others⟩
  · obtain ⟨hInner, hKind⟩ := inner_of_hoisting (List.ne_nil_of_mem hEntry)
    have hActive : t.functionFrame ∈ t.active.toList :=
      List.mem_cons_of_mem _ (h.arena.function_mem_below hInner hKind).1
    have hAny : t.hoisting.any (·.1 == entry.1) = true :=
      List.any_eq_true.mpr ⟨entry, hEntry, beq_self_eq_true _⟩
    rw [hMoves.uses, hAny]
    exact h.suffix entry.1 hActive
  · have hAny : t.hoisting.any (·.1 == name) = false := by
      rw [List.any_eq_false]
      exact fun entry hEntry hSame => hName (beq_iff_eq.mp hSame ▸ List.mem_map_of_mem hEntry)
    rw [hMoves.uses, hAny]
    exact List.filter_eq_self.mpr fun _ _ => rfl

/-! ## The end of a run -/

/-- By induction on the frames left. -/
theorem foldl_exit (t : Tracker) (log : List Deferred) (layers : Layers) (count : Nat) :
    ((List.replicate count (.exit layers)).foldl Operation.account (t, log)).1 =
      t.exitMany layers count := by
  induction count generalizing t log with
  | zero => rfl
  | succ count ih => exact ih _ _

/-- The pending uses of a name that are reported are reported one by one. -/
theorem findings_foldl_reportUndefined (t : Tracker) (entries : List (String × List Pending)) :
    (entries.foldl reportUndefined t).findings = t.findings ++ entries.flatMap fun entry =>
      (entry.2.filter (·.undef)).map fun r => ⟨.notDefined entry.1, r.line, r.column⟩ := by
  induction entries generalizing t with
  | nil => simp
  | cons entry rest ih =>
    rw [List.foldl_cons, ih, List.flatMap_cons, ← List.append_assoc]
    congr 1
    simp [reportUndefined, reportAt, List.map_map, Function.comp_def]

/-- What is pending, by names in the order of their first uses. -/
theorem Accounted.entries (h : t.Accounted log) :
    (t.pending.entries.map fun (name, uses) => (name, uses.reverse)) =
      (log.map Prod.fst).eraseDups.map fun name => (name, usesOf name log) := by
  have hNodup : t.pending.keys.Nodup := h.names ▸ nodup_eraseDups _
  rw [t.pending.entries_eq_map_keys [] hNodup, List.map_map, h.names]
  refine List.map_congr_left fun name _ => ?_
  rw [← h.uses]
  rfl

end Tracker

open Tracker

/-- The uses that nothing has claimed when the run ends: those of the log once every frame is
left. -/
def unclaimed (table : Predefined.Table) (operations : List Operation) (layers : Layers) :
    List Deferred :=
  (history table (operations ++
    List.replicate (history table operations).1.active.below.length (.exit layers))).2

/-- The names of a log in the order of their first uses. -/
def namesOf (log : List Deferred) : List String := (log.map Prod.fst).eraseDups

/-- What becomes of the unresolved uses of a run. -/
structure References (table : Predefined.Table) (operations : List Operation) : Prop where
  /-- What is pending is what was deferred and not claimed, in the order in which it was made. -/
  pending : ∀ name,
    (history table operations).1.pendingUses name = usesOf name (history table operations).2
  /-- No frame around a pending use binds its name. -/
  unbound : ∀ name, ∀ r ∈ (history table operations).1.pendingUses name,
    ∀ id ∈ lineage (history table operations).1.frames r.frame,
      (history table operations).1.binds name id = false
  /-- A declaration that binds its name takes the last uses of it and touches nothing else; any
  other declaration touches nothing. -/
  declared : ∀ name kind line column layers, let t := (history table operations).1
    let u := t.declare name kind line column layers
    if t.bindsAnew name kind then t.Takes u name t.declarationFrame [] ∧
      (∀ other ≠ name, u.pendingUses other = t.pendingUses other) ∧
      ∀ id other, ¬(id = t.declarationFrame ∧ other = name) → u.binding? id other =
        t.binding? id other
    else (∀ other, u.pendingUses other = t.pendingUses other) ∧
      ∀ id other, u.binding? id other = t.binding? id other
  /-- Each binding that moves out of a frame that is left takes the last uses of its name, and
  nothing else is touched. -/
  hoisted : ∀ layers, let t := (history table operations).1
    let u := t.exit layers
    (∀ entry ∈ t.hoisting, t.Takes u entry.1 t.functionFrame
        (((t.binding? t.functionFrame entry.1).map Binding.useLines).getD [] ++ entry.2.useLines) ∧
      u.binding? t.current entry.1 = none) ∧
    (∀ name ∉ t.hoisting.map Prod.fst, u.pendingUses name = t.pendingUses name) ∧
    ∀ id name, ¬(name ∈ t.hoisting.map Prod.fst ∧ (id = t.current ∨ id = t.functionFrame)) →
      u.binding? id name = t.binding? id name
  /-- Before the end, no name is reported as not defined. -/
  silent : ∀ f ∈ (history table operations).1.findings, f.finding.isUndefined = false
  /-- At the end, each use that was not claimed is reported as not defined, once and at its place,
  if that was asked for where it was made. -/
  reported : ∀ layers, let left := unclaimed table operations layers
    ((history table operations).1.finish layers).2.findings.filter (·.finding.isUndefined) =
      (namesOf left).flatMap fun name => ((usesOf name left).filter (·.undef)).map fun r =>
        ⟨.notDefined name, r.line, r.column⟩
  /-- Each other one gives its line, once and in the order of the uses, to the implied global of its
  name; the names come in the order of their first uses. -/
  implied : ∀ layers, let left := unclaimed table operations layers
    ((history table operations).1.finish layers).1.implied = (namesOf left).filterMap fun name =>
      let lines := ((usesOf name left).filter (!·.undef)).map (·.line)
      if lines.isEmpty then none else some ⟨name, lines⟩

/-- No unresolved use is lost, doubled or put out of order. -/
theorem references_accounted (table : Predefined.Table) (operations : List Operation) :
    References table operations := by
  have h := accounted_history table operations
  -- The end of a run leaves every frame first; from there on it only reports.
  have hLeft (layers : Layers) : ((history table operations).1.exitMany layers
      (history table operations).1.active.below.length).Accounted
        (unclaimed table operations layers) := by
    have hExits := accounted_history table (operations ++
      List.replicate (history table operations).1.active.below.length (.exit layers))
    have hTracker := foldl_exit (history table operations).1 (history table operations).2 layers
      (history table operations).1.active.below.length
    rw [← hTracker]
    unfold unclaimed
    rw [show history table (operations ++ _) = _ from List.foldl_append] at hExits ⊢
    exact hExits
  have hEnd (layers : Layers) :=
    ((hLeft layers).reports (reports_evaluateUnused _ 0 layers.unusedPolicy
    false)).reports (reports_evaluateGlobals _ layers.unusedPolicy)
  refine ⟨h.uses, fun name r hr => ?_, fun name kind line column layers => ?_,
    fun layers => h.takes_exit layers, h.quiet, fun layers => ?_, fun layers => ?_⟩
  · rw [h.uses] at hr
    exact h.free (name, r) (mem_usesOf.mp hr)
  · dsimp only
    split
    · next hAnew => exact h.takes_declare name kind line column layers hAnew
    · next hAnew =>
      exact declare_of_not_bindsAnew _ name kind line column layers (Bool.eq_false_iff.mpr hAnew)
  · dsimp only
    unfold finish
    dsimp only
    rw [(hEnd layers).entries, findings_foldl_reportUndefined, List.filter_append]
    have hBefore := List.filter_eq_nil_iff.mpr fun f hf =>
      Bool.eq_false_iff.mp ((hEnd layers).quiet f hf)
    rw [hBefore, List.nil_append, List.flatMap_map]
    refine List.filter_eq_self.mpr fun f hf => ?_
    obtain ⟨name, -, hName⟩ := List.mem_flatMap.mp hf
    obtain ⟨r, -, rfl⟩ := List.mem_map.mp hName
    rfl
  · dsimp only
    unfold finish
    dsimp only
    rw [(hEnd layers).entries, List.filterMap_map]
    rfl

end ScriptLint.Scope
