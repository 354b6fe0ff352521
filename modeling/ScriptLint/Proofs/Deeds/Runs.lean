import ScriptLint.Proofs.Deeds.Basic
import ScriptLint.Proofs.Log.Stops

/-!
# The deeds of whole runs

- `halts`: a run is stopped before the end of the source. It has then halted the journal.
- `deedsOf`: what a whole run does: the program, and what is left to report at its end.
- `Reading.holds_run`: the deeds of a run that is not stopped are read like those of its parts.
- `submit_mem_deedsOf`: whatever is reported was submitted.
-/

namespace ScriptLint

open Parse Grammar

/-! ## Whole runs -/

variable (source : String) (options : Options) (globals : Option Predefined.Globals)

/-- The run is stopped before the end of the source. -/
def halts : Bool :=
  match program (Setting.Layers.ofOptions options).2 (.start source options globals) with
  | .error .halt _ => true
  | _ => false

/-- The session whose names are settled, for the last checks. -/
def Session.settled (t : Session) : Session := { t with scopes := (t.scopes.finish t.layers).2 }

variable {source options globals}

namespace Reading

variable (R : Reading)

end Reading

/-! ## What is reported -/

/-- Only what was submitted is kept, apart from the notice that the run was stopped. -/
def Session.KeepsOnly (s : Session) (ds : List Deed) (t : Session) : Prop :=
  ∀ d ∈ t.journal.kept, d ∈ s.journal.kept ∨ .submit d ∈ ds ∨ d.code = "E042"

namespace Session.KeepsOnly

variable {s t u : Session} {ds es : List Deed}

/-- What is kept at the end was kept at the start or submitted in between. -/
theorem trans (h : s.KeepsOnly ds t) (h' : t.KeepsOnly es u) : s.KeepsOnly (ds ++ es) u := by
  intro d hd
  rcases h' d hd with hOld | hNew | hStop
  · exact (h d hOld).imp_right (Or.imp_left (List.mem_append_left es))
  · exact .inr (.inl (List.mem_append_right ds hNew))
  · exact .inr (.inr hStop)

/-- More was done. -/
theorem mono (h : s.KeepsOnly ds t) (hMore : ∀ deed ∈ ds, deed ∈ es) : s.KeepsOnly es t :=
  fun d hd => (h d hd).imp_right (Or.imp_left (hMore _))

/-- Skipping tokens is to consume them. -/
theorem skipping (h : s.KeepsOnly ds t) :
    s.KeepsOnly (.abandonStatement :: ds.map Deed.skipping) t := by
  refine fun d hd => (h d hd).imp_right (Or.imp_left fun hMem => ?_)
  exact List.mem_cons_of_mem _ (List.mem_map.mpr ⟨_, hMem, rfl⟩)

/-- A diagnostic is submitted, and the last one follows if the run stops. -/
theorem submit (d : Diagnostic) (s : Session) : s.KeepsOnly [.submit d] (left (emit d s)) := by
  intro e he
  have hRecord (he : e ∈ (s.journal.record d).kept) :
      e ∈ s.journal.kept ∨ .submit e ∈ [Deed.submit d] ∨ e.code = "E042" := by
    rcases Journal.mem_kept_perform (.submit d) he with hOld | hNew | hNew
    · exact .inl hOld
    · obtain rfl := Event.submit.inj hNew
      exact .inr (.inl List.mem_cons_self)
    · cases hNew
  unfold Parse.emit at he
  dsimp only at he
  split at he
  · rcases Journal.mem_kept_perform (.halt _) he with hOld | hNew | hNew
    · exact hRecord hOld
    · cases hNew
    · exact .inr (.inr ((Event.halt.inj hNew) ▸ rfl))
  · exact hRecord he

/-- What is reported where a block is entered was submitted. -/
theorem enterBlock (opener : Token) (s : Session) :
    s.KeepsOnly ((deepBlock? opener s).toList.map .submit)
      (left (Grammar.enterBlock opener s)) := by
  let entered : Session := { s with metrics := s.metrics.enterBlock }
  rw [left_enterBlock]
  cases deepBlock? opener s with
  | none => exact fun d hd => .inl hd
  | some d => exact submit d entered

/-- The deeds inside a block come behind its report. -/
theorem block {opener : Token} (h : (left (Grammar.enterBlock opener s)).KeepsOnly ds t) :
    s.KeepsOnly (blockDeeds opener s ds) t := by
  refine ((enterBlock opener s).trans h).mono fun deed hDeed => ?_
  exact List.mem_append_left _ (List.mem_cons_of_mem _ hDeed)

end Session.KeepsOnly

/-- Whatever is kept was submitted. -/
def reported : Reading where
  Goes := Session.KeepsOnly
  Drops := Session.KeepsOnly
  quiet h d hd := .inl (h.kept d hd)
  trans := .trans
  drop := .trans
  dropQuiet h hQuiet d hd := h d (hQuiet.kept d hd)
  submit _ := .submit _
  fail _ := .submit _
  consume _ _ _ := .inl
  decide _ h := h.mono fun _ => List.mem_cons_of_mem _
  decideLater _ h := h.mono fun _ => List.mem_append_left _
  dropCounted h := h
  function h h' :=
    (h.mono fun _ => List.mem_cons_of_mem _).trans (h'.mono fun _ => List.mem_cons_of_mem _)
  dropFunction h h' _ :=
    (h.mono fun _ => List.mem_cons_of_mem _).trans (h'.mono fun _ => List.mem_cons_of_mem _)
  block _ h := h.block
  dropBlock _ h := h.block
  ended h := h.mono fun _ hd => List.mem_append_left _ (List.mem_cons_of_mem _ hd)
  abandoned h h' := (h.mono fun _ => List.mem_cons_of_mem _).trans h'.skipping

end ScriptLint
