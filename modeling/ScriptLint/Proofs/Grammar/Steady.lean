import ScriptLint.Proofs.Grammar.Passing

/-!
# Steps that open nothing

The steps of the grammar read tokens, note names and report findings. They neither open nor close
anything, and only a guard of the grammar may end a run with an unrecoverable error.

- `Session.Undisturbed`: what is open and what is counted at a place stays.
- `Session.Steady`: besides, nothing unrecoverable enters the journal.
- `steady_steps`: every step is steady.
-/

namespace ScriptLint

/-! ## Steady changes -/

namespace Scope.Tracker

/-- The findings that were not forwarded yet are about the meaning of the program. -/
def Calm (t : Tracker) : Prop := ∀ f ∈ t.findings, f.finding.isRemark

/-- Scopes that evolve stay calm. -/
theorem Calm.evolves {t u : Tracker} (ht : t.Calm) (h : t.Evolves u) : u.Calm :=
  fun f hf => (h.findings f hf).elim (ht f) id

/-- Leaving a frame forgets no finding and makes only such findings. -/
theorem Calm.exit {t : Tracker} (h : t.Calm) (layers : Setting.Layers) : (t.exit layers).Calm :=
  fun f hf => (t.findings_exit layers f hf).elim (h f) id

/-- So does the end of a run. -/
theorem Calm.finish {t : Tracker} (h : t.Calm) (layers : Setting.Layers) :
    (t.finish layers).2.Calm := by
  refine Calm.evolves (fun f hf => ?_) (t.evolves_finish layers)
  exact (t.findings_exitMany layers _ f hf).elim (h f) id

end Scope.Tracker

namespace Session

/-- What is open and what is counted at the current place stays. -/
structure Undisturbed (s t : Session) : Prop where
  scopes : s.scopes.Evolves t.scopes
  overlays : t.layers.depth = s.layers.depth
  contexts : t.contexts.below = s.contexts.below
  overlayOpen : t.context.overlayOpen = s.context.overlayOpen
  loops : t.context.loopDepth = s.context.loopDepth
  functions : t.metrics.opened.below = s.metrics.opened.below
  blocks : t.metrics.depth = s.metrics.depth
  noIn : t.noIn = s.noIn
  nesting : t.nesting = s.nesting
  sourceLength : t.sourceLength = s.sourceLength

/-- Where a step of the grammar goes on, as far as it does not depend on the scopes. -/
def surroundings (s : Session) : Setting.Layers × Stack Context × Metrics × Bool × Nat × Nat :=
  (s.layers, s.contexts, s.metrics, s.noIn, s.nesting, s.sourceLength)

/-- Nothing is disturbed where the scopes evolve and the surroundings stay. -/
theorem Undisturbed.of_eq {s t : Session} (scopes : s.scopes.Evolves t.scopes)
    (h : t.surroundings = s.surroundings) : s.Undisturbed t := by
  simp only [surroundings, Prod.mk.injEq] at h
  obtain ⟨layers, contexts, metrics, noIn, nesting, sourceLength⟩ := h
  exact {
    scopes
    overlays := layers ▸ rfl
    contexts := contexts ▸ rfl
    overlayOpen := congrArg (·.top.overlayOpen) contexts
    loops := congrArg (·.top.loopDepth) contexts
    functions := metrics ▸ rfl
    blocks := metrics ▸ rfl
    noIn
    nesting
    sourceLength }

/-- Equal scopes and surroundings are undisturbed. -/
theorem Undisturbed.of_same {s t : Session} (h : (t.scopes, t.surroundings) =
    (s.scopes, s.surroundings)) : s.Undisturbed t := by
  obtain ⟨hScopes, hRest⟩ := Prod.mk.inj h
  exact .of_eq (hScopes ▸ .silent rfl) hRest

/-- Being undisturbed is transitive. -/
theorem Undisturbed.trans {s t u : Session} (h : s.Undisturbed t) (h' : t.Undisturbed u) :
    s.Undisturbed u where
  scopes := h.scopes.trans h'.scopes
  overlays := h'.overlays.trans h.overlays
  contexts := h'.contexts.trans h.contexts
  overlayOpen := h'.overlayOpen.trans h.overlayOpen
  loops := h'.loops.trans h.loops
  functions := h'.functions.trans h.functions
  blocks := h'.blocks.trans h.blocks
  noIn := h'.noIn.trans h.noIn
  nesting := h'.nesting.trans h.nesting
  sourceLength := h'.sourceLength.trans h.sourceLength

/-- Nothing is disturbed, and with calm scopes nothing unrecoverable enters the journal. -/
structure Steady (s t : Session) : Prop extends s.Undisturbed t where
  journal : s.scopes.Calm → s.journal.Grows t.journal

/-- Steadiness is transitive. -/
theorem Steady.trans {s t u : Session} (h : s.Steady t) (h' : t.Steady u) : s.Steady u :=
  ⟨h.toUndisturbed.trans h'.toUndisturbed,
    fun hs => (h.journal hs).trans (h'.journal (hs.evolves h.scopes))⟩

theorem Steady.quiet {s t : Session} (h : s.Undisturbed t)
    (journal : t.journal = s.journal) : s.Steady t :=
  ⟨h, fun _ => journal ▸ .refl _⟩

end Session

/-- Only the journal changes, and under the condition nothing unrecoverable enters it. -/
def Session.Records (c : Prop) (s t : Session) : Prop :=
  ∃ j, t = { s with journal := j } ∧ (c → s.journal.Grows j)

theorem Session.Records.refl (c : Prop) (s : Session) : s.Records c s := ⟨_, rfl, fun _ => .refl _⟩

/-- Recording is transitive. -/
theorem Session.Records.trans {c : Prop} {s t u : Session} :
    s.Records c t → t.Records c u → s.Records c u := by
  rintro ⟨j, rfl, hj⟩ ⟨k, rfl, hk⟩
  exact ⟨k, rfl, fun hc => (hj hc).trans (hk hc)⟩

/-- The contract to do nothing but record diagnostics. -/
def recording (c : Prop) : Contract where
  Goes := Session.Records c
  Stops := Session.Records c
  refl := .refl c
  trans := .trans
  stop := .trans

/-- The contract to be steady. -/
def steady : Contract where
  Goes := Session.Steady
  Stops := Session.Steady
  refl _ := .quiet (.of_same rfl) rfl
  trans := .trans
  stop := .trans

namespace Parse

/-- A change that touches nothing of what is open, counted or reported. -/
theorem steady_modify {f : Session → Session} (h : ∀ s : Session, s.Undisturbed (f s))
    (hj : ∀ s, (f s).journal = s.journal) : steady.Keeps (modify f) :=
  steady.modify fun s => .quiet (h s) (hj s)

/-- A report is recorded. -/
theorem recording_emit {c : Prop} (d : Diagnostic) (h : c → d.code ≠ "E041") :
    (recording c).Keeps (emit d) := by
  intro s
  unfold emit
  dsimp only
  split
  · refine ⟨_, rfl, fun hc => (Journal.Grows.record _ (h hc)).trans (.halt _ ?_)⟩
    exact ne_of_beq_false rfl
  · exact ⟨_, rfl, fun hc => .record _ (h hc)⟩

/-- A report disturbs nothing. -/
theorem steady_emit {d : Diagnostic} (h : d.code ≠ "E041") : steady.Keeps (emit d) := by
  have hSteady (s t : Session) : s.Records True t → s.Steady t := by
    rintro ⟨j, rfl, hj⟩
    exact ⟨.of_same rfl, fun _ => hj trivial⟩
  exact (recording_emit d fun _ => h).imp hSteady hSteady

/-- Findings are forwarded one after another; each is ordinary if the scopes were calm. -/
theorem steady_flushScopes : steady.Keeps flushScopes := by
  intro s
  have hAll : (recording s.scopes.Calm).Keeps
      (s.scopes.findings.forM fun f => warnAt f.finding f.line f.column) := by
    refine Contract.forM _ fun f hf => recording_emit _ fun hs => ?_
    exact Finding.code_ne_of_isOrdinary (Finding.isOrdinary_of_isRemark (hs f hf))
  have hCleared : s.Undisturbed { s with scopes := { s.scopes with findings := [] } } :=
    .of_eq ⟨rfl, fun _ hf => absurd hf List.not_mem_nil⟩ rfl
  have hSteady (t : Session) :
      Session.Records s.scopes.Calm { s with scopes := { s.scopes with findings := [] } } t →
        s.Steady t := by
    rintro ⟨j, rfl, hj⟩
    exact ⟨hCleared.trans (.of_same rfl), hj⟩
  exact (hAll { s with scopes := { s.scopes with findings := [] } }).imp hSteady hSteady

end Parse

/-- Steadiness lets every step of a parser pass. -/
theorem steady_passable : steady.Passable where
  emit h := Parse.steady_emit h.code_ne
  moved := by
    rintro s t ⟨_, _, _, _, _, _, _, rfl⟩
    exact .quiet (.of_same rfl) rfl
  layers h := .quiet
    ⟨.silent rfl, Setting.Layers.depth_of_set h, rfl, rfl, rfl, rfl, rfl, rfl, rfl, rfl⟩ rfl
  scopes h := .quiet (.of_eq h rfl) rfl
  ignores h := ⟨.of_same rfl, fun _ => h.grows⟩

/-- The steps of the grammar are steady. -/
theorem steady_steps : steady.Steppable where
  toPassable := steady_passable
  flushScopes := Parse.steady_flushScopes
  count _ :=
    Parse.steady_modify (fun _ => ⟨.silent rfl, rfl, rfl, rfl, rfl, rfl, rfl, rfl, rfl, rfl⟩)
    fun _ => rfl
  setHint _ := Parse.steady_modify (fun _ => .of_same rfl) fun _ => rfl
  makeStrict :=
    Parse.steady_modify (fun _ => ⟨.silent rfl, rfl, rfl, rfl, rfl, rfl, rfl, rfl, rfl, rfl⟩)
    fun _ => rfl

/-! ## Blocks and functions -/

namespace Grammar

open Parse

/-- Entering a block counts it; reporting its depth may stop the run. -/
theorem enterBlock_run (opener : Token) (s : Session) : ∃ j, s.journal.Grows j ∧
    (enterBlock opener s = .ok () { s with metrics := s.metrics.enterBlock, journal := j } ∨
    enterBlock opener s =
      .error .halt { s with metrics := s.metrics.enterBlock, journal := j }) := by
  let entered := { s with metrics := s.metrics.enterBlock }
  let d := (Finding.nestedTooDeeply entered.metrics.depth).diagnostic opener.line opener.column
  have hRun : enterBlock opener s =
      if (entered.layers.limit? .maxdepth).any (entered.metrics.depth == depthBeyond ·) then
        emit d entered
      else .ok () entered := by
    show (if _ then _ else _ : Parse Unit) entered = _
    split <;> rfl
  have hCode : d.code ≠ "E041" := ne_of_beq_false rfl
  rw [hRun]
  split
  · unfold emit
    dsimp only
    split
    · exact ⟨_, (Journal.Grows.record _ hCode).trans (.halt _ (ne_of_beq_false rfl)), .inr rfl⟩
    · exact ⟨_, .record _ hCode, .inl rfl⟩
  · exact ⟨_, .refl _, .inl rfl⟩

/-- Findings about a function's size are remarks. -/
theorem isRemark_of_metricFindings {layers : Setting.Layers} {m : FunctionMetrics} {f : Finding}
    (h : f ∈ metricFindings layers m) : f.isRemark := by
  simp only [metricFindings, List.mem_append, List.mem_ite_nil_right, List.mem_singleton] at h
  obtain (⟨-, rfl⟩ | ⟨-, rfl⟩) | ⟨-, rfl⟩ := h <;> rfl

/-- Reporting on a function that was closed disturbs nothing. -/
theorem closeFunction_ends (line column : Nat) : (closeFunction line column).Ends
    (fun t u => (withoutFunction t).Steady u) fun t u => (withoutFunction t).Steady u := by
  intro t
  have hReports : steady.Keeps (do
      (metricFindings t.layers t.metrics.current).forM fun f => warnAt f line column
      Parse.flushScopes) := by
    refine steady.bind (steady.forM fun f hf => ?_) fun _ => steady_flushScopes
    exact steady_passable.warnAt _ _
      (Finding.isOrdinary_of_isRemark (isRemark_of_metricFindings hf))
  exact hReports (withoutFunction t)

end Grammar

end ScriptLint
