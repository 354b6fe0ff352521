import ScriptLint.Proofs.Isolation.Steps
import ScriptLint.Proofs.Nesting

/-!
# Options are isolated

A setting that decides about codes decides about nothing else: two runs over the same source whose
options differ in that setting report the same but for those codes. There is one exception. With
`passfail` on, what the setting governs may stop one of the runs, and a run whose halt was masked
may even lose the diagnostic that says so.

- `isolating`: the congruence of parsers that keep two such runs abreast.
- `Journal.Muted`: a halted journal that does not show that it was.
- `options_isolated`: the reports of two runs neither of which is stopped by `passfail`.
-/

namespace ScriptLint

open Parse Grammar

/-- The place of the parser and what depends on the setting. -/
def Session.core (s : Session) : Token × Token × TokenStream × Nat × Nat ×
    Setting.Layers × Scope.Tracker × Journal × Option Char :=
  (s.token, s.previous, s.stream, s.sourceLength, s.consumed, s.layers, s.scopes, s.journal,
    s.firstQuote)

namespace Parse

variable {α : Type} {p : Setting} {a b : Parse α} {s s' : Session}

/-! ## What is opened and left -/

/-- A change of what neither the place of the parser nor the setting has to do with. -/
theorem smooth_of_apart {f : Session → Session}
    (h : ∀ (s : Session) stream layers scopes journal firstQuote,
      f { s with stream, layers, scopes, journal, firstQuote } =
        { f s with stream, layers, scopes, journal, firstQuote })
    (hCore : ∀ s, (f s).core = s.core) : Smooth p f := by
  have hSame (s : Session) := hCore s
  simp only [Session.core, Prod.mk.injEq] at hSame
  refine ⟨fun s => ?_, fun s => ?_, ?_⟩
  · obtain ⟨-, -, -, -, -, -, hScopes, hJournal, -⟩ := hSame s
    exact Session.lasts_of_same (by rw [hScopes, hJournal])
  · obtain ⟨hToken, hPrevious, hStream, hLength, hConsumed, -⟩ := hSame s
    exact ⟨hToken, hPrevious, hStream, hLength, hConsumed⟩
  · rintro s s' ⟨stream, layers, scopes, journal, firstQuote, rfl, hl, ht, hj, hq⟩
    obtain ⟨-, -, -, -, -, hLayers, hScopes, hJournal, hQuote⟩ := hSame s
    exact ⟨stream, layers, scopes, journal, firstQuote, h s _ _ _ _ _, hLayers ▸ hl, hScopes ▸ ht,
      hJournal ▸ hj, hQuote ▸ hq⟩

/-- Entering a frame is the same change in both runs. -/
theorem smooth_enter (kind : Scope.FrameKind) :
    Smooth p fun s => { s with scopes := s.scopes.enter kind } where
  lasts s := Session.lasts (fun hs => hs) id fun _ => .refl _
  placed _ := ⟨rfl, rfl, rfl, rfl, rfl⟩
  alongside := by
    rintro s s' ⟨stream, layers, scopes, journal, firstQuote, rfl, hl, ht, hRest⟩
    exact ⟨stream, layers, _, journal, firstQuote, rfl, hl,
      ht.map (f := (·.enter kind)) fun _ => rfl, hRest⟩

theorem smooth_exit : Smooth p fun s => { s with scopes := s.scopes.exit s.layers } where
  lasts s := Session.lasts (·.exit s.layers) id fun _ => .refl _
  placed _ := ⟨rfl, rfl, rfl, rfl, rfl⟩
  alongside := by
    rintro s s' ⟨stream, layers, scopes, journal, firstQuote, rfl, hl, ht, hRest⟩
    exact ⟨stream, layers, _, journal, firstQuote, rfl, hl, ht.exit hl, hRest⟩

theorem smooth_withFunction (kind : FunctionKind) (name : Option String) (line column : Nat) :
    Smooth p fun s => withFunction s kind name line column where
  lasts s := Session.lasts (fun hs => hs) id fun _ => .refl _
  placed _ := ⟨rfl, rfl, rfl, rfl, rfl⟩
  alongside := by
    rintro s s' ⟨stream, layers, scopes, journal, firstQuote, rfl, hl, ht, hRest⟩
    exact ⟨stream, layers, _, journal, firstQuote, rfl, hl,
      ht.map (f := (·.enter .function)) fun _ => rfl, hRest⟩

/-- So is leaving a function. -/
theorem smooth_withoutFunction : Smooth p withoutFunction where
  lasts s := Session.lasts (·.exit s.layers) id fun _ => .refl _
  placed _ := ⟨rfl, rfl, rfl, rfl, rfl⟩
  alongside := by
    rintro s s' ⟨stream, layers, scopes, journal, firstQuote, rfl, hl, ht, hRest⟩
    refine ⟨stream, _, _, journal, firstQuote, rfl, ?_, ht.exit hl, hRest⟩
    show Setting.Layers.Agree p.affects (if s.context.overlayOpen then s.layers.pop else s.layers)
      (if s.context.overlayOpen then layers.pop else layers)
    split
    · exact hl.pop
    · exact hl

theorem parallel_openOverlay : Parallel p (Session.Abreast p) openOverlay openOverlay := by
  refine .smooth ⟨fun _ => Session.lasts_of_same rfl, fun _ => ⟨rfl, rfl, rfl, rfl, rfl⟩, ?_⟩
  rintro s s' ⟨stream, layers, scopes, journal, firstQuote, rfl, hl, hRest⟩
  exact ⟨stream, _, scopes, journal, firstQuote, rfl, hl.push, hRest⟩

/-- A frame is entered and left in both runs. -/
theorem parallel_withFrame (kind : Scope.FrameKind) (h : Parallel p (Session.Abreast p) a b) :
    Parallel p (Session.Abreast p) (withFrame kind a) (withFrame kind b) :=
  .around (smooth_enter kind) smooth_exit h

/-- Both runs enter the block. -/
theorem parallel_enterBlock (hp : p.governs ≠ []) (opener : Token) :
    Parallel p (Session.Abreast p) (enterBlock opener) (enterBlock opener) := by
  let K := abreast p hp
  refine K.bind (.smooth (smooth_of_apart (fun _ _ _ _ _ _ => rfl) fun _ => rfl)) fun _ => ?_
  refine K.read fun s _ ⟨u, hs, hu⟩ => ?_
  subst hs
  refine (K.optional_warnAt (s := .maxdepth) opener.line opener.column rfl).gate fun hHidden => ?_
  rw [Session.withUnseen, Setting.Layers.limit?, Setting.Layers.limit?, hu .maxdepth hHidden]

/-- What stands inside a block runs in parallel. -/
theorem parallel_insideBlock (hp : p.governs ≠ []) (opener : Token)
    (h : Parallel p (Session.Abreast p) a b) :
    Parallel p (Session.Abreast p) (insideBlock opener a) (insideBlock opener b) :=
  .bind (parallel_enterBlock hp opener) fun _ => .ensuring (parallel_withFrame .block h)
    (smooth_of_apart (fun _ _ _ _ _ _ => rfl) fun _ => rfl)

/-! ## Closing functions -/

/-- The limits give the same findings but for those that the setting governs. -/
theorem metricFindings_of_agree {layers layers' : Setting.Layers}
    (h : Setting.Layers.Agree p.affects layers layers') (m : FunctionMetrics) :
    (metricFindings layers' m).filter (p.spares ·.code) =
      (metricFindings layers m).filter (p.spares ·.code) := by
  have hEach (limit : Setting) (count : Nat) (f : Finding) (hf : limit.governs.contains f.code) :
      (if (layers'.limit? limit).any (· < count) then [f] else []).filter (p.spares ·.code) =
        (if (layers.limit? limit).any (· < count) then [f] else []).filter (p.spares ·.code) := by
    by_cases hs : p.affects limit
    · have hSpared : p.spares f.code = false := by
        rw [Setting.spares, Setting.governs_of_affects hs hf, Bool.not_true]
      have hNone (c : Prop) [Decidable c] :
          (if c then [f] else []).filter (p.spares ·.code) = [] := by
        split
        · rw [List.filter_cons, hSpared]
          rfl
        · rfl
      rw [hNone, hNone]
    · rw [h.limit? hs]
  unfold metricFindings
  simp only [List.filter_append]
  rw [hEach .maxstatements _ _ rfl, hEach .maxparams _ _ rfl, hEach .maxcomplexity _ _ rfl]

/-- Closing a function leaves a run as calm as it was. -/
theorem lasting_closeFunction (line column : Nat) : lasting.Keeps (closeFunction line column) := by
  refine lasting.readAt fun s => lasting.setAt (smooth_withoutFunction (p := .undef).lasts s) ?_
  refine lasting.bind (lasting.forM fun f hf => ?_) fun _ => lasting_step .flushScopes
  exact lasting_passable.warnAt _ _ (Finding.isOrdinary_of_isRemark (isRemark_of_metricFindings hf))

/-- What is reported when a function is closed, whatever is ahead. -/
theorem parallel_closeFunction (hp : p.governs ≠ []) (line column : Nat) :
    Parallel p (Session.Alongside p) (closeFunction line column) (closeFunction line column) := by
  refine ⟨lasting_closeFunction line column, lasting_closeFunction line column,
    fun s s' hs hTame hTame' => ?_⟩
  have hFindings : (metricFindings s'.layers s'.metrics.current).filter (p.spares ·.code) =
      (metricFindings s.layers s.metrics.current).filter (p.spares ·.code) := by
    obtain ⟨_, _, _, _, _, rfl, hl, -⟩ := hs
    exact metricFindings_of_agree hl _
  have hReports : Parallel p (Session.Alongside p)
      (do
        (metricFindings s.layers s.metrics.current).forM fun f => warnAt f line column
        flushScopes)
      (do
        (metricFindings s'.layers s'.metrics.current).forM fun f => warnAt f line column
        flushScopes) := by
    refine .bind ((alongside p hp).reports (p.spares ·.code) (fun f hf => ?_) (fun f hf => ?_)
      (fun f hf => ?_) hFindings) fun _ => parallel_flushScopes hp
    · exact (alongside p hp).warnAt _ _ _
        (Finding.isLocal_of_isRemark (isRemark_of_metricFindings hf))
    · exact parallel_emit_quiet (Setting.governs_of_spares hf)
    · exact (parallel_emit_quiet (Setting.governs_of_spares hf)).symm fun _ _ => (·.symm)
  have hClosed : Smooth p withoutFunction := smooth_withoutFunction
  exact hReports.meets _ _ (hClosed.alongside hs) ((hClosed.lasts s).1 hTame)
    ((hClosed.lasts s').1 hTame')

/-- The sessions with which two runs end. -/
theorem Meets.lefts {R : Session → Session → Prop} {r r' : EStateM.Result Abort Session α}
    (hR : ∀ t t', R t t' → t.Alongside p t') (h : Meets p R r r') :
    (Parse.left r).Ended ∨ (Parse.left r').Ended ∨ (Parse.left r).Alongside p (Parse.left r') := by
  cases h with
  | left h => exact .inl h
  | right h => exact .inr (.inl h)
  | ok h => exact .inr (.inr (hR _ _ h))
  | giveUp h => exact .inr (.inr (hR _ _ h))
  | halt h => exact .inr (.inr h)

/-- A run that ended inside a function has ended behind it. -/
theorem ended_insideFunction {kind : FunctionKind} {name : Option String} {line column : Nat}
    (h : (Parse.left (a (withFunction s kind name line column))).Ended) :
    (Parse.left (insideFunction kind name line column a s)).Ended := by
  cases hr : a (withFunction s kind name line column) with
  | ok x t =>
    rw [hr] at h
    rw [insideFunction_of_ok hr]
    exact (lasting.bind (lasting_closeFunction line column) (fun _ => lasting.pure x) t).left.2 h
  | error e t =>
    rw [hr] at h
    rw [insideFunction_of_error hr]
    exact (lasting_closeFunction line column t).left.2 h

/-- Functions are closed whatever became of them; if closing one stops a run, that run has ended,
also where its halt is masked. -/
theorem parallel_insideFunction (hp : p.governs ≠ []) (kind : FunctionKind) (name : Option String)
    (line column : Nat) (h : Parallel p (Session.Abreast p) a b) :
    Parallel p (Session.Abreast p) (insideFunction kind name line column a)
      (insideFunction kind name line column b) := by
  have hOpen : Smooth p fun s => withFunction s kind name line column :=
    smooth_withFunction kind name line column
  have hClose (t : Session) := lasting_closeFunction line column t
  have hKeeps {a : Parse α} (ha : lasting.Keeps a) :
      lasting.Keeps (insideFunction kind name line column a) := by
    intro s
    have hAfter (t : Session) (ht : lasting.Goes (withFunction s kind name line column) t) :
        Settles (lasting.Goes s) (lasting.Goes s) (closeFunction line column t) :=
      (hClose t).imp (fun _ hu => lasting.trans (hOpen.lasts s) (lasting.trans ht hu))
        fun _ hu => lasting.trans (hOpen.lasts s) (lasting.trans ht hu)
    exact (ha (withFunction s kind name line column)).insideFunction hAfter hAfter fun _ => id
  -- both runs open the function, read its parts and close it, whatever came of the parts
  refine ⟨hKeeps h.left, hKeeps h.right, fun s s' hs hTame hTame' => ?_⟩
  have hParts :=
    h.meets _ _ (hOpen.abreast hs) ((hOpen.lasts s).1 hTame) ((hOpen.lasts s').1 hTame')
  have hLeft := h.left (withFunction s kind name line column)
  have hRight := h.right (withFunction s' kind name line column)
  generalize hr : a (withFunction s kind name line column) = r,
    hr' : b (withFunction s' kind name line column) = r' at hParts hLeft hRight
  cases hParts with
  | left hEnded => exact .left (ended_insideFunction (hr ▸ hEnded))
  | right hEnded => exact .right (ended_insideFunction (hr' ▸ hEnded))
  | @ok x t t' ht =>
    rw [insideFunction_of_ok hr, insideFunction_of_ok hr']
    have hPlaced := (placed_of_standing (standing_closeFunction line column)).keeps
    have hClosed := (parallel_closeFunction hp line column).of_placed hPlaced hPlaced
    exact (hClosed.bind fun _ => .pure x).meets t t' ht (hLeft.1 ((hOpen.lasts s).1 hTame))
      (hRight.1 ((hOpen.lasts s').1 hTame'))
  -- where the parts gave up or halted, the function is still closed in both runs
  | @giveUp t t' ht =>
    rw [insideFunction_of_error hr, insideFunction_of_error hr']
    have hPlaced (t : Session) :=
      (placed_of_standing (standing_closeFunction line column) t).settles.left
    have hClosed := (parallel_closeFunction hp line column).meets t t' ht.alongside
      (hLeft.1 ((hOpen.lasts s).1 hTame)) (hRight.1 ((hOpen.lasts s').1 hTame'))
    rcases hClosed.lefts fun _ _ => id with hEnded | hEnded | hAlongside
    · exact .left hEnded
    · exact .right hEnded
    · exact .giveUp ⟨hAlongside, ht.facing.placed (hPlaced t) (hPlaced t')⟩
  | @halt t t' ht =>
    rw [insideFunction_of_error hr, insideFunction_of_error hr']
    have hClosed := (parallel_closeFunction hp line column).meets t t' ht
      (hLeft.1 ((hOpen.lasts s).1 hTame)) (hRight.1 ((hOpen.lasts s').1 hTame'))
    rcases hClosed.lefts fun _ _ => id with hEnded | hEnded | hAlongside
    · exact .left hEnded
    · exact .right hEnded
    · exact .halt hAlongside

/-! ## Levels -/

/-- The guard strikes in both runs at the same place. -/
theorem parallel_tooDeep : Parallel p (Session.Abreast p) (tooDeep : Parse α) tooDeep := by
  have hKeeps : lasting.Keeps (tooDeep : Parse α) := by
    intro s
    refine ⟨fun hs => ⟨hs.calm, fun hOpen => ?_⟩, fun hs => ?_⟩
    · exact absurd (Journal.halted_halt _ _) (Bool.eq_false_iff.mp hOpen)
    · have hSame (last : Diagnostic) : s.journal.halt last = s.journal := if_pos hs.halted
      refine ⟨hs.calm, ?_, ?_⟩
      · exact Journal.halted_halt _ _
      · dsimp only
        rw [hSame]
        exact hs.kept
  refine ⟨hKeeps, hKeeps, fun s s' hs _ _ => ?_⟩
  obtain ⟨stream, layers, scopes, journal, firstQuote, rfl, hl, ht, hj, hq⟩ := hs.alongside
  exact .halt ⟨stream, layers, scopes, _, firstQuote, rfl, hl, ht, hj.halt _, hq⟩

/-- One level deeper, or both runs are too deep. -/
theorem parallel_deeper (hp : p.governs ≠ []) (h : Parallel p (Session.Abreast p) a b) :
    Parallel p (Session.Abreast p) a.deeper b.deeper := by
  let K := abreast p hp
  have hLevel {f : Nat → Nat} : Smooth p fun s => { s with nesting := f s.nesting } :=
    smooth_of_apart (fun _ _ _ _ _ _ => rfl) fun _ => rfl
  refine K.read fun s _ ⟨u, hs, _⟩ => ?_
  subst hs
  exact K.ite _ (.around (hLevel (f := (· + 1))) (hLevel (f := (· - 1))) h) parallel_tooDeep

end Parse

namespace Grammar

variable {p : Setting}

/-- Every step of the grammar runs alike. -/
theorem parallel_step (hp : p.governs ≠ []) {α : Type} {a : Parse α} (h : Step a) :
    Parallel p (Session.Abreast p) a a := by
  cases h with
  | warnAt f line column h => exact (abreast p hp).warnAt f line column h
  | failAt f t h =>
    exact .bind ((abreast p hp).warn f t (isLocal_of_givesUp h)) fun _ => .giveUp
  | advance => exact parallel_advance hp
  | advanceToStatement => exact parallel_advanceToStatement hp
  | peekIs test _ => exact .bind (parallel_peek 0) fun _ => .pure _
  | peekArrowAfterNext => exact .bind (parallel_peek 1) fun _ => .pure _
  | startsArrow => exact parallel_startsArrow
  | count f => exact .smooth (smooth_of_apart (fun _ _ _ _ _ _ => rfl) fun _ => rfl)
  | names h =>
    exact (parallel_nameStep h).of_placed (placed_modifyScopes _).keeps
      (placed_modifyScopes _).keeps
  | flushScopes =>
    have hPlaced := (placed_of_standing standing_flushScopes).keeps
    exact (parallel_flushScopes hp).of_placed hPlaced hPlaced
  | setHint name => exact .smooth (smooth_of_apart (fun _ _ _ _ _ _ => rfl) fun _ => rfl)
  | makeStrict => exact .smooth (smooth_of_apart (fun _ _ _ _ _ _ => rfl) fun _ => rfl)
  | checkFiltered t => exact parallel_checkFiltered hp t

/-- A round of the prologue looks at the token and the next one. -/
theorem parallel_prologueRound (hp : p.governs ≠ [])
    (h : ∀ t, Parallel p (Session.Abreast p) (prologueStatement t) (prologueStatement t)) :
    Parallel p (Session.Abreast p) (prologueRound ()) (prologueRound ()) := by
  let K := abreast p hp
  refine K.bind K.current fun t => K.ite _ (K.pure _) ?_
  refine K.bind (parallel_peek 0) fun _ => K.ite _ (K.pure _) ?_
  exact K.bind (h t) fun _ => K.pure _

theorem parallel_withNoIn (hp : p.governs ≠ []) {α : Type} {a b : Parse α} (noIn : Bool)
    (h : Parallel p (Session.Abreast p) a b) :
    Parallel p (Session.Abreast p) (withNoIn noIn a) (withNoIn noIn b) := by
  have hSet (noIn : Bool) : Smooth p ({ · with noIn }) :=
    smooth_of_apart (fun _ _ _ _ _ _ => rfl) fun _ => rfl
  refine (abreast p hp).read fun s _ ⟨u, hs, _⟩ => ?_
  subst hs
  exact .around (hSet noIn) (hSet s.noIn) h

/-- The two runs stay abreast. -/
def isolating (p : Setting) (hp : p.governs ≠ []) : Congruence where
  toCoherence := abreast p hp
  Parts a b := Parallel p (Session.Abreast p) a b
  step := parallel_step hp
  prologueRound := parallel_prologueRound hp
  loop := .loop
  recursive := .recursive
  recover := .recover
  clearingHint h := .ensuring h
    (smooth_of_apart (fun _ _ _ _ _ _ => rfl) fun _ => rfl)
  withNoIn := parallel_withNoIn hp
  withFrame := parallel_withFrame
  insideBlock := parallel_insideBlock hp
  insideLoop h := .around
    (smooth_of_apart (fun _ _ _ _ _ _ => rfl) fun _ => rfl)
    (smooth_of_apart (fun _ _ _ _ _ _ => rfl) fun _ => rfl) h
  parts h := h
  bindParts := (abreast p hp).bind
  partsBind := (abreast p hp).bind
  openOverlay h := .bind parallel_openOverlay h
  insideFunction := parallel_insideFunction hp

/-- By induction on the levels. -/
theorem isolating_levels (hp : p.governs ≠ []) (n : Nat) :
    (isolating p hp).Nested (levels n) (levels n) := by
  induction n with
  | zero =>
    exact ⟨parallel_tooDeep, fun _ => parallel_tooDeep, fun _ => parallel_tooDeep, parallel_tooDeep⟩
  | succ n ih =>
    have hForms := ih.forms
    exact ⟨parallel_deeper hp hForms.statement,
      fun power => parallel_deeper hp (hForms.expression power),
      fun kind => parallel_deeper hp (hForms.binding kind), parallel_deeper hp hForms.construction⟩

end Grammar

/-! ## Whole runs -/

namespace Parse

variable {p : Setting}

/-- Whole programs run in parallel. -/
theorem parallel_program (hp : p.governs ≠ []) (problems : List Setting.Problem) :
    Parallel p (Session.Abreast p) (program problems) (program problems) := by
  have hReport (problem : Setting.Problem) (line column : Nat) :
      Parallel p (Session.Abreast p) (reportProblem problem line column)
        (reportProblem problem line column) :=
    (parallel_emit hp problem.code_ne).of_placed (placed_emit _).keeps (placed_emit _).keeps
  refine .bind (.forM fun problem _ => hReport problem 0 0) fun _ => ?_
  refine .bind (parallel_advance hp) fun _ => ?_
  refine .bind (Congruence.Nested.prologue (K := isolating p hp)) fun _ => ?_
  exact (isolating p hp).discard ((isolating_levels hp maxNesting).statementList .program)

/-- The sessions in which two runs end, and the names that they settle. -/
theorem parallel_finish (hp : p.governs ≠ []) {s s' : Session} (hs : s.Alongside p s')
    (hTame : s.Tame) (hTame' : s'.Tame) :
    (left (finish s)).Ended ∨ (left (finish s')).Ended ∨
    (left (finish s)).Alongside p (left (finish s')) := by
  have hLast : Parallel p (Session.Alongside p) (lastChecks s) (lastChecks s) :=
    .bind (parallel_checkLinesBefore hp _) fun _ => parallel_flushScopes hp
  have hSame : lastChecks s' = lastChecks s := by
    obtain ⟨_, _, _, _, _, rfl, -⟩ := hs
    rfl
  have hSettled (s : Session) : lasting.Goes s { s with scopes := (s.scopes.finish s.layers).2 } :=
    Session.lasts (·.finish s.layers) id fun _ => .refl _
  have hNames : Session.Alongside p { s with scopes := (s.scopes.finish s.layers).2 }
      { s' with scopes := (s'.scopes.finish s'.layers).2 } := by
    obtain ⟨stream, layers, scopes, journal, firstQuote, rfl, hl, ht, hRest⟩ := hs
    exact ⟨stream, layers, _, journal, firstQuote, rfl, hl, (ht.finish hl).1, hRest⟩
  have hMeets := hLast.meets _ _ hNames ((hSettled s).1 hTame) ((hSettled s').1 hTame')
  have hLefts := hMeets.lefts fun _ _ => id
  rw [finish_eq, finish_eq, hSame]
  exact hLefts

/-- A run that ended has ended when it is finished. -/
theorem ended_finish {s : Session} (hs : s.Ended) : (left (finish s)).Ended := by
  have hSettled : lasting.Goes s { s with scopes := (s.scopes.finish s.layers).2 } :=
    Session.lasts (·.finish s.layers) id fun _ => .refl _
  have hLast : lasting.Keeps (lastChecks s) :=
    lasting.bind (lasting_passable.checkLinesBefore _) fun _ => lasting_step .flushScopes
  rw [finish_eq]
  exact (hLast _).left.2 (hSettled.2 hs)

end Parse

/-- The session in which a run ends. -/
def Session.final (source : String) (options : Options) (globals : Option Predefined.Globals) :
    Session :=
  left (Parse.run (Setting.Layers.ofOptions options).2 (.start source options globals))

/-- The journal was halted, and none of its diagnostics says so. -/
def Journal.Muted (j : Journal) : Prop :=
  j.halted ∧ ∀ d ∈ j.diagnostics, d.code ≠ "E041" ∧ d.code ≠ "E042"

/-- The reports agree but for what the setting governs. -/
structure Report.Matches (p : Setting) (r r' : Report) : Prop where
  diagnostics : r'.diagnostics.filter (p.spares ·.code) = r.diagnostics.filter (p.spares ·.code)
  globals : r'.globals = r.globals
  functions : r'.functions = r.functions
  implied : p ≠ .undef → r'.implied = r.implied
  unused : p ≠ .unused → r'.unused = r.unused

/-- Sessions alongside each other end in matching reports. -/
theorem Session.Alongside.report {p : Setting} {s s' : Session} (h : s.Alongside p s')
    {names names' : Scope.Outcome} (hGlobals : names'.globals = names.globals)
    (hImplied : p ≠ .undef → names'.implied = names.implied)
    (hUnused : p ≠ .unused → names'.unused = names.unused) :
    (s.report names).Matches p (s'.report names') := by
  obtain ⟨_, _, _, journal, _, rfl, -, -, hj, -⟩ := h
  refine ⟨?_, hGlobals, rfl, hImplied, hUnused⟩
  show journal.kept.reverse.filter _ = s.journal.kept.reverse.filter _
  rw [List.filter_reverse, List.filter_reverse, hj.kept]

/-- The names settled at the end of two runs are the same, but for what the setting decides
about. -/
theorem Session.Alongside.settled {p : Setting} {s s' : Session} (h : s.Alongside p s') :
    (s'.scopes.finish s'.layers).1.globals = (s.scopes.finish s.layers).1.globals ∧
      (p ≠ .undef → (s'.scopes.finish s'.layers).1.implied = (s.scopes.finish s.layers).1.implied) ∧
      (p ≠ .unused → (s'.scopes.finish s'.layers).1.unused =
        (s.scopes.finish s.layers).1.unused) := by
  obtain ⟨_, _, _, _, _, rfl, hl, ht, -⟩ := h
  exact (ht.finish hl).2

/-- A run that has ended shows that `passfail` stopped it, or it does not show that it was
halted. -/
theorem Session.Ended.muted {s : Session} (hs : s.Ended)
    (hShown : ∀ d ∈ s.journal.diagnostics, d.code ≠ "E042") : s.journal.Muted :=
  ⟨hs.halted, fun d hd => ⟨hs.kept d (List.mem_reverse.mp hd), hShown d hd⟩⟩

/-- Of valid options nothing is reported; the names are settled when the program is over. -/
theorem lint_eq {options : Options} (hValid : options.Valid) (source : String)
    (globals : Option Predefined.Globals) :
    ∃ t, left (program [] (.start source options globals)) = t ∧
      Session.final source options globals = left (finish t) ∧
      lint source options globals =
        (Session.final source options globals).report (t.scopes.finish t.layers).1 := by
  obtain ⟨t, ht⟩ : ∃ t, left (program [] (.start source options globals)) = t := ⟨_, rfl⟩
  have hRun : run (Setting.Layers.ofOptions options).2 (.start source options globals) =
      finish t := by
    rw [hValid.accepted, run_eq, ht]
  have hFinal : Session.final source options globals = left (finish t) := by
    rw [Session.final, hRun]
  refine ⟨t, ht, hFinal, ?_⟩
  rw [lint, hFinal, hRun, finish_eq]
  rfl

namespace Options

variable {p : Setting} {options options' : Options}

/-- Before the first token is read, the sessions are abreast. -/
theorem DifferOnlyIn.abreast (h : options.DifferOnlyIn p options') (hp : p.governs ≠ [])
    (hValid : options.Valid) (hValid' : options'.Valid) (source : String)
    (globals : Option Predefined.Globals) :
    (Session.start source options globals).Abreast p (.start source options' globals) := by
  have hLayers := Setting.Layers.agree_ofOptions h hValid hValid'
  refine ⟨⟨_, _, _, _, none, rfl, hLayers, ?_, ?_, fun _ => rfl⟩, .ofSource source, ?_,
    fun hBrace => ?_⟩
  · rw [Setting.Layers.predefinedTable_of_agree hp hLayers globals]
    exact .refl p _
  · exact ⟨rfl, h.ignoredCodes hValid.nodup hValid'.nodup, rfl, rfl, rfl, rfl⟩
  · exact .refl (TokenStream.from_ofSource source)
  · cases hBrace

end Options

/-- Either run has ended, or the reports agree. -/
theorem Options.DifferOnlyIn.matches {p : Setting} {options options' : Options}
    (h : options.DifferOnlyIn p options') (hp : p.governs ≠ []) (hValid : options.Valid)
    (hValid' : options'.Valid) (source : String) (globals : Option Predefined.Globals) :
    (Session.final source options globals).Ended ∨ (Session.final source options' globals).Ended ∨
      (lint source options globals).Matches p (lint source options' globals) := by
  obtain ⟨t, ht, hFinal, hLint⟩ := lint_eq hValid source globals
  obtain ⟨t', ht', hFinal', hLint'⟩ := lint_eq hValid' source globals
  have hTame (options : Options) : (Session.start source options globals).Tame :=
    ⟨fun _ hf => absurd hf List.not_mem_nil, fun _ _ hd => absurd hd List.not_mem_nil⟩
  have hProgram := parallel_program hp []
  have hMeets := hProgram.meets _ _ (h.abreast hp hValid hValid' source globals) (hTame options)
    (hTame options')
  have hEnds := hMeets.lefts fun _ _ hs => hs.alongside
  have hTame₁ := (hProgram.left (.start source options globals)).left.1 (hTame options)
  have hTame₂ := (hProgram.right (.start source options' globals)).left.1 (hTame options')
  rw [ht] at hEnds hTame₁
  rw [ht'] at hEnds hTame₂
  rw [hLint, hLint', hFinal, hFinal']
  rcases hEnds with hEnded | hEnded | hNames
  · exact .inl (ended_finish hEnded)
  · exact .inr (.inl (ended_finish hEnded))
  · obtain ⟨hGlobals, hImplied, hUnused⟩ := hNames.settled
    have hLast := parallel_finish hp hNames hTame₁ hTame₂
    exact hLast.imp_right (Or.imp_right fun hEnd => hEnd.report hGlobals hImplied hUnused)

/-- Two runs over the same source, with the same globals and with valid options that differ in a
setting that governs codes. If neither run is stopped by `passfail`, they report the same
diagnostics but for those codes, the same globals and the same functions; the implied globals and
the unused bindings may differ only with the setting that decides about them. -/
theorem options_isolated (p : Setting) (hp : p.governs ≠ []) (options options' : Options)
    (hValid : options.Valid) (hValid' : options'.Valid) (h : options.DifferOnlyIn p options')
    (source : String) (globals : Option Predefined.Globals)
    (hShown : ∀ d ∈ (lint source options globals).diagnostics, d.code ≠ "E042")
    (hShown' : ∀ d ∈ (lint source options' globals).diagnostics, d.code ≠ "E042")
    (hMuted : ¬(Session.final source options globals).journal.Muted)
    (hMuted' : ¬(Session.final source options' globals).journal.Muted) :
    let report := lint source options globals
    let report' := lint source options' globals
    report'.diagnostics.filter (p.spares ·.code) = report.diagnostics.filter (p.spares ·.code) ∧
      report'.globals = report.globals ∧ report'.functions = report.functions ∧
      (p ≠ .undef → report'.implied = report.implied) ∧
      (p ≠ .unused → report'.unused = report.unused) := by
  have hDiagnostics {options : Options} (hValid : options.Valid) :
      (lint source options globals).diagnostics =
      (Session.final source options globals).journal.diagnostics := by
    obtain ⟨t, -, -, hLint⟩ := lint_eq hValid source globals
    exact congrArg Report.diagnostics hLint
  rcases h.matches hp hValid hValid' source globals with hEnded | hEnded | hMatches
  · rw [hDiagnostics hValid] at hShown
    exact absurd (hEnded.muted hShown) hMuted
  · rw [hDiagnostics hValid'] at hShown'
    exact absurd (hEnded.muted hShown') hMuted'
  · exact ⟨hMatches.diagnostics, hMatches.globals, hMatches.functions, hMatches.implied,
      hMatches.unused⟩

/-- Asking for undeclared names adds a warning about each of them and changes nothing else. -/
theorem options_isolated_undef :
    let report := lint "f(x);" {} none
    let report' := lint "f(x);" ⟨[("undef", .flag true)]⟩ none
    report.diagnostics = [] ∧ report'.diagnostics.map (·.code) = ["W117", "W117"] ∧
      report'.diagnostics.filter (Setting.undef.spares ·.code) = [] ∧
      report'.functions = report.functions ∧ report'.unused = report.unused := by
  have hOther (name : String) (hName : name ≠ "undef") :
      OrderedMap.get? (⟨[("undef", .flag true)]⟩ : Options) name =
        OrderedMap.get? ({} : Options) name := by
    show [("undef", _)].lookup name = none
    rw [List.lookup_cons, beq_false_of_ne hName]
    rfl
  have hIsolated := options_isolated .undef (List.cons_ne_nil _ _) {} ⟨[("undef", .flag true)]⟩
    ⟨List.nodup_nil, rfl⟩ ⟨by decide, rfl⟩ hOther "f(x);" none
    (by decide +kernel) (by decide +kernel)
    (fun h => absurd h.1 (by decide +kernel)) (fun h => absurd h.1 (by decide +kernel))
  have hNone : (lint "f(x);" {} none).diagnostics = [] := by decide +kernel
  obtain ⟨hDiagnostics, -, hFunctions, -, hUnused⟩ := hIsolated
  refine ⟨hNone, by decide +kernel, ?_, hFunctions, hUnused (by decide)⟩
  rw [hDiagnostics, hNone]
  rfl

end ScriptLint
