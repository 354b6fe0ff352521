import ScriptLint.Proofs.Isolation.Sessions

/-!
# Steps of two runs

Each step of the grammar either does the same in both runs, or reports on one side only what the
setting governs.

- `alongside`: reading and reporting, whatever is ahead.
- `parallel_advance`: both runs consume the same token.
- `parallel_checkFiltered`: the one check that looks ahead and may be left out.
- `parallel_closeFunction`: what is reported when a function is closed.
-/

namespace ScriptLint

open Parse Grammar

/-! ## What may be left out -/

namespace Setting

/-- A setting that governs codes does not affect `passfail`. -/
theorem not_affects_passfail {p : Setting} (hp : p.governs ≠ []) : ¬p.affects .passfail :=
  fun h => governs_ne_of_affects hp h rfl

/-- No setting decides about unrecoverable errors. -/
theorem code_ne_of_governs {p : Setting} {code : String} (h : p.governs.contains code) :
    code ≠ "E041" := by
  rintro rfl
  cases p <;> cases h

/-- What is affected governs no other codes. -/
theorem governs_of_affects {p s : Setting} {code : String} (hs : p.affects s)
    (h : s.governs.contains code) : p.governs.contains code :=
  List.contains_iff_mem.mpr (governs_subset_of_affects hs (List.contains_iff_mem.mp h))

theorem governs_of_spares {p : Setting} {code : String} (h : p.spares code = false) :
    p.governs.contains code := by
  rwa [spares, Bool.not_eq_eq_eq_not, Bool.not_false] at h

end Setting

namespace Grammar.Coherence

variable {K : Coherence} {s : Setting}

/-- What is done depends only on what the grammar sees. -/
theorem readSame (K : Coherence) {α : Type} {f : Session → Parse α}
    (hf : ∀ (t : Session) (u : Session.Unseen), f (t.withUnseen u) = f t)
    (h : ∀ t, K.Rel (f t) (f t)) : K.Rel (get >>= f) (get >>= f) := by
  refine K.read fun t _ ⟨u, ht, _⟩ => ?_
  rw [ht, hf]
  exact h t

/-- What is done depends on something that is the same on both sides unless the setting is
hidden. -/
theorem Optional.choice {γ : Type} {f : γ → Parse Unit} (h : ∀ c, K.Optional s (f c)) {c c' : γ}
    (hc : ¬K.hides s → c' = c) : K.Rel (f c) (f c') := by
  by_cases hs : K.hides s
  · have hApart : K.Rel (f c >>= fun _ => Pure.pure ()) (Pure.pure () >>= fun _ => f c') :=
      K.bind ((h c).loud hs) fun _ => (h c').quiet hs
    rwa [bind_pure_unit, pure_bind] at hApart
  · rw [hc hs]
    exact (h c).same

/-- One thing after another that may be left out. -/
theorem Optional.bind {q q' : Parse Unit} (h : K.Optional s q) (h' : K.Optional s q') :
    K.Optional s (q >>= fun _ => q') where
  same := K.bind h.same fun _ => h'.same
  quiet hs := K.bind (h.quiet hs) fun _ => h'.quiet hs
  loud hs := K.bind (h.loud hs) fun _ => h'.loud hs

/-- An optional report under a condition. -/
theorem Optional.when (c : Prop) [Decidable c] {q q' : Parse Unit} (h : K.Optional s q)
    (h' : K.Optional s q') : K.Optional s (if c then q >>= fun _ => q' else q') := by
  split
  · exact h.bind h'
  · exact h'

/-- Lists of reports that differ at most in reports that may be left out. By induction on both. -/
theorem reports (K : Coherence) {β : Type} {report : β → Parse PUnit} (spared : β → Bool)
    {l l' : List β} (hSame : ∀ x ∈ l, K.Rel (report x) (report x))
    (hQuiet : ∀ x, spared x = false → K.Rel (Pure.pure ()) (report x))
    (hLoud : ∀ x, spared x = false → K.Rel (report x) (Pure.pure ()))
    (h : l'.filter spared = l.filter spared) : K.Rel (l.forM report) (l'.forM report) := by
  -- on both lists; what is not spared may stand in either
  induction l generalizing l' with
  | nil =>
    induction l' with
    | nil => exact K.pure _
    | cons y ys ih =>
      have hy : spared y = false := by
        rw [← Bool.not_eq_true]
        exact List.filter_eq_nil_iff.mp h y (List.mem_cons_self ..)
      rw [List.filter_cons_of_neg (by rw [hy]; exact Bool.false_ne_true)] at h
      exact K.bind (hQuiet y hy) fun _ => ih h
  | cons x rest ih =>
    have hRest {l' : List β} (hl' : l'.filter spared = rest.filter spared) :
        K.Rel (rest.forM report) (l'.forM report) :=
      ih (fun z hz => hSame z (List.mem_cons_of_mem _ hz)) hl'
    cases hx : spared x with
    | false =>
      rw [List.filter_cons_of_neg (by rw [hx]; exact Bool.false_ne_true)] at h
      exact K.bind (hLoud x hx) fun _ => hRest h
    | true =>
      rw [List.filter_cons_of_pos hx] at h
      induction l' with
      | nil => cases h
      | cons y ys ihy =>
        cases hy : spared y with
        | false =>
          rw [List.filter_cons_of_neg (by rw [hy]; exact Bool.false_ne_true)] at h
          show K.Rel (Pure.pure () >>= fun _ => (x :: rest).forM report)
            (report y >>= fun _ => ys.forM report)
          exact K.bind (hQuiet y hy) fun _ => ihy h
        | true =>
          rw [List.filter_cons_of_pos hy] at h
          obtain ⟨rfl, hTail⟩ := List.cons.inj h
          exact K.bind (hSame y (List.mem_cons_self ..)) fun _ => hRest hTail

end Grammar.Coherence

/-! ## Reporting -/

namespace Parse

variable {α : Type} {p : Setting} {s s' : Session}

/-- A diagnostic that stops a tame run is how it ends. -/
theorem ended_emit {d : Diagnostic} (hd : d.code ≠ "E041") (hs : s.Tame) {t : Session}
    (h : emit d s = .error .halt t) : t.Ended := by
  unfold emit at h
  dsimp only at h
  split at h
  · next hKept =>
    obtain rfl := (EStateM.Result.error.inj h).2
    have hOpen : s.journal.halted = false := by
      cases hHalted : s.journal.halted with
      | false => rfl
      | true => simp [Journal.keeps, hHalted] at hKept
    refine ⟨hs.calm, Journal.halted_halt _ _, fun e he => ?_⟩
    have hStopping : ((Finding.stopping s.percent).diagnostic d.line d.column).code ≠ "E041" :=
      ne_of_beq_false rfl
    have hGrows := (Journal.Grows.record s.journal hd).trans (.halt _ hStopping)
    exact (hGrows e he).elim (hs.kept hOpen e) id
  · cases h

/-- A report is made in both runs. -/
theorem parallel_emit (hp : p.governs ≠ []) {d : Diagnostic} (hd : d.code ≠ "E041") :
    Parallel p (Session.Alongside p) (emit d) (emit d) := by
  refine ⟨lasting_emit hd, lasting_emit hd, ?_⟩
  rintro s s' ⟨stream, layers, scopes, journal, firstQuote, rfl, hl, ht, hj, hq⟩ - -
  unfold emit
  dsimp only
  rw [hj.keeps d, hl.enabled (Setting.not_affects_passfail hp)]
  split
  · exact .halt ⟨stream, layers, scopes, _, firstQuote, rfl, hl, ht, (hj.record d).halt _, hq⟩
  · exact .ok ⟨stream, layers, scopes, _, firstQuote, rfl, hl, ht, hj.record d, hq⟩

/-- Only the second run reports what the setting governs. If that stops it, it has ended. -/
theorem parallel_emit_quiet {d : Diagnostic} (hd : p.governs.contains d.code) :
    Parallel p (Session.Alongside p) (pure ()) (emit d) := by
  have hCode := Setting.code_ne_of_governs hd
  refine ⟨lasting.pure (), lasting_emit hCode, fun s s' hs _ hTame => ?_⟩
  cases hr : emit d s' with
  | error e t =>
    cases e with
    | badSyntax =>
      have hNever := reporting_emit d s'
      rw [hr] at hNever
      exact hNever.elim
    | halt => exact .right (ended_emit hCode hTame hr)
  | ok u t =>
    have hRecorded : t = { s' with journal := s'.journal.record d } := by
      unfold emit at hr
      dsimp only at hr
      split at hr
      · cases hr
      · exact (EStateM.Result.ok.inj hr).2.symm
    subst hRecorded
    obtain ⟨stream, layers, scopes, journal, firstQuote, rfl, hl, ht, hj, hq⟩ := hs
    exact .ok ⟨stream, layers, scopes, _, firstQuote, rfl, hl, ht, hj.record_governed hd, hq⟩

/-- Reading and reporting in both runs, whatever is ahead. -/
def alongside (p : Setting) (hp : p.governs ≠ []) : Coherence where
  hides := p.affects
  Rel a b := Parallel p (Session.Alongside p) a b
  pure := .pure
  bind := .bind
  read := .read fun _ _ => (·.resembles)
  warnAt _ _ _ h :=
    parallel_emit hp (Finding.code_ne_of_isOrdinary (Finding.isOrdinary_of_isLocal h))
  governs_ne := Setting.governs_ne_of_affects hp
  quiet _ _ hs h := parallel_emit_quiet (Setting.governs_of_affects hs h)
  loud _ _ hs h := (parallel_emit_quiet (Setting.governs_of_affects hs h)).symm fun _ _ => (·.symm)

/-- Reading and reporting stay in place, so that it does not matter what is ahead. -/
def abreast (p : Setting) (hp : p.governs ≠ []) : Coherence where
  hides := p.affects
  Rel a b := Parallel p (Session.Abreast p) a b
  pure := .pure
  bind := .bind
  read := .read fun _ _ hs => hs.alongside.resembles
  warnAt f line column h :=
    ((alongside p hp).warnAt f line column h).of_placed (placed_emit _).keeps (placed_emit _).keeps
  governs_ne := Setting.governs_ne_of_affects hp
  quiet line column hs h :=
    ((alongside p hp).quiet line column hs h).of_placed (placed.pure ()) (placed_emit _).keeps
  loud line column hs h :=
    ((alongside p hp).loud line column hs h).of_placed (placed_emit _).keeps (placed.pure ())

/-! ## Names -/

/-- The scopes evolve alike. -/
theorem parallel_modifyScopes {f : Scope.Tracker → Setting.Layers → Scope.Tracker}
    (hEvolves : ∀ (t : Scope.Tracker) (layers : Setting.Layers), t.Evolves (f t layers))
    (h : ∀ {t t' : Scope.Tracker} {layers layers' : Setting.Layers}, Scope.Tracker.Alike p t t' →
      Setting.Layers.Agree p.affects layers layers' →
        Scope.Tracker.Alike p (f t layers) (f t' layers')) :
    Parallel p (Session.Alongside p) (modifyScopes f) (modifyScopes f) := by
  have hLasts (s : Session) : lasting.Goes s { s with scopes := f s.scopes s.layers } :=
    lasting_passable.scopes (hEvolves s.scopes s.layers)
  refine .edit hLasts hLasts ?_
  rintro s s' ⟨stream, layers, scopes, journal, firstQuote, rfl, hl, ht, hj, hq⟩
  exact ⟨stream, layers, _, journal, firstQuote, rfl, hl, h ht hl, hj, hq⟩

theorem parallel_nameStep {f : Scope.Tracker → Setting.Layers → Scope.Tracker} (h : NameStep f) :
    Parallel p (Session.Alongside p) (modifyScopes f) (modifyScopes f) := by
  refine parallel_modifyScopes (evolves_nameStep h) fun ht hl => ?_
  cases h with
  | declare name kind line column => exact ht.declare hl name kind line column
  | reference name line column => exact ht.reference hl name line column
  | assign name line column => exact ht.assign hl name line column
  | referenceGuarded name line => exact ht.referenceGuarded name line
  | addLabel label => exact ht.map (f := (Scope.Tracker.addLabel · label)) fun _ => rfl

/-- What the scopes found is forwarded in both runs, but for what the setting governs. -/
theorem parallel_flushScopes (hp : p.governs ≠ []) :
    Parallel p (Session.Alongside p) flushScopes flushScopes := by
  refine ⟨lasting_step .flushScopes, lasting_step .flushScopes, fun s s' hs hTame hTame' => ?_⟩
  have hReports : Parallel p (Session.Alongside p)
      (s.scopes.findings.forM fun f => warnAt f.finding f.line f.column)
      (s'.scopes.findings.forM fun f => warnAt f.finding f.line f.column) := by
    refine (alongside p hp).reports (p.spares ·.finding.code) (fun f hf => ?_)
      (fun f hf => ?_) (fun f hf => ?_) ?_
    · exact (alongside p hp).warnAt _ _ _ (Finding.isLocal_of_isRemark (hTame.calm f hf))
    · exact parallel_emit_quiet (Setting.governs_of_spares hf)
    · exact (parallel_emit_quiet (Setting.governs_of_spares hf)).symm fun _ _ => (·.symm)
    · obtain ⟨_, _, _, _, _, rfl, -, ht, -⟩ := hs
      exact ht.findings
  have hCleared {s : Session} (h : s.Tame) :
      Session.Tame { s with scopes := { s.scopes with findings := [] } } :=
    ⟨fun _ hf => absurd hf List.not_mem_nil, h.kept⟩
  refine hReports.meets _ _ ?_ (hCleared hTame) (hCleared hTame')
  obtain ⟨stream, layers, scopes, journal, firstQuote, rfl, hl, ht, hj, hq⟩ := hs
  exact ⟨stream, layers, _, journal, firstQuote, rfl, hl,
    ht.map (f := fun t => { t with findings := [] }) fun _ => rfl, hj, hq⟩

/-! ## Consumed tokens -/

/-- What the policy says about a quotation mark, given the first one of the source. -/
def quoteFinding? (policy : Setting.QuotePolicy) (first : Option Char) (quote : Char) :
    Option Finding :=
  match policy, first with
  | .single, _ => if quote != '\x27' then some .useSingleQuote else none
  | .double, _ => if quote != '\x22' then some .useDoubleQuote else none
  | .consistent, some first => if first != quote then some .mixedQuotes else none
  | _, _ => none

/-- The finding about quotes is decided by `quotmark`. -/
theorem decides_of_quoteFinding? {policy : Setting.QuotePolicy} {first : Option Char} {quote : Char}
    {f : Finding} (h : quoteFinding? policy first quote = some f) :
    Setting.quotmark.decides f := by
  have hReported {c : Prop} [Decidable c] {g : Finding} (hg : Setting.quotmark.decides g)
      (h : (if c then some g else none) = some f) : Setting.quotmark.decides f :=
    Option.some.inj (Option.ite_none_right_eq_some.mp h).2 ▸ hg
  unfold quoteFinding? at h
  split at h
  · exact hReported rfl h
  · exact hReported rfl h
  · exact hReported rfl h
  · cases h

/-- A quotation mark is reported, or else it may be the first one. -/
theorem checkQuote_run (quote : Char) (line column : Nat) (s : Session) :
    checkQuote quote line column s =
      match quoteFinding? s.layers.quotePolicy s.firstQuote quote with
      | some f => warnAt f line column s
      | none => .ok () { s with
          firstQuote := if s.layers.quotePolicy = .consistent then
            s.firstQuote.or (some quote) else s.firstQuote } := by
  have hIf (c : Prop) [Decidable c] (f : Finding) {t : Session} (ht : t = s) :
      (if c then warnAt f line column else pure () : Parse Unit) s =
        match (if c then some f else none) with
        | some f => warnAt f line column s
        | none => .ok () t := by
    subst ht
    split <;> rfl
  unfold checkQuote
  rw [get_bind_apply]
  cases s.layers.quotePolicy with
  | off => rfl
  | single => exact hIf ((quote != '\x27') = true) _ rfl
  | double => exact hIf ((quote != '\x22') = true) _ rfl
  | consistent =>
    cases hFirst : s.firstQuote with
    | none => rfl
    | some first =>
      have hSame : { s with firstQuote := some first } = s := by rw [← hFirst]
      exact hIf ((first != quote) = true) _ hSame

/-- Quotation marks are checked alike, or the setting governs what is found about them. -/
theorem parallel_checkQuote (hp : p.governs ≠ []) (quote : Char) (line column : Nat) :
    Parallel p (Session.Alongside p) (checkQuote quote line column)
      (checkQuote quote line column) := by
  let K := alongside p hp
  have hKeeps : lasting.Keeps (checkQuote quote line column) :=
    lasting_passable.checkQuote quote line column
  -- `quotmark` itself may have been looked at in one run only; else policy and first quote agree
  by_cases hQuote : p = .quotmark
  · have hQuiet : K.Rel (pure ()) (checkQuote quote line column) := by
      refine ⟨lasting.pure (), hKeeps, fun s s' hs hTame hTame' => ?_⟩
      rw [checkQuote_run]
      cases hFinding : quoteFinding? s'.layers.quotePolicy s'.firstQuote quote with
      | some f =>
        have hGoverned :=
          K.quiet (s := .quotmark) line column (.inl hQuote.symm)
            (Setting.governs_of_decides (decides_of_quoteFinding? hFinding))
        exact hGoverned.meets s s' hs hTame hTame'
      | none =>
        obtain ⟨stream, layers, scopes, journal, firstQuote, rfl, hl, ht, hj, -⟩ := hs
        exact .ok ⟨stream, layers, scopes, journal, _, rfl, hl, ht, hj,
          fun hOther => absurd hQuote hOther⟩
    -- whatever one run does, the other may have done nothing
    have hBoth := K.bind (hQuiet.symm fun _ _ => (·.symm)) fun _ => hQuiet
    rwa [bind_pure_unit, pure_bind] at hBoth
  · refine ⟨hKeeps, hKeeps, fun s s' hs hTame hTame' => ?_⟩
    have hPolicy : s'.layers.quotePolicy = s.layers.quotePolicy := by
      obtain ⟨_, layers, _, _, _, rfl, hl, -⟩ := hs
      have hResolve := hl.resolve (Setting.not_affects hQuote (by decide))
      rw [Setting.Layers.quotePolicy, Setting.Layers.quotePolicy, hResolve]
    have hFirst : s'.firstQuote = s.firstQuote := by
      obtain ⟨_, _, _, _, _, rfl, -, -, -, hq⟩ := hs
      exact hq hQuote
    rw [checkQuote_run, checkQuote_run, hPolicy, hFirst]
    cases hFinding : quoteFinding? s.layers.quotePolicy s.firstQuote quote with
    | some f =>
      have hLocal := Setting.isLocal_of_decides (decides_of_quoteFinding? hFinding)
      exact (K.warnAt f line column hLocal).meets s s' hs hTame hTame'
    | none =>
      obtain ⟨stream, layers, scopes, journal, firstQuote, rfl, hl, ht, hj, -⟩ := hs
      exact .ok ⟨stream, layers, scopes, journal, _, rfl, hl, ht, hj, fun _ => rfl⟩

/-- The checks of a consumed token may report differently where the setting governs them. -/
theorem parallel_checkConsumed (hp : p.governs ≠ []) :
    Parallel p (Session.Alongside p) checkConsumed checkConsumed := by
  let K := alongside p hp
  refine K.readSame (fun _ _ => rfl) fun s => ?_
  dsimp only
  cases s.token.kind with
  | string literal =>
    refine K.bind (parallel_checkQuote hp _ _ _) fun _ => ?_
    refine K.when _ (K.warnAt _ _ _ rfl) fun _ => K.when _ (K.warnUnless _ _ _ _ rfl) fun _ => ?_
    exact K.ite _ (K.warnUnless _ _ _ _ rfl) (K.pure ())
  | number literal => exact K.ite _ (K.warnAt _ _ _ rfl) (K.pure ())
  | _ => exact K.pure ()

/-- That a line is too long is not remarked at a place, but it is governed all the same. -/
theorem optional_lineTooLong (hp : p.governs ≠ []) (line length : Nat) :
    (alongside p hp).Optional .maxlen (warnAt .lineTooLong line length) where
  same := parallel_emit hp (Finding.code_ne_of_isOrdinary (f := .lineTooLong) rfl)
  quiet hs := (alongside p hp).quiet line length hs rfl
  loud hs := (alongside p hp).loud line length hs rfl

/-- By induction on the lines left. -/
theorem optional_warnLongLines (hp : p.governs ≠ []) (limit line : Nat) (lengths : List Nat) :
    (alongside p hp).Optional .maxlen (warnLongLines limit line lengths) := by
  induction lengths generalizing line with
  | nil => exact (alongside p hp).optional_pure _
  | cons length rest ih =>
    exact .when _ (optional_lineTooLong hp line length) (ih (line + 1))

/-- The reports on long lines are governed by `maxlen`. -/
theorem optional_limitLines (hp : p.governs ≠ []) (line : Nat) (lengths : List Nat)
    (limit? : Option Nat) : (alongside p hp).Optional .maxlen (limitLines line lengths limit?) := by
  cases limit? with
  | none => exact (alongside p hp).optional_pure _
  | some limit => exact optional_warnLongLines hp limit line lengths

theorem parallel_checkLinesBefore (hp : p.governs ≠ []) (line : Nat) :
    Parallel p (Session.Alongside p) (checkLinesBefore line) (checkLinesBefore line) := by
  have hKeeps := lasting_passable.checkLinesBefore line
  refine ⟨hKeeps, hKeeps, ?_⟩
  rintro s s' ⟨stream, layers, scopes, journal, firstQuote, rfl, hl, ht, hj, hq⟩ hTame hTame'
  have hReports := Coherence.Optional.choice
    (optional_limitLines hp (s.checkedLines + 1)
      (s.uncheckedLines.splitAt (line - 1 - s.checkedLines)).1)
    fun hs => hl.limit? hs
  rw [checkLinesBefore_apply, checkLinesBefore_apply]
  refine hReports.meets _ _ ?_ ⟨hTame.calm, hTame.kept⟩ ⟨hTame'.calm, hTame'.kept⟩
  exact ⟨stream, layers, scopes, journal, firstQuote, rfl, hl, ht, hj, hq⟩

/-! ## Directives -/

/-- Both journals change alike. -/
theorem parallel_modifyJournal {f : Journal → Journal} (hf : ∀ j : Journal, j.Ignores (f j))
    (h : ∀ {j j' : Journal}, j.Alike p j' → (f j).Alike p (f j')) :
    Parallel p (Session.Alongside p) (modify fun s => { s with journal := f s.journal })
      (modify fun s => { s with journal := f s.journal }) := by
  have hLasts (s : Session) : lasting.Goes s { s with journal := f s.journal } :=
    lasting_passable.ignores (hf s.journal)
  refine .edit hLasts hLasts ?_
  rintro s s' ⟨stream, layers, scopes, journal, firstQuote, rfl, hl, ht, hj, hq⟩
  exact ⟨stream, layers, scopes, _, firstQuote, rfl, hl, ht, h hj, hq⟩

/-- One case for each item of a directive. -/
theorem parallel_applyEntry (hp : p.governs ≠ []) (entry : Directive.Entry) (atGlobal : Bool)
    (line column : Nat) : Parallel p (Session.Alongside p) (applyEntry entry atGlobal line column)
      (applyEntry entry atGlobal line column) := by
  have hScopes (f : Scope.Tracker → Scope.Tracker) (hSilent : ∀ t : Scope.Tracker, t.Evolves (f t))
      (h : ∀ {t t' : Scope.Tracker}, Scope.Tracker.Alike p t t' →
        Scope.Tracker.Alike p (f t) (f t')) :
      Parallel p (Session.Alongside p) (modifyScopes fun t _ => f t)
        (modifyScopes fun t _ => f t) :=
    parallel_modifyScopes (fun t _ => hSilent t) fun ht _ => h ht
  -- one case for each kind of entry
  cases entry with
  | setOption setting value =>
    have hKeeps : lasting.Keeps (applyEntry (.setOption setting value) atGlobal line column) :=
      fun s =>
      lasting_passable.applyEntry _ atGlobal line column fun _ _ _ _ => Session.lasts_of_same rfl
    refine ⟨hKeeps, hKeeps, ?_⟩
    rintro s s' ⟨stream, layers, scopes, journal, firstQuote, rfl, hl, ht, hj, hq⟩ hTame hTame'
    let s' : Session := { s with stream, layers, scopes, journal, firstQuote }
    rcases hl.set setting value atGlobal with ⟨problem, hSet, hSet'⟩ | ⟨changed, changed', hSet,
      hSet', hAgree⟩
    · rw [applyEntry_of_error hSet, applyEntry_of_error (s := s') hSet']
      exact (parallel_emit hp problem.code_ne).meets _ _
        ⟨stream, layers, scopes, journal, firstQuote, rfl, hl, ht, hj, hq⟩ hTame hTame'
    · rw [applyEntry_of_ok hSet, applyEntry_of_ok (s := s') hSet']
      have hRest :
          Parallel p (Session.Alongside p) (predefine setting value) (predefine setting value) := by
        refine .ite _ ?_ (.pure ())
        cases Predefined.environment? setting with
        | none => exact .pure ()
        | some names =>
          exact hScopes (·.addGlobals names) (fun _ => .silent rfl) fun h =>
            h.map (f := (·.addGlobals names)) fun _ => rfl
      exact hRest.meets { s with layers := changed } _
        ⟨stream, changed', scopes, journal, firstQuote, rfl, hAgree, ht, hj, hq⟩
        ⟨hTame.calm, hTame.kept⟩ ⟨hTame'.calm, hTame'.kept⟩
  | ignoreCode code =>
    exact parallel_modifyJournal (f := (·.ignoreCode code)) (.ignoreCode · code) fun h =>
      h.ignoreCode code
  | ignore change =>
    cases change with
    | start =>
      exact parallel_modifyJournal (fun j => .startRegion j line) fun h => h.startRegion line
    | stop => exact parallel_modifyJournal (fun j => .endRegion j line) fun h => h.endRegion line
    | line =>
      exact parallel_modifyJournal (f := (·.ignoreLine line)) (.ignoreLine · line) fun h =>
        h.ignoreLine line
  | declareGlobal name writable =>
    exact hScopes (·.declareGlobal name writable line column) (fun _ => .silent rfl) fun h =>
      h.declareGlobal name writable line column
  | removeGlobal name =>
    exact hScopes (·.removeGlobal name) (fun _ => .silent rfl) fun h =>
      h.map (f := (·.removeGlobal name)) fun _ => rfl
  | exportName name =>
    exact hScopes (·.exportName name) (fun _ => .silent rfl) fun h =>
      h.map (f := (·.exportName name)) fun _ => rfl

/-- What is noted is noted in both runs. -/
theorem parallel_note (hp : p.governs ≠ []) (result : Lexer.Result) :
    Parallel p (Session.Alongside p) (note result) (note result) := by
  unfold note
  split
  · split
    · refine .bind (.forM fun problem _ => parallel_emit hp problem.code_ne) fun _ => ?_
      refine (alongside p hp).readSame (fun _ _ => rfl) fun s => ?_
      exact .forM fun entry _ => parallel_applyEntry hp entry _ _ _
    · exact .pure ()
  · exact parallel_emit hp (LexProblem.code_ne _)

/-! ## The next token -/

/-- Both runs consume a token alike, whatever is ahead of it. -/
theorem parallel_arrive (hp : p.governs ≠ []) (stream stream' : TokenStream)
    (results : List Lexer.Result) (next : Token) :
    Parallel p (Session.Alongside p) (arrive stream results next)
      (arrive stream' results next) := by
  refine .bind (parallel_checkConsumed hp) fun _ => ?_
  refine .bind (.edit (fun _ => Session.lasts_of_same rfl) (fun _ => Session.lasts_of_same rfl) ?_)
    fun _ => ?_
  · rintro s s' ⟨_, layers, scopes, journal, firstQuote, rfl, hRest⟩
    exact ⟨stream', layers, scopes, journal, firstQuote, rfl, hRest⟩
  · refine .bind (.forM fun result _ => parallel_note hp result) fun _ => ?_
    refine .bind
      (.edit (fun _ => Session.lasts_of_same rfl) (fun _ => Session.lasts_of_same rfl) ?_) fun _ =>
      ?_
    · rintro s s' ⟨stream, layers, scopes, journal, firstQuote, rfl, hRest⟩
      exact ⟨stream, layers, scopes, journal, firstQuote, rfl, hRest⟩
    · exact parallel_checkLinesBefore hp next.line

/-- Both runs consume the current token and come to the same one. -/
theorem parallel_advance (hp : p.governs ≠ []) :
    Parallel p (Session.Abreast p) advance advance := by
  refine ⟨lasting_passable.advance, lasting_passable.advance, fun s s' hs hTame hTame' => ?_⟩
  -- both streams are fed by the same lexer, so both runs arrive at the same token
  obtain ⟨l, hAkin, -⟩ := hs.facing
  obtain ⟨rs, t, after, hLeads⟩ := Lexer.exists_leads l
  have hMeets :=
    (parallel_arrive hp s.stream.pullSignificant.2 s'.stream.pullSignificant.2 rs t).meets
    s s' hs.alongside hTame hTame'
  rw [← advance_eq hAkin.front hLeads, ← advance_eq hAkin.front' hLeads] at hMeets
  have hArrives := advance_arrives hAkin.front hLeads
  have hArrives' := advance_arrives hAkin.front' hLeads
  generalize advance s = r, advance s' = r' at *
  cases hMeets with
  | left h => exact .left h
  | right h => exact .right h
  | halt h => exact .halt h
  | giveUp _ => exact hArrives.elim
  | @ok _ u u' h =>
    refine .ok ⟨h, after, ?_, fun hBrace => ?_⟩
    · exact hAkin.pulled hLeads hArrives.front hArrives'.front hArrives.queue hArrives'.queue
    · rw [hArrives.token] at hBrace
      rw [hLeads.regexAllowed]
      cases hKind : t.kind with
      | punctuator q =>
        rw [Token.isPunctuator, hKind] at hBrace
        rw [of_decide_eq_true hBrace]
        rfl
      | _ =>
        rw [Token.isPunctuator, hKind] at hBrace
        cases hBrace

/-- Sessions stay abreast if only their streams change and stay akin. -/
theorem abreast_look {stream stream' : TokenStream} {l : Lexer} (hs : s.Abreast p s')
    (hAkin : stream.Akin l stream') (hBrace : s.token.isPunctuator .leftBrace → l.regexAllowed) :
    Session.Abreast p { s with stream } { s' with stream := stream' } := by
  refine ⟨?_, l, hAkin, hBrace⟩
  obtain ⟨_, layers, scopes, journal, firstQuote, rfl, hRest⟩ := hs.alongside
  exact ⟨stream', layers, scopes, journal, firstQuote, rfl, hRest⟩

/-- Looking ahead gives the same answer in both runs. -/
theorem parallel_look {a : Parse α} {f : TokenStream → α × TokenStream}
    (hf : ∀ {l : Lexer} {stream stream' : TokenStream}, stream.Akin l stream' →
      (f stream').1 = (f stream).1 ∧ (f stream).2.Akin l (f stream').2)
    (ha : ∀ s, a s = .ok (f s.stream).1 { s with stream := (f s.stream).2 }) :
    Parallel p (Session.Abreast p) a a := by
  have hKeeps : lasting.Keeps a := by
    intro s
    rw [ha s]
    exact Session.lasts_of_same rfl
  refine ⟨hKeeps, hKeeps, fun s s' hs _ _ => ?_⟩
  obtain ⟨l, hAkin, hBrace⟩ := hs.facing
  obtain ⟨hSame, hLooked⟩ := hf hAkin
  rw [ha s, ha s', hSame]
  exact .ok (abreast_look hs hLooked hBrace)

theorem parallel_peek (n : Nat) : Parallel p (Session.Abreast p) (peek n) (peek n) :=
  parallel_look (f := (·.peek n)) (fun h => h.peek n) fun _ => rfl

/-- Both runs see whether an arrow function begins. -/
theorem parallel_startsArrow : Parallel p (Session.Abreast p) startsArrow startsArrow :=
  parallel_look (f := (·.closesBeforeArrow)) (fun h => h.closesBeforeArrow) fun _ => rfl

theorem parallel_advanceToStatement (hp : p.governs ≠ []) :
    Parallel p (Session.Abreast p) advanceToStatement advanceToStatement := by
  have hLasts (s : Session) : lasting.Goes s { s with stream := s.stream.allowRegex } :=
    Session.lasts_of_same rfl
  refine .bind (.edit hLasts hLasts fun s s' hs => ?_) fun _ => parallel_advance hp
  obtain ⟨l, hAkin, hBrace⟩ := hs.facing
  obtain ⟨l', hAllowed, hRegex⟩ := hAkin.allowRegex
  exact abreast_look hs hAllowed fun h => hRegex (hBrace h)

/-! ## The check that looks ahead -/

/-- The next token is looked at only after an opening brace. -/
theorem bodyStartsWithIf_run (s : Session) : ∃ found,
    bodyStartsWithIf s = .ok found s ∨ s.token.isPunctuator .leftBrace ∧
      bodyStartsWithIf s = .ok found { s with stream := (s.stream.peek 0).2 } := by
  have hRun : bodyStartsWithIf s =
      if s.token.isKeyword .ifWord then .ok true s
      else if s.token.isPunctuator .leftBrace then
        .ok ((s.stream.peek 0).1.any (·.isKeyword .ifWord)) { s with stream := (s.stream.peek 0).2 }
      else .ok false s := by
    show (if _ then _ else _ : Parse Bool) s = _
    split
    · rfl
    · split <;> rfl
  rw [hRun]
  split
  · exact ⟨_, .inl rfl⟩
  · split
    · exact ⟨_, .inr ⟨‹_›, rfl⟩⟩
    · exact ⟨_, .inl rfl⟩

/-- Both runs see whether a body starts with a condition. -/
theorem parallel_bodyStartsWithIf (hp : p.governs ≠ []) :
    Parallel p (Session.Abreast p) bodyStartsWithIf bodyStartsWithIf := by
  let K := abreast p hp
  refine K.bind K.current fun t => K.ite _ (K.pure _) (K.ite _ ?_ (K.pure _))
  exact .bind (parallel_peek 0) fun _ => .pure _

/-- Loops over keys are checked in both runs or, if the setting governs that, in one of them only. A
slash after an opening brace starts a regular expression, so that looking at it makes no
difference. -/
theorem parallel_checkFiltered (hp : p.governs ≠ []) (t : Token) :
    Parallel p (Session.Abreast p) (checkFiltered t) (checkFiltered t) := by
  let K := abreast p hp
  let check : Parse Unit := do if !(← bodyStartsWithIf) then warn .unfilteredForIn t
  have hWarn : K.Optional .forin (warn .unfilteredForIn t) := K.optional_warnAt t.line t.column rfl
  have hStarts : lasting.Keeps bodyStartsWithIf := (parallel_bodyStartsWithIf hp).left
  have hReport (found : Bool) :
      K.Optional .forin (if !found then warn .unfilteredForIn t else pure ()) := by
    split
    · exact hWarn
    · exact K.optional_pure _
  have hQuiet (hs : p.affects .forin) : K.Rel (pure ()) check := by
    refine ⟨lasting.pure (), lasting.bind hStarts fun found => ((hReport found).quiet hs).right,
      fun s s' h hTame hTame' => ?_⟩
    have hGoesOn {found : Bool} {looked : Session} (hRun : bodyStartsWithIf s' = .ok found looked)
        (hLooked : s.Abreast p looked) (hTame' : looked.Tame) :
        Meets p (Session.Abreast p) (.ok () s) (check s') := by
      show Meets p _ _ ((bodyStartsWithIf >>= _) s')
      rw [bind_of_ok hRun]
      exact ((hReport found).quiet hs).meets s looked hLooked hTame hTame'
    -- the look ahead changes the session only at a brace, where nothing is lexed again
    obtain ⟨found, hRun | ⟨hBrace', hRun⟩⟩ := bodyStartsWithIf_run s'
    · exact hGoesOn hRun h hTame'
    · obtain ⟨l, hAkin, hBrace⟩ := h.facing
      have hToken : s'.token = s.token := by
        obtain ⟨_, _, _, _, _, rfl, -⟩ := h.alongside
        rfl
      refine hGoesOn hRun ?_ ⟨hTame'.calm, hTame'.kept⟩
      exact abreast_look h (hAkin.peekRight (hBrace (hToken ▸ hBrace'))) hBrace
  have hOptional : K.Optional .forin check :=
    { same := K.bind (parallel_bodyStartsWithIf hp) fun found => (hReport found).same
      quiet := hQuiet
      loud := fun hs => (hQuiet hs).symm fun _ _ => (·.symm) }
  refine K.read fun s _ ⟨u, hs, hu⟩ => ?_
  subst hs
  refine hOptional.gate fun hHidden => ?_
  rw [Session.withUnseen, Setting.Layers.enabled, Setting.Layers.enabled, hu .forin hHidden]

end Parse

end ScriptLint
