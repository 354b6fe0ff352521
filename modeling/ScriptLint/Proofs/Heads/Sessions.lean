import ScriptLint.Proofs.Division.Operators
import ScriptLint.Proofs.Grammar.Lenient
import ScriptLint.Proofs.Heads.Lexing

/-!
# Sessions in a statement and in a head

Both runs report the same errors of the lexer and the grammar, on the same lines, while `passfail`
is off. What they remark on besides depends on columns and on what was declared, and makes no
difference to how they go on.

- `Journal.Akin`: journals with the same faults.
- `quiet`: the contract to report no fault and to stay at the token.
- `Session.Matched`: sessions of the two runs, as far as reporting goes.
- `Session.Abreast`: sessions of the two runs at the same token.
- `Abreast.advance`: consuming a token leads from such sessions to others.
-/

namespace ScriptLint

open Parse Grammar Lexer

/-! ## Faults -/

/-- An error of the lexer or the grammar. -/
def Diagnostic.isFault (d : Diagnostic) : Bool :=
  (d.phase = .lexical ∨ d.phase = .syntactic) && d.severity = .error

/-- Semantic findings are no faults. -/
theorem Finding.isFault_of_isSemantic {f : Finding} (h : f.isSemantic) (line column : Nat) :
    (f.diagnostic line column).isFault = false := by
  cases f <;> first | rfl | cases h

namespace Journal

/-- The lines of the faults kept, latest first. -/
def faults (j : Journal) : List Nat := (j.kept.filter Diagnostic.isFault).map Diagnostic.line

/-- What decides which diagnostics to keep. -/
def rules (j : Journal) : List String × List Nat × List (Nat × Nat) × Option Nat × Bool :=
  (j.ignoredCodes, j.ignoredLines, j.regions, j.openRegion, j.halted)

theorem rules_record (j : Journal) (d : Diagnostic) : (j.record d).rules = j.rules := by
  unfold record
  split <;> rfl

/-- A recorded fault is the newest one. -/
theorem faults_record (j : Journal) (d : Diagnostic) :
    (j.record d).faults = if j.keeps d && d.isFault then d.line :: j.faults else j.faults := by
  unfold record
  cases j.keeps d with
  | false => rfl
  | true =>
    show ((d :: j.kept).filter Diagnostic.isFault).map Diagnostic.line = _
    cases hFault : d.isFault with
    | false => rw [List.filter_cons_of_neg (by simp [hFault])]; rfl
    | true => rw [List.filter_cons_of_pos hFault]; rfl

/-- The faults of a dropped line go with it. -/
theorem faults_dropLine (j : Journal) (line : Nat) :
    (j.dropLine line).faults = j.faults.filter (· != line) := by
  unfold faults dropLine
  rw [List.filter_map, List.filter_filter, List.filter_filter]
  exact congrArg _ (List.filter_congr fun d _ => Bool.and_comm ..)

theorem halted_record (j : Journal) (d : Diagnostic) : (j.record d).halted = j.halted :=
  congrArg (·.2.2.2.2) (j.rules_record d)

/-- Journals with the same faults that keep the same from here on. -/
structure Akin (j j' : Journal) : Prop where
  faults : j'.faults = j.faults
  rules : j'.rules = j.rules

namespace Akin

variable {j j' j'' : Journal} {d d' : Diagnostic}

theorem refl (j : Journal) : j.Akin j := ⟨rfl, rfl⟩

theorem symm (h : j.Akin j') : j'.Akin j := ⟨h.faults.symm, h.rules.symm⟩

/-- Journals akin to a third one are akin. -/
theorem trans (h : j.Akin j') (h' : j'.Akin j'') : j.Akin j'' :=
  ⟨h'.faults.trans h.faults, h'.rules.trans h.rules⟩

theorem openRegion (h : j.Akin j') : j'.openRegion = j.openRegion := congrArg (·.2.2.2.1) h.rules

/-- Akin journals keep the same diagnostics. -/
theorem keeps (h : j.Akin j') (hLine : d'.line = d.line) (hCode : d'.code = d.code) :
    j'.keeps d' = j.keeps d := by
  have hRules := h.rules
  simp only [Journal.rules, Prod.mk.injEq] at hRules
  obtain ⟨hCodes, hLines, hRegions, hOpen, hHalted⟩ := hRules
  unfold Journal.keeps suppresses
  rw [hCodes, hLines, hRegions, hOpen, hHalted, hLine, hCode]

/-- Something is recorded that is no fault. -/
theorem remark (j : Journal) (h : d.isFault = false) : j.Akin (j.record d) := by
  refine ⟨?_, rules_record j d⟩
  rw [faults_record, h, Bool.and_false]
  rfl

/-- The same fault is recorded in both, or the same remark. -/
theorem record (h : j.Akin j') (hLine : d'.line = d.line) (hCode : d'.code = d.code)
    (hFault : d'.isFault = d.isFault) : (j.record d).Akin (j'.record d') := by
  refine ⟨?_, by rw [rules_record, rules_record, h.rules]⟩
  rw [faults_record, faults_record, h.keeps hLine hCode, hFault, hLine, h.faults]

theorem dropLine (h : j.Akin j') (line : Nat) : (j.dropLine line).Akin (j'.dropLine line) :=
  ⟨by rw [faults_dropLine, faults_dropLine, h.faults], h.rules⟩

theorem ignoreCode (h : j.Akin j') (code : String) :
    (j.ignoreCode code).Akin (j'.ignoreCode code) :=
  ⟨h.faults, congrArg (fun r => (code :: r.1, r.2)) h.rules⟩

theorem ignoreLine (h : j.Akin j') (line : Nat) : (j.ignoreLine line).Akin (j'.ignoreLine line) :=
  ⟨(h.dropLine line).faults, congrArg (fun r => (r.1, line :: r.2.1, r.2.2)) h.rules⟩

/-- A region starts in both journals. -/
theorem startRegion (h : j.Akin j') (line : Nat) :
    (j.startRegion line).Akin (j'.startRegion line) := by
  unfold Journal.startRegion
  rw [h.openRegion]
  cases j.openRegion with
  | some _ => exact h
  | none =>
    exact ⟨(h.dropLine line).faults, congrArg
      (fun r => (r.1, r.2.1, r.2.2.1, some line, r.2.2.2.2)) h.rules⟩

/-- A region ends in both journals. -/
theorem endRegion (h : j.Akin j') (line : Nat) : (j.endRegion line).Akin (j'.endRegion line) := by
  unfold Journal.endRegion
  rw [h.openRegion]
  cases j.openRegion with
  | none => exact h
  | some first =>
    exact ⟨h.faults,
      congrArg (fun r => (r.1, r.2.1, r.2.2.1 ++ [(first, line)], none, r.2.2.2.2)) h.rules⟩

end Akin

end Journal

/-! ## What is ahead -/

namespace Lexer

/-- No directive ahead sets `passfail`. -/
def NeverSets (l : Lexer) : Prop :=
  ∀ read l', Yields l read l' → ∀ value line,
    (.setOption .passfail value, line) ∉ read.flatMap directions

variable {l l' l'' : Lexer} {rs rs' : List Result} {t : Token}

/-- One stretch of results after the other. -/
theorem Yields.append (h : Yields l rs l') (h' : Yields l' rs' l'') : Yields l (rs ++ rs') l'' := by
  induction h' with
  | start => rwa [List.append_nil]
  | read _ ih =>
    rw [← List.append_assoc]
    exact ih.read
  | allow _ ih => exact ih.allow

/-- What never sets `passfail` does not on the way to a token. -/
theorem NeverSets.leads (h : l.NeverSets) (hLeads : Leads l rs t l') :
    (∀ value line, (.setOption .passfail value, line) ∉ rs.flatMap directions) ∧ l'.NeverSets := by
  have hYields : Yields l rs l' := Yields.start.leads hLeads
  refine ⟨h rs l' hYields, fun read last hRead value line hMem => ?_⟩
  refine h _ _ (hYields.append hRead) value line ?_
  rw [List.flatMap_append]
  exact List.mem_append_right _ hMem

/-- A visit goes on behind a token that gives no answer. -/
theorem Leads.passes {σ β : Type} {visit : σ → Token → σ ⊕ β} {state state' : σ} {b : β} {n : Nat}
    (h : Leads l rs t l') (ht : visit state t = .inl state') (hRest : Visits visit l' state' b n) :
    ∃ m, Visits visit l state b m := by
  induction h with
  | here hr => exact ⟨_, .goOn (by rw [shown, hr]; exact ht) hRest⟩
  | pass hr _ ih =>
    obtain ⟨m, hVisit⟩ := ih ht hRest
    exact ⟨_, .goOn (by rw [shown, hr]) hVisit⟩

end Lexer

/-! ## Remarks -/

namespace Session

/-- The session goes on reporting, whatever is reported, and its names gave rise to no fault. -/
structure Lasting (s : Session) : Prop where
  passfail : s.layers.Untouched false
  calm : s.scopes.Calm
  halted : s.journal.halted = false

/-- Where the session is, and what is open there. -/
def bearing (s : Session) : TokenStream × Token × Token × Nat × Bool × Nat × List FunctionRecord :=
  (s.stream, s.token, s.previous, s.sourceLength, s.noIn, s.nesting, s.metrics.finished)

/-- Where the session is once it has consumed its token and arrived at the next one. -/
def bearingAt (s : Session) (next : Token) :
    TokenStream × Token × Token × Nat × Bool × Nat × List FunctionRecord :=
  (s.stream.pullSignificant.2, next, s.token, s.sourceLength, s.noIn, s.nesting, s.metrics.finished)

/-- The token is checked, what is passed on the way to the next one is noted, and the session
arrives there. -/
theorem bearing_arrive {s m n : Session} {consumed : Nat} (hm : m.bearing = s.bearing)
    (hn : n.bearing = { m with consumed, stream := s.stream.pullSignificant.2 }.bearing)
    (next : Token) : { n with previous := n.token, token := next }.bearing = s.bearingAt next := by
  simp only [bearing, bearingAt, Prod.mk.injEq] at hm hn ⊢
  obtain ⟨-, hToken, -, hLength, hNoIn, hNesting, hFinished⟩ := hm
  obtain ⟨hStream, hHere, -, hFits, hFlag, hLevel, hListed⟩ := hn
  exact ⟨hStream, trivial, hHere.trans hToken, hFits.trans hLength, hFlag.trans hNoIn,
    hLevel.trans hNesting, hListed.trans hFinished⟩

theorem finished_of_bearing {s t : Session} (h : t.bearing = s.bearing) :
    t.metrics.finished = s.metrics.finished :=
  congrArg (·.2.2.2.2.2.2) h

/-- No function was finished, and if the session was lasting, it is so again and no fault was
reported. -/
structure Hushed (s t : Session) : Prop where
  finished : t.metrics.finished = s.metrics.finished
  lasting : s.Lasting → t.Lasting
  journal : s.Lasting → s.journal.Akin t.journal

/-- The session stays where it is, and if it was lasting, it is so again and no fault was
reported. -/
structure Aside (s t : Session) : Prop where
  bearing : t.bearing = s.bearing
  lasting : s.Lasting → t.Lasting
  journal : s.Lasting → s.journal.Akin t.journal

variable {s t u : Session}

theorem Hushed.refl (s : Session) : s.Hushed s := ⟨rfl, id, fun _ => .refl _⟩

/-- Hushed stretches follow each other. -/
theorem Hushed.trans (h : s.Hushed t) (h' : t.Hushed u) : s.Hushed u where
  finished := h'.finished.trans h.finished
  lasting hs := h'.lasting (h.lasting hs)
  journal hs := (h.journal hs).trans (h'.journal (h.lasting hs))

/-- Nothing that matters for reporting changes. -/
theorem Hushed.silent (finished : t.metrics.finished = s.metrics.finished)
    (layers : t.layers = s.layers)
    (calm : s.scopes.Calm → t.scopes.Calm) (journal : t.journal = s.journal) : s.Hushed t where
  finished
  lasting hs := ⟨layers ▸ hs.passfail, calm hs.calm, journal ▸ hs.halted⟩
  journal _ := journal ▸ .refl _

theorem Aside.hushed (h : s.Aside t) : s.Hushed t :=
  ⟨finished_of_bearing h.bearing, h.lasting, h.journal⟩

/-- Asides follow each other. -/
theorem Aside.trans (h : s.Aside t) (h' : t.Aside u) : s.Aside u where
  bearing := h'.bearing.trans h.bearing
  lasting hs := h'.lasting (h.lasting hs)
  journal hs := (h.journal hs).trans (h'.journal (h.lasting hs))

theorem Aside.silent (bearing : t.bearing = s.bearing) (layers : t.layers = s.layers)
    (calm : s.scopes.Calm → t.scopes.Calm) (journal : t.journal = s.journal) : s.Aside t :=
  have hushed := Hushed.silent (finished_of_bearing bearing) layers calm journal
  ⟨bearing, hushed.lasting, hushed.journal⟩

end Session

namespace Heads

/-- The contract to stay in place and to report no fault, from sessions that go on reporting. -/
def quiet : Contract where
  Goes := Session.Aside
  Stops s t := t.metrics.finished = s.metrics.finished ∧ ¬s.Lasting
  refl _ := .silent rfl rfl id rfl
  trans := .trans
  stop h h' := ⟨h'.1.trans h.hushed.finished, fun hs => h'.2 (h.lasting hs)⟩

/-- The contract to report no fault, from sessions that go on reporting, and to finish no
function. -/
def hush : Contract where
  Goes := Session.Hushed
  Stops s t := t.metrics.finished = s.metrics.finished ∧ ¬s.Lasting
  refl := .refl
  trans := .trans
  stop h h' := ⟨h'.1.trans h.finished, fun hs => h'.2 (h.lasting hs)⟩

/-- The contract to stay in place. -/
def staying : Contract where
  Goes s t := t.bearing = s.bearing
  Stops s t := t.metrics.finished = s.metrics.finished
  refl _ := rfl
  trans h h' := h'.trans h
  stop h h' := h'.trans (Session.finished_of_bearing h)

section

variable {α : Type} {s : Session} {d : Diagnostic}

/-- A report stays where it is. -/
theorem staying_emit (d : Diagnostic) : Resolves staying (emit d) := by
  intro s
  unfold emit
  dsimp only
  split
  · rfl
  · rfl

/-- A session that goes on reporting takes every diagnostic. -/
theorem emit_of_lasting (hs : s.Lasting) (d : Diagnostic) :
    emit d s = .ok () { s with journal := s.journal.record d } := by
  unfold emit
  dsimp only
  rw [hs.passfail.enabled, Bool.and_false]
  rfl

/-- A report of no fault is quiet. -/
theorem quiet_emit (h : d.isFault = false) : Resolves quiet (emit d) := by
  intro s
  by_cases hs : s.Lasting
  · rw [emit_of_lasting hs]
    exact ⟨rfl, fun _ => ⟨hs.passfail, hs.calm, (Journal.halted_record ..).trans hs.halted⟩,
      fun _ => .remark _ h⟩
  · refine (staying_emit d s).imp (fun t ht => ?_) fun _ ht => ⟨ht, hs⟩
    exact ⟨ht, fun h => absurd h hs, fun h => absurd h hs⟩

theorem quiet_warnAt {f : Finding} (line column : Nat) (h : f.isSemantic) :
    Resolves quiet (warnAt f line column) :=
  quiet_emit (Finding.isFault_of_isSemantic h line column)

/-- What calm scopes found is no fault. -/
theorem quiet_flushScopes : Resolves quiet flushScopes := by
  intro s
  let cleared := { s with scopes := { s.scopes with findings := [] } }
  have hNone : cleared.scopes.Calm := fun _ hf => absurd hf List.not_mem_nil
  have hCleared : s.Aside cleared := .silent rfl rfl (fun _ => hNone) rfl
  show Resolved _ _ ((s.scopes.findings.forM fun f => warnAt f.finding f.line f.column) cleared)
  by_cases hs : s.Lasting
  · have hAll : Resolves quiet (s.scopes.findings.forM fun f => warnAt f.finding f.line f.column) :=
      .forM fun f hf => quiet_warnAt _ _ (Finding.isSemantic_of_isRemark (hs.calm f hf))
    exact (hAll cleared).imp (fun _ => hCleared.trans) fun _ h => absurd (hCleared.lasting hs) h.2
  · have hAll :
      Resolves staying (s.scopes.findings.forM fun f => warnAt f.finding f.line f.column) :=
      .forM fun f _ => staying_emit _
    refine (hAll cleared).imp (fun t ht => ?_) fun _ ht => ⟨ht, hs⟩
    exact ⟨ht, fun h => absurd h hs, fun h => absurd h hs⟩

/-- Quiet parsers may warn and use names. -/
theorem quiet_lenient : quiet.Lenient where
  warnAt := quiet_warnAt
  scopes h := .silent rfl rfl (·.evolves h) rfl
  noted := by
    rintro s t ⟨_, _, _, rfl⟩
    exact .silent rfl rfl id rfl
  flushScopes := quiet_flushScopes

theorem quiet_count (f : FunctionMetrics → FunctionMetrics) :
    Resolves quiet (modifyMetrics (·.count f)) :=
  .modify fun _ => .silent rfl rfl id rfl

theorem quiet_setHint (name : Option String) :
    Resolves quiet (setHint name) := .modify fun _ => .silent rfl rfl id rfl

theorem quiet_reportProblems (ps : List Setting.Problem) (line column : Nat) :
    Resolves quiet (reportProblems ps line column) :=
  .forM fun _ _ => quiet_emit rfl

/-- A setting other than `passfail` is changed, or refused. -/
theorem quiet_setOption {setting : Setting} (hOther : setting ≠ .passfail) (value : Setting.Value)
    (atGlobal : Bool) (line column : Nat) :
    Resolves quiet (applyEntry (.setOption setting value) atGlobal line column) := by
  intro s
  cases hSet : s.layers.set setting value atGlobal with
  | ok layers =>
    have hLayers : s.Aside { s with layers } := by
      refine ⟨rfl, fun hs => ⟨?_, hs.calm, hs.halted⟩, fun _ => .refl _⟩
      rw [Setting.Layers.eq_put_of_set hSet]
      exact hs.passfail.put hOther value
    have hPredefine : Resolves quiet (predefine setting value) := by
      refine .ite _ ?_ (.pure ())
      split
      · exact quiet_lenient.modifyScopes fun _ _ => .silent rfl
      · exact .pure ()
    rw [applyEntry_of_ok hSet]
    exact (hPredefine _).imp (fun _ => hLayers.trans) fun _ => quiet.stop hLayers
  | error problem =>
    rw [applyEntry_of_error hSet]
    exact quiet_emit rfl s

/-- What is quiet is hushed. -/
theorem hush_of_quiet {p : Parse α} (h : Resolves quiet p) : Resolves hush p :=
  fun s => (h s).imp (fun _ => Session.Aside.hushed) fun _ => id

/-- A session that goes on reporting comes through what reports no fault. -/
theorem exists_of_resolved {p : Parse α} {goes stops : Session → Prop}
    (h : Resolved goes stops (p s)) (hs : ∀ t, ¬stops t) : ∃ a t, p s = .ok a t ∧ goes t := by
  cases hr : p s with
  | ok a t =>
    rw [hr] at h
    exact ⟨a, t, rfl, h⟩
  | error e t =>
    rw [hr] at h
    cases e with
    | badSyntax => exact h.elim
    | halt => exact absurd h (hs t)

/-- What is quiet never stops a lasting run. -/
theorem exists_of_quiet {p : Parse α} (h : Resolves quiet p) (hs : s.Lasting) :
    ∃ a t, p s = .ok a t ∧ s.Aside t :=
  exists_of_resolved (h s) fun _ ht => ht.2 hs

end

/-! ## Two sessions that report alike -/

/-- Both sessions go on reporting, and have the same faults. -/
structure Matched (s s' : Session) : Prop where
  lasting : s.Lasting
  lasting' : s'.Lasting
  journal : s.journal.Akin s'.journal

/-- Each session goes on in its own way without reporting a fault. -/
theorem Matched.hushed {s s' t t' : Session} (hs : Matched s s') (h : s.Hushed t)
    (h' : s'.Hushed t') : Matched t t' where
  lasting := h.lasting hs.lasting
  lasting' := h'.lasting hs.lasting'
  journal := (h.journal hs.lasting).symm.trans (hs.journal.trans (h'.journal hs.lasting'))

/-- From matched sessions both parsers succeed, stay in place and report the same faults. -/
def Echoes (p p' : Parse Unit) : Prop :=
  ∀ s s' : Session, Matched s s' → ∃ t t', p s = .ok () t ∧ p' s' = .ok () t' ∧
    t.bearing = s.bearing ∧ t'.bearing = s'.bearing ∧ Matched t t'

namespace Echoes

variable {p p' : Parse Unit}

/-- Two quiet parsers report alike, whatever they are. -/
theorem of_quiet (h : Resolves quiet p) (h' : Resolves quiet p') : Echoes p p' := by
  intro s s' hs
  obtain ⟨⟨⟩, t, ht, hAside⟩ := exists_of_quiet h hs.lasting
  obtain ⟨⟨⟩, t', ht', hAside'⟩ := exists_of_quiet h' hs.lasting'
  exact ⟨t, t', ht, ht', hAside.bearing, hAside'.bearing, hs.hushed hAside.hushed hAside'.hushed⟩

/-- One after the other. -/
theorem bind {q q' : Parse Unit} (h : Echoes p p') (hq : Echoes q q') :
    Echoes (p >>= fun _ => q) (p' >>= fun _ => q') := by
  intro s s' hs
  obtain ⟨t, t', ht, ht', hPlace, hPlace', hMatched⟩ := h s s' hs
  obtain ⟨u, u', hu, hu', hThere, hThere', hLast⟩ := hq t t' hMatched
  exact ⟨u, u', (bind_of_ok ht).trans hu, (bind_of_ok ht').trans hu', hThere.trans hPlace,
    hThere'.trans hPlace', hLast⟩

/-- Both sessions are read. -/
theorem read {f f' : Session → Parse Unit} (h : ∀ s s', Echoes (f s) (f' s')) :
    Echoes (get >>= f) (get >>= f') :=
  fun s s' => h s s' s s'

/-- Lists of counterparts are gone through together. -/
theorem forM {α : Type} {R : α → α → Prop} {l l' : List α} (hl : List.Forall₂ R l l')
    {f f' : α → Parse PUnit}
    (h : ∀ a ∈ l, ∀ a', R a a' → Echoes (f a) (f' a')) : Echoes (l.forM f) (l'.forM f') := by
  induction hl with
  | nil => exact of_quiet (.pure ()) (.pure ())
  | cons hFirst _ ih =>
    refine bind (h _ (List.mem_cons_self ..) _ hFirst) (ih fun a ha => ?_)
    exact h a (List.mem_cons_of_mem _ ha)

/-- The same change of both journals. -/
theorem modifyJournal {f : Journal → Journal} (h : ∀ j j' : Journal, j.Akin j' → (f j).Akin (f j'))
    (hHalted : ∀ j : Journal, (f j).halted = j.halted) :
    Echoes (modify fun s => { s with journal := f s.journal })
      (modify fun s => { s with journal := f s.journal }) :=
  fun _ _ hs =>
    ⟨_, _, rfl, rfl, rfl, rfl,
    ⟨hs.lasting.passfail, hs.lasting.calm, (hHalted _).trans hs.lasting.halted⟩,
    ⟨hs.lasting'.passfail, hs.lasting'.calm, (hHalted _).trans hs.lasting'.halted⟩,
    h _ _ hs.journal⟩

/-- An item of a directive has the same effect on both journals. -/
theorem applyEntry {entry : Directive.Entry} (h : ∀ value, entry ≠ .setOption .passfail value)
    (atGlobal atGlobal' : Bool) (line column column' : Nat) :
    Echoes (applyEntry entry atGlobal line column) (applyEntry entry atGlobal' line column') := by
  -- changes of the scopes are quiet
  have hScopes (f f' : Scope.Tracker → Scope.Tracker) (hf : ∀ t, t.Evolves (f t))
    (hf' : ∀ t, t.Evolves (f' t)) :
      Echoes (modifyScopes fun t _ => f t) (modifyScopes fun t _ => f' t) :=
    of_quiet (quiet_lenient.modifyScopes fun t _ => hf t)
      (quiet_lenient.modifyScopes fun t _ => hf' t)
  -- entries that concern lines change both journals by the same operation, the rest is quiet
  cases entry with
  | setOption setting value =>
    have hOther : setting ≠ .passfail := fun hSame => h value (hSame ▸ rfl)
    exact of_quiet (quiet_setOption hOther value atGlobal line column)
      (quiet_setOption hOther value atGlobal' line column')
  | ignoreCode code => exact modifyJournal (fun _ _ hj => hj.ignoreCode code) fun _ => rfl
  | ignore change =>
    cases change with
    | start =>
      exact modifyJournal (fun _ _ hj => hj.startRegion line) fun j =>
        (Journal.Ignores.startRegion j line).halted
    | stop =>
      exact modifyJournal (fun _ _ hj => hj.endRegion line) fun j =>
        (Journal.Ignores.endRegion j line).halted
    | line => exact modifyJournal (fun _ _ hj => hj.ignoreLine line) fun _ => rfl
  | declareGlobal name writable =>
    exact hScopes (·.declareGlobal name writable line column)
      (·.declareGlobal name writable line column') (fun _ => .silent rfl) fun _ => .silent rfl
  | removeGlobal name =>
    exact hScopes (·.removeGlobal name) (·.removeGlobal name) (fun _ => .silent rfl)
      fun _ => .silent rfl
  | exportName name =>
    exact hScopes (·.exportName name) (·.exportName name) (fun _ => .silent rfl)
      fun _ => .silent rfl

/-- A lexing error is reported on the same line in both, and so is what a directive says. -/
theorem note {r r' : Result} (hMoved : MovedResult r r')
    (h : ∀ value line, (.setOption .passfail value, line) ∉ directions r) :
    Echoes (note r) (note r') := by
  -- an error of the lexer is a fault in both journals, on the same line
  have hError {problem : LexProblem} {place place' : Position} {recovered recovered' : Option Token}
      (hLine : place'.line = place.line) : Echoes (reportLexError ⟨problem, place, recovered⟩)
        (reportLexError ⟨problem, place', recovered'⟩) := by
    intro s s' hs
    let d : Diagnostic := ⟨place.line, place.column, problem.code, problem.message, .lexical⟩
    let d' : Diagnostic := ⟨place'.line, place'.column, problem.code, problem.message, .lexical⟩
    have hRecord : (s.journal.record d).Akin (s'.journal.record d') :=
      hs.journal.record hLine rfl rfl
    refine ⟨_, _, emit_of_lasting hs.lasting d, emit_of_lasting hs.lasting' d', rfl, rfl, ?_,
      ?_, hRecord⟩
    · exact ⟨hs.lasting.passfail, hs.lasting.calm,
        (Journal.halted_record ..).trans hs.lasting.halted⟩
    · exact ⟨hs.lasting'.passfail, hs.lasting'.calm,
        (Journal.halted_record ..).trans hs.lasting'.halted⟩
  cases hMoved with
  | failure hLine => exact hError hLine
  | recovered hLine _ => exact hError hLine
  | @token t t' hToken =>
    unfold Parse.note
    dsimp only
    unfold directions at h
    dsimp only at h
    rw [hToken.kind, hToken.line]
    -- only directives are noted
    cases hKind : t.kind with
    | directive d =>
      rw [hKind] at h
      refine bind (of_quiet (quiet_reportProblems _ _ _) (quiet_reportProblems _ _ _))
        (read fun s s' => ?_)
      refine forM (R := Eq) (List.forall₂_refl _) fun entry hEntry _ hSame => ?_
      rw [← hSame]
      refine applyEntry (fun value hSet => ?_) _ _ _ _ _
      exact h value t.line (List.mem_map.mpr ⟨entry, hEntry, hSet ▸ rfl⟩)
    | _ => exact of_quiet (.pure ()) (.pure ())

end Echoes

/-! ## Consuming tokens -/

/-- Both sessions consume their tokens, if the next ones of both are the same and no directive
before it sets `passfail`. -/
theorem Matched.advance {s s' : Session} (h : Matched s s') {l l' after after' : Lexer}
    {rs rs' : List Result}
    {next next' : Token} (hFrom : s.stream.From l) (hFrom' : s'.stream.From l')
    (hUnset : ∀ value line, (.setOption .passfail value, line) ∉ rs.flatMap directions)
    (hLeads : Leads l rs next after) (hLeads' : Leads l' rs' next' after')
    (hResults : List.Forall₂ MovedResult rs rs') :
    ∃ t t', Parse.advance s = .ok () t ∧ Parse.advance s' = .ok () t' ∧
      t.bearing = s.bearingAt next ∧ t'.bearing = s'.bearingAt next' ∧ Matched t t' := by
  rw [advance_eq hFrom hLeads, advance_eq hFrom' hLeads']
  -- the token is checked
  obtain ⟨m, m', hm, hm', hAt, hAt', hMatched⟩ :=
    Echoes.of_quiet quiet_lenient.checkConsumed quiet_lenient.checkConsumed s s' h
  let read : Session := { m with
    consumed := m.token.offset + m.token.raw.length, stream := s.stream.pullSignificant.2 }
  let read' : Session := { m' with
    consumed := m'.token.offset + m'.token.raw.length, stream := s'.stream.pullSignificant.2 }
  -- what is passed on the way is noted
  obtain ⟨n, n', hn, hn', hOn, hOn', hNoted⟩ :
    ∃ n n', rs.forM note read = .ok () n ∧ rs'.forM note read' = .ok () n' ∧
      n.bearing = read.bearing ∧ n'.bearing = read'.bearing ∧ Matched n n' := by
    refine Echoes.forM hResults (fun r hr r' hMoved => .note hMoved fun value line hMem =>
      ?_) read read' (hMatched.hushed (.silent rfl rfl id rfl) (.silent rfl rfl id rfl))
    exact hUnset value line (List.mem_flatMap.mpr ⟨r, hr, hMem⟩)
  let arrived : Session := { n with previous := n.token, token := next }
  let arrived' : Session := { n' with previous := n'.token, token := next' }
  -- so are the lines before the next token
  obtain ⟨t, t', ht, ht', hLast, hLast', hDone⟩ :=
    Echoes.of_quiet (quiet_lenient.checkLinesBefore next.line)
      (quiet_lenient.checkLinesBefore next'.line)
      arrived arrived' (hNoted.hushed (.silent rfl rfl id rfl) (.silent rfl rfl id rfl))
  have hRun : arrive s.stream.pullSignificant.2 rs next s = .ok () t := by
    show (checkConsumed >>= _) s = _
    rw [bind_of_ok hm]
    show (rs.forM note >>= _) read = _
    rw [bind_of_ok hn]
    exact ht
  have hRun' : arrive s'.stream.pullSignificant.2 rs' next' s' = .ok () t' := by
    show (checkConsumed >>= _) s' = _
    rw [bind_of_ok hm']
    show (rs'.forM note >>= _) read' = _
    rw [bind_of_ok hn']
    exact ht'
  exact ⟨t, t', hRun, hRun', hLast.trans (Session.bearing_arrive hAt hOn next),
    hLast'.trans (Session.bearing_arrive hAt' hOn' next'), hDone⟩

/-! ## At the same token -/

/-- Both sessions are at the same token, which is as described, with `k` brackets open before it.
Where `j` is not zero, both take the word `in` for the same. -/
structure Abreast (stop k j : Nat) (K : TokenKind → Prop) (s s' : Session) :
    Prop extends Matched s s' where
  token : s.token.Moved s'.token
  front : ∃ l l', s.stream.From l ∧ s'.stream.From l' ∧ l.NeverSets ∧ Front stop k s.token l l'
  noIn : 0 < j → s'.noIn = s.noIn
  nesting : s'.nesting = s.nesting
  sourceLength : s.sourceLength + headStart ≤ s'.sourceLength
  kind : K s.token.kind

/-- Any token. -/
abbrev Any : TokenKind → Prop := fun _ => True

namespace Abreast

variable {stop k j : Nat} {K : TokenKind → Prop} {s s' t t' : Session}

/-- Both sessions stay at the token, and have the same faults again. -/
theorem stay (h : Abreast stop k j K s s') (ht : t.bearing = s.bearing)
    (ht' : t'.bearing = s'.bearing) (hMatched : Matched t t') : Abreast stop k j K t t' := by
  simp only [Session.bearing, Prod.mk.injEq] at ht ht'
  obtain ⟨hStream, hToken, -, hLength, hNoIn, hNesting, -⟩ := ht
  obtain ⟨hStream', hToken', -, hLength', hNoIn', hNesting', -⟩ := ht'
  obtain ⟨l, l', hFrom, hFrom', hNever, hFront⟩ := h.front
  exact {
    toMatched := hMatched
    token := hToken ▸ hToken' ▸ h.token
    front := ⟨l, l', hStream ▸ hFrom, hStream' ▸ hFrom', hNever, hToken ▸ hFront⟩
    noIn hj := hNoIn'.trans ((h.noIn hj).trans hNoIn.symm)
    nesting := hNesting'.trans (h.nesting.trans hNesting.symm)
    sourceLength := hLength ▸ hLength' ▸ h.sourceLength
    kind := hToken ▸ h.kind }

/-- Only the flag for `in` and the level of nesting change. -/
theorem shift (h : Abreast stop k j K s s') {i : Nat}
    (ht : ∃ noIn nesting, t = { s with noIn, nesting })
    (ht' : ∃ noIn nesting, t' = { s' with noIn, nesting }) (hNoIn : 0 < i → t'.noIn = t.noIn)
    (hNesting : t'.nesting = t.nesting) : Abreast stop k i K t t' := by
  obtain ⟨_, _, rfl⟩ := ht
  obtain ⟨_, _, rfl⟩ := ht'
  exact {
    toMatched := h.toMatched.hushed (.silent rfl rfl id rfl) (.silent rfl rfl id rfl)
    token := h.token
    front := h.front
    noIn := hNoIn
    nesting := hNesting
    sourceLength := h.sourceLength
    kind := h.kind }

/-- There are no fewer rounds in the head. -/
theorem budget_le (h : Abreast stop k j K s s') : s.budget ≤ s'.budget := by
  have hLength := h.sourceLength
  have hOffset := h.token.offset
  unfold Session.budget
  omega

/-- Where `j` is not zero, it stands for any depth. -/
theorem agree (h : Abreast stop k j K s s') (hj : 0 < j) (i : Nat) : Abreast stop k i K s s' :=
  { h with noIn := fun _ => h.noIn hj }

/-- No class starts at the token. -/
theorem noClass (h : Abreast stop k j K s s') : s.token.kind ≠ .keyword .classWord := by
  obtain ⟨l, l', -, -, -, hFront⟩ := h.front
  cases hFront with
  | inside _ hApart => exact hApart.noClass
  | last hKind => rw [hKind]; exact nofun

/-- If the token is `in`, it stands inside brackets. -/
theorem bracketed (h : Abreast stop k j K s s') (hKind : s.token.kind = .keyword .inWord) :
    0 < k := by
  obtain ⟨l, l', -, -, -, hFront⟩ := h.front
  cases hFront with
  | inside _ hApart => exact hApart.bracketed hKind
  | last hSemicolon => cases hKind.symm.trans hSemicolon

/-- The token's kind may be known less well. -/
theorem imp {K' : TokenKind → Prop} (h : Abreast stop k j K s s')
    (hK : K s.token.kind → K' s.token.kind) : Abreast stop k j K' s s' :=
  { h with kind := hK h.kind }

/-- Where both sessions are behind the tokens that they consumed. -/
structure Steps (stop k j : Nat) (s s' t t' : Session) :
    Prop extends Abreast stop k j Any t t' where
  previous : t.previous = s.token
  previous' : t'.previous = s'.token

/-- Both sessions consume the token, unless it is the semicolon behind the text. -/
theorem advance (h : Abreast stop k j K s s') (hKind : s.token.kind ≠ .punctuator .semicolon) :
    ∃ t t', Parse.advance s = .ok () t ∧ Parse.advance s' = .ok () t' ∧
      Steps stop (s.token.kind.bracketed k) j s s' t t' := by
  obtain ⟨l, l', hFrom, hFrom', hNever, hFront⟩ := h.front
  obtain ⟨rs, next, after, hLeads⟩ := exists_leads l
  obtain ⟨rs', next', after', hLeads', hResults, hNext, hThere⟩ := hFront.leads hKind hLeads
  obtain ⟨hUnset, hNeverAfter⟩ := hNever.leads hLeads
  obtain ⟨-, hAfter, -⟩ := TokenStream.pullSignificant_spec hFrom hLeads
  obtain ⟨-, hAfter', -⟩ := TokenStream.pullSignificant_spec hFrom' hLeads'
  obtain ⟨t, t', ht, ht', hAt, hAt', hDone⟩ :=
    h.toMatched.advance hFrom hFrom' hUnset hLeads hLeads' hResults
  simp only [Session.bearing, Session.bearingAt, Prod.mk.injEq] at hAt hAt'
  obtain ⟨hStream, hToken, hPrevious, hLength, hNoIn, hNesting, -⟩ := hAt
  obtain ⟨hStream', hToken', hPrevious', hLength', hNoIn', hNesting', -⟩ := hAt'
  exact ⟨t, t', ht, ht', {
    toMatched := hDone
    token := by rw [hToken, hToken']; exact hNext
    front := ⟨after, after', hStream ▸ hAfter, hStream' ▸ hAfter', hNeverAfter, hToken ▸ hThere⟩
    noIn hj := by rw [hNoIn', hNoIn, h.noIn hj]
    nesting := by rw [hNesting', hNesting, h.nesting]
    sourceLength := by rw [hLength', hLength]; exact h.sourceLength
    kind := trivial
    previous := hPrevious
    previous' := hPrevious' }⟩

/-! ### Looking ahead -/

/-- Only the queues of the streams change. -/
theorem look (h : Abreast stop k j K s s') {stream stream' : TokenStream}
    (hStream : ∀ l, s.stream.From l → stream.From l)
    (hStream' : ∀ l, s'.stream.From l → stream'.From l) :
    Abreast stop k j K { s with stream } { s' with stream := stream' } := by
  obtain ⟨l, l', hFrom, hFrom', hRest⟩ := h.front
  exact {
    toMatched := h.toMatched.hushed (.silent rfl rfl id rfl) (.silent rfl rfl id rfl)
    token := h.token
    front := ⟨l, l', hStream l hFrom, hStream' l' hFrom', hRest⟩
    noIn := h.noIn
    nesting := h.nesting
    sourceLength := h.sourceLength
    kind := h.kind }

/-- The token after the current one is the same in both, unless that is the semicolon behind the
text. -/
theorem peekIs (h : Abreast stop k j K s s') (hKind : s.token.kind ≠ .punctuator .semicolon)
    {test : Token → Bool}
    (hTest : ∀ t t', t.Moved t' → test t' = test t) : ∃ b t t', peekIs test s = .ok b t ∧
      peekIs test s' = .ok b t' ∧ Abreast stop k j K t t' := by
  obtain ⟨l, l', hFrom, hFrom', -, hFront⟩ := h.front
  obtain ⟨rs, next, after, hLeads⟩ := exists_leads l
  obtain ⟨rs', next', after', hLeads', -, hNext, -⟩ := hFront.leads hKind hLeads
  have hVisit : Visits TokenStream.passing l 0 next rs.length := hLeads.visits rfl
  have hVisit' : Visits TokenStream.passing l' 0 next' rs'.length := hLeads'.visits rfl
  obtain ⟨hPeek, -⟩ := TokenStream.peek_spec hFrom hVisit
  obtain ⟨hPeek', -⟩ := TokenStream.peek_spec hFrom' hVisit'
  refine ⟨test next, _, _, ?_, ?_, h.look (fun _ => TokenStream.from_peek 0) fun _ =>
    TokenStream.from_peek 0⟩
  · show EStateM.Result.ok ((s.stream.peek 0).1.any test) _ = _
    rw [hPeek]
    rfl
  · show EStateM.Result.ok ((s'.stream.peek 0).1.any test) _ = _
    rw [hPeek', ← hTest _ _ hNext]
    rfl

/-- Two tokens further on there is an arrow in both, or in neither. -/
theorem peekArrowAfterNext (h : Abreast stop k j K s s')
    (hKind : s.token.kind ≠ .punctuator .semicolon) :
    ∃ b t t', peekArrowAfterNext s = .ok b t ∧ peekArrowAfterNext s' =
      .ok b t' ∧ Abreast stop k j K t t' := by
  obtain ⟨l, l', hFrom, hFrom', -, hFront⟩ := h.front
  obtain ⟨rs, next, after, hLeads⟩ := exists_leads l
  obtain ⟨rs', next', after', hLeads', -, hNext, hThere⟩ := hFront.leads hKind hLeads
  -- the end of input is not passed
  obtain ⟨u, u', n, n', hVisit, hVisit', hArrow⟩ : ∃ u u' n n', Visits TokenStream.passing l 1 u n ∧
      Visits TokenStream.passing l' 1 u' n' ∧ u'.isPunctuator .arrow = u.isPunctuator .arrow := by
    -- the search passes over one token, unless that is the end
    cases hLast : next.isEnd with
    | true =>
      refine ⟨next, next', _, _, hLeads.visits ?_, hLeads'.visits ?_, ?_⟩
      · rw [TokenStream.passing, hLast]
        rfl
      · rw [TokenStream.passing, hNext.isEnd, hLast]
        rfl
      · exact hNext.isPunctuator .arrow
    | false =>
      obtain ⟨rest, second, last, hSecond⟩ := exists_leads after
      obtain ⟨rest', second', last', hSecond', hArrow⟩ := hThere.arrow_next hSecond
      have hPassed : TokenStream.passing 1 next = .inl 0 := by
        rw [TokenStream.passing, hLast]
        rfl
      have hPassed' : TokenStream.passing 1 next' = .inl 0 := by
        rw [TokenStream.passing, hNext.isEnd, hLast]
        rfl
      have hAnswer : Visits TokenStream.passing after 0 second rest.length := hSecond.visits rfl
      have hAnswer' : Visits TokenStream.passing after' 0 second' rest'.length :=
        hSecond'.visits rfl
      obtain ⟨n, hVisit⟩ := hLeads.passes hPassed hAnswer
      obtain ⟨n', hVisit'⟩ := hLeads'.passes hPassed' hAnswer'
      exact ⟨second, second', n, n', hVisit, hVisit', hArrow⟩
  obtain ⟨hPeek, -⟩ := TokenStream.peek_spec hFrom hVisit
  obtain ⟨hPeek', -⟩ := TokenStream.peek_spec hFrom' hVisit'
  refine ⟨u.isPunctuator .arrow, _, _, ?_, ?_,
    h.look (fun _ => TokenStream.from_peek 1) fun _ => TokenStream.from_peek 1⟩
  · show EStateM.Result.ok ((s.stream.peek 1).1.any (·.isPunctuator .arrow)) _ = _
    rw [hPeek]
    rfl
  · show EStateM.Result.ok ((s'.stream.peek 1).1.any (·.isPunctuator .arrow)) _ = _
    rw [hPeek', ← hArrow]
    rfl

/-- The bracket at the token, once closed, is followed by an arrow in both, or in neither. -/
theorem startsArrow (h : Abreast stop k j K s s') :
    ∃ b t t', startsArrow s = .ok b t ∧ startsArrow s' = .ok b t' ∧ Abreast stop k j K t t' := by
  obtain ⟨l, l', hFrom, hFrom', -, hFront⟩ := h.front
  obtain ⟨b, n, hVisit⟩ := exists_visits TokenStream.answersAtEnd_closing l 1
  obtain ⟨n', hVisit'⟩ := hFront.closing hVisit
  obtain ⟨hSurvey, -⟩ := TokenStream.survey_spec TokenStream.answersAtEnd_closing hFrom hVisit
  obtain ⟨hSurvey', -⟩ := TokenStream.survey_spec TokenStream.answersAtEnd_closing hFrom' hVisit'
  refine ⟨b, _, _, ?_, ?_,
    h.look (fun _ => TokenStream.from_closesBeforeArrow) fun _ =>
    TokenStream.from_closesBeforeArrow⟩
  · show EStateM.Result.ok ((s.stream.survey TokenStream.closing 1).1.getD false) _ = _
    rw [hSurvey]
    rfl
  · show EStateM.Result.ok ((s'.stream.survey TokenStream.closing 1).1.getD false) _ = _
    rw [hSurvey']
    rfl

end Abreast

end Heads

end ScriptLint
