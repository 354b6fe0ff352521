import ScriptLint.Proofs.Directives.Extent
import ScriptLint.Proofs.Log.Stops

/-!
# Tokens and lines under way

A change of a run stays at the current token, or consumes it and then checks the lines that are
over. There is no other change, so what holds of the tokens and of the lines at every session of a
run follows from these two cases.

- `Session.Stays`: the change consumes nothing and checks no line.
- `Setting.Layers.directed`: the settings that the directives between two tokens leave.
- `Session.Takes`: the current token is consumed, and the directives behind it are carried out.
- `Session.Strides`, `Session.Moves.strides`: every change of a run is one of the two.
- `Session.InRun.induction`: what such changes keep holds at every session of a run.
- `Session.Quotes`: the current token and the one before it lie in the source.
-/

namespace ScriptLint

open Parse Grammar Lexer

/-! ## Changes that stay -/

/-- Refused settings are not about long lines. -/
theorem Setting.Problem.code_ne_maxlen (p : Setting.Problem) : p.code ≠ "W101" := by
  cases p <;> exact ne_of_beq_false rfl

/-- Nor are errors of the lexer. -/
theorem LexProblem.code_ne_maxlen (p : LexProblem) : p.code ≠ "W101" := by
  cases p <;> exact ne_of_beq_false rfl

/-- Nor is what a step reports. -/
theorem Finding.code_ne_maxlen {f : Finding} (h : f.isLocal) : f.code ≠ "W101" := by
  cases f <;> first | exact ne_of_beq_false rfl | cases h

namespace Session

/-- Nothing is consumed, no line is checked and none is reported as too long, though more may be
read ahead. -/
structure Stays (s t : Session) : Prop where
  token : t.token = s.token
  previous : t.previous = s.previous
  sourceLength : t.sourceLength = s.sourceLength
  consumed : t.consumed = s.consumed
  checkedLines : t.checkedLines = s.checkedLines
  uncheckedLines : t.uncheckedLines = s.uncheckedLines
  stream : ∀ l, s.stream.From l → ∃ l', t.stream.From l' ∧ l'.cursor = l.cursor
  journal : Journal.Receives "W101" [] s.journal t.journal

variable {s t u : Session}

theorem Stays.refl (s : Session) : s.Stays s :=
  ⟨rfl, rfl, rfl, rfl, rfl, rfl, fun l hl => ⟨l, hl, rfl⟩, .refl _ _⟩

/-- Staying may be continued. -/
theorem Stays.trans (h : s.Stays t) (h' : t.Stays u) : s.Stays u where
  token := h'.token.trans h.token
  previous := h'.previous.trans h.previous
  sourceLength := h'.sourceLength.trans h.sourceLength
  consumed := h'.consumed.trans h.consumed
  checkedLines := h'.checkedLines.trans h.checkedLines
  uncheckedLines := h'.uncheckedLines.trans h.uncheckedLines
  stream l hl := by
    obtain ⟨m, hm, hCursor⟩ := h.stream l hl
    obtain ⟨n, hn, hCursor'⟩ := h'.stream m hm
    exact ⟨n, hn, hCursor'.trans hCursor⟩
  journal := h.journal.trans h'.journal

/-- Neither the place in the source nor the lines change, and no long line is reported. -/
theorem Stays.of_placed (h : s.Placed t) (hChecked : t.checkedLines = s.checkedLines)
    (hUnchecked : t.uncheckedLines = s.uncheckedLines)
    (hJournal : Journal.Receives "W101" [] s.journal t.journal) : s.Stays t where
  token := h.token
  previous := h.previous
  sourceLength := h.sourceLength
  consumed := h.consumed
  checkedLines := hChecked
  uncheckedLines := hUnchecked
  stream l hl := ⟨l, h.stream ▸ hl, rfl⟩
  journal := hJournal

end Session

/-- The contract to consume nothing and to check no line, as long as the scopes are calm. -/
def staying : Contract where
  Goes s t := s.scopes.Calm → s.Stays t ∧ t.scopes.Calm
  Stops s t := s.scopes.Calm → s.Stays t
  refl s hs := ⟨.refl s, hs⟩
  trans h h' hs := ⟨(h hs).1.trans (h' (h hs).2).1, (h' (h hs).2).2⟩
  stop h h' hs := (h hs).1.trans (h' (h hs).2)

/-- Something else changes. -/
theorem Session.Stays.goes {s t : Session} (h : s.Stays t) (hCalm : s.scopes.Calm → t.scopes.Calm) :
    staying.Goes s t :=
  fun hs => ⟨h, hCalm hs⟩

namespace Parse

variable {α : Type} {p : Parse α} {s t : Session}

/-- Only calm scopes matter. -/
theorem staying_intro (h : ∀ s : Session, s.scopes.Calm →
    Settles (staying.Goes s) (staying.Stops s) (p s)) : staying.Keeps p := by
  intro s
  by_cases hs : s.scopes.Calm
  · exact h s hs
  · cases p s with
    | ok a t => exact fun hCalm => absurd hCalm hs
    | error e t => cases e <;> exact fun hCalm => absurd hCalm hs

/-- Who reports anything else stays. -/
theorem staying_emit {d : Diagnostic} (h : d.code ≠ "W101") : staying.Keeps (emit d) := by
  intro s
  have hRecord : Journal.Receives "W101" [] s.journal (s.journal.record d) :=
    .none _ (.submit d) fun e he => Option.some.inj he ▸ h
  unfold emit
  dsimp only
  split
  · -- the last diagnostic says that the run stops
    have hHalt (j : Journal) : Journal.Receives "W101" [] j
        (j.halt ((Finding.stopping s.percent).diagnostic d.line d.column)) :=
      .none j (.halt _) fun e he => Option.some.inj he ▸ ne_of_beq_false rfl
    exact fun _ => .of_placed ⟨rfl, rfl, rfl, rfl, rfl⟩ rfl rfl (hRecord.trans (hHalt _))
  · have hStays : s.Stays { s with journal := s.journal.record d } :=
      .of_placed ⟨rfl, rfl, rfl, rfl, rfl⟩ rfl rfl hRecord
    exact hStays.goes id

theorem staying_warnAt {f : Finding} (line column : Nat) (h : f.isLocal) :
    staying.Keeps (warnAt f line column) :=
  staying_emit (Finding.code_ne_maxlen h)

theorem staying_warnUnless (setting : Setting) {f : Finding} (line column : Nat) (h : f.isLocal) :
    staying.Keeps (warnUnless setting f line column) :=
  staying.read fun _ => staying.ite _ (staying_warnAt line column h) (staying.pure ())

/-- A change of something else, which leaves the scopes calm. -/
theorem staying_modify {f : Session → Session} (hPlaced : ∀ s : Session, s.Placed (f s))
    (hSame : ∀ s : Session, (f s).checkedLines = s.checkedLines ∧
    (f s).uncheckedLines = s.uncheckedLines ∧
      (f s).journal = s.journal)
    (hCalm : ∀ s : Session, s.scopes.Calm → (f s).scopes.Calm) : staying.Keeps (modify f) := by
  refine staying.modify fun s => Session.Stays.goes ?_ (hCalm s)
  obtain ⟨hChecked, hUnchecked, hJournal⟩ := hSame s
  exact .of_placed (hPlaced s) hChecked hUnchecked (hJournal ▸ .refl _ _)

/-- Looking ahead changes the stream only. -/
theorem staying_look {f : Session → α} {g : TokenStream → TokenStream}
    (hFrom : ∀ (stream : TokenStream) l, stream.From l → ∃ l', (g stream).From l' ∧
    l'.cursor = l.cursor)
    (hp : ∀ s, p s = .ok (f s) { s with stream := g s.stream }) : staying.Keeps p := by
  intro s
  rw [hp s]
  exact Session.Stays.goes ⟨rfl, rfl, rfl, rfl, rfl, rfl, hFrom s.stream, .refl _ _⟩ id

theorem staying_peek (n : Nat) : staying.Keeps (peek n) :=
  staying_look (fun _ l hl => ⟨l, TokenStream.from_peek n hl, rfl⟩) fun _ => rfl

theorem staying_peekIs (test : Token → Bool) : staying.Keeps (peekIs test) :=
  staying.bind (staying_peek 0) fun _ => staying.pure _

/-- What calm scopes found is not about a line. -/
theorem staying_flushScopes : staying.Keeps flushScopes := by
  refine staying_intro fun s hs => ?_
  have hAll : staying.Keeps (s.scopes.findings.forM fun f => warnAt f.finding f.line f.column) :=
    staying.forM fun f hf => staying_warnAt _ _ (Finding.isLocal_of_isRemark (hs f hf))
  have hCleared : s.Stays { s with scopes := { s.scopes with findings := [] } } :=
    .of_placed ⟨rfl, rfl, rfl, rfl, rfl⟩ rfl rfl (.refl _ _)
  have hGoes := hCleared.goes fun _ _ hf => absurd hf List.not_mem_nil
  exact (hAll _).imp (fun _ => staying.trans hGoes) fun _ => staying.stop hGoes

theorem staying_enterBlock (opener : Token) : staying.Keeps (enterBlock opener) := by
  refine staying.bind ?_ fun _ => staying.read fun s => ?_
  · exact staying_modify (fun _ => ⟨rfl, rfl, rfl, rfl, rfl⟩) (fun _ => ⟨rfl, rfl, rfl⟩) fun _ => id
  · exact staying.ite _ (staying_warnAt _ _ rfl) (staying.pure ())

theorem staying_closeFunction (line column : Nat) : staying.Keeps (closeFunction line column) := by
  refine staying.readAt fun s => ?_
  have hExit : s.Stays (withoutFunction s) :=
    .of_placed ⟨rfl, rfl, rfl, rfl, rfl⟩ rfl rfl (.refl _ _)
  refine staying.setAt (hExit.goes (·.exit s.layers)) ?_
  refine staying.bind (staying.forM fun f hf => ?_) fun _ => staying_flushScopes
  exact staying_warnAt _ _ (Finding.isLocal_of_isRemark (isRemark_of_metricFindings hf))

/-! ## What is done before the next token -/

/-- The check of quotes changes at most the first quote. -/
theorem staying_checkQuote (quote : Char) (line column : Nat) :
    staying.Keeps (checkQuote quote line column) := by
  have hWarn (b : Prop) [Decidable b] {f : Finding} (h : f.isLocal) :
      staying.Keeps (if b then warnAt f line column else Pure.pure ()) :=
    staying.ite b (staying_warnAt line column h) (staying.pure ())
  refine staying.readAt fun s => ?_
  cases s.layers.quotePolicy with
  | off => exact staying.pure () s
  | single => exact hWarn _ rfl s
  | double => exact hWarn _ rfl s
  | consistent =>
    cases s.firstQuote with
    | none =>
      have hFirst : s.Stays { s with firstQuote := some quote } :=
        .of_placed ⟨rfl, rfl, rfl, rfl, rfl⟩ rfl rfl (.refl _ _)
      exact hFirst.goes id
    | some first => exact hWarn _ rfl s

theorem staying_checkConsumed : staying.Keeps checkConsumed := by
  refine staying.read fun s => ?_
  dsimp only
  split
  · refine staying.bind (staying_checkQuote _ _ _) fun _ => ?_
    refine staying.when _ (staying_warnAt _ _ rfl) fun _ => ?_
    refine staying.when _ (staying_warnUnless _ _ _ rfl) fun _ => ?_
    exact staying.ite _ (staying_warnUnless _ _ _ rfl) (staying.pure ())
  · exact staying.ite _ (staying_warnAt _ _ rfl) (staying.pure ())
  · exact staying.pure ()

/-- Scopes may evolve meanwhile. -/
theorem staying_modifyScopes {f : Scope.Tracker → Setting.Layers → Scope.Tracker}
    (h : ∀ (t : Scope.Tracker) (layers : Setting.Layers), t.Evolves (f t layers)) :
    staying.Keeps (modifyScopes f) :=
  staying_modify (fun _ => ⟨rfl, rfl, rfl, rfl, rfl⟩) (fun _ => ⟨rfl, rfl, rfl⟩) fun s hs =>
    hs.evolves (h s.scopes s.layers)

/-- An item of a directive hands nothing to the journal. -/
theorem staying_direct (entry : Directive.Entry) (line : Nat) :
    staying.Keeps
      (modify fun s => { s with journal := s.journal.perform (.direct entry line) }) := by
  refine staying.modify fun s => Session.Stays.goes
    (.of_placed ⟨rfl, rfl, rfl, rfl, rfl⟩ rfl rfl ?_) id
  refine .none _ (.direct entry line) fun d hd => ?_
  cases hd

/-- One case for each item of a directive. -/
theorem staying_applyEntry (entry : Directive.Entry) (atGlobal : Bool) (line column : Nat) :
    staying.Keeps (applyEntry entry atGlobal line column) := by
  -- an option touches the settings and the predefined names, the rest the journal or the names
  cases entry with
  | setOption setting value =>
    intro s
    cases hSet : s.layers.set setting value atGlobal with
    | ok layers =>
      have hPredefine : staying.Keeps (predefine setting value) := by
        refine staying.ite _ ?_ (staying.pure ())
        split
        · exact staying_modifyScopes fun _ _ => .silent rfl
        · exact staying.pure ()
      have hLayers : s.Stays { s with layers } :=
        .of_placed ⟨rfl, rfl, rfl, rfl, rfl⟩ rfl rfl (.refl _ _)
      rw [applyEntry_of_ok hSet]
      exact staying.setAt (hLayers.goes id) hPredefine
    | error problem =>
      rw [applyEntry_of_error hSet]
      exact staying_emit (Setting.Problem.code_ne_maxlen problem) s
  | ignoreCode code => exact staying_direct (.ignoreCode code) line
  | ignore change =>
    cases change with
    | start => exact staying_direct (.ignore .start) line
    | stop => exact staying_direct (.ignore .stop) line
    | line => exact staying_direct (.ignore .line) line
  | declareGlobal name writable =>
    exact staying_modifyScopes (f := fun t _ => t.declareGlobal name writable line column)
      fun _ _ => .silent rfl
  | removeGlobal name =>
    exact staying_modifyScopes (f := fun t _ => t.removeGlobal name) fun _ _ => .silent rfl
  | exportName name =>
    exact staying_modifyScopes (f := fun t _ => t.exportName name) fun _ _ => .silent rfl

/-- What is noted on the way to a token is no long line. -/
theorem staying_note (result : Lexer.Result) : staying.Keeps (note result) := by
  unfold note
  split
  · split
    · refine staying.bind (staying.forM fun p _ => ?_) fun _ => staying.read fun s => ?_
      · exact staying_emit (Setting.Problem.code_ne_maxlen p)
      · exact staying.forM fun entry _ => staying_applyEntry entry _ _ _
    · exact staying.pure ()
  · exact staying_emit (LexProblem.code_ne_maxlen _)

end Parse

/-! ## Directives on the way -/

/-- The settings after the items of directives. -/
def Setting.Layers.directed (atGlobal : Bool) (items : List (Directive.Entry × Nat))
    (layers : Layers) : Layers :=
  items.foldl (fun layers item => layers.apply atGlobal item.1) layers

/-- The contract to change no setting, and to open and to close no function. -/
def abiding : Contract where
  Goes s t := t.layers = s.layers ∧ t.inGlobalCode = s.inGlobalCode
  Stops _ _ := True
  refl _ := ⟨rfl, rfl⟩
  trans h h' := ⟨h'.1.trans h.1, h'.2.trans h.2⟩
  stop _ _ := trivial

namespace Parse

variable {s t : Session}

/-- A report leaves the settings alone. -/
theorem abiding_emit (d : Diagnostic) : abiding.Keeps (emit d) := by
  intro s
  refine (recording_emit d False.elim s).imp ?_ fun _ _ => trivial
  rintro t ⟨j, rfl, -⟩
  exact ⟨rfl, rfl⟩

theorem abiding_checkConsumed : abiding.Keeps checkConsumed := by
  have hAttentive : abiding.Attentive := by
    refine ⟨fun _ _ _ => abiding_emit _, ?_⟩
    rintro s t ⟨_, _, _, rfl⟩
    exact ⟨rfl, rfl⟩
  exact hAttentive.checkConsumed

/-- By induction on the items. -/
theorem inGlobalCode_forM_applyEntry {entries : List Directive.Entry} {atGlobal : Bool}
    {line column : Nat}
    (h : (entries.forM fun entry => applyEntry entry atGlobal line column) s = .ok () t) :
    t.inGlobalCode = s.inGlobalCode := by
  induction entries generalizing s with
  | nil =>
    cases h
    rfl
  | cons entry entries ih =>
    obtain ⟨_, u, hEntry, hRest⟩ := exists_of_bind h
    exact (ih hRest).trans (inGlobalCode_applyEntry hEntry)

/-- A result that is noted applies its items, and nothing else. -/
theorem note_directed {r : Result} (h : note r s = .ok () t) :
    t.layers = s.layers.directed s.inGlobalCode (directions r) ∧ t.inGlobalCode =
      s.inGlobalCode := by
  unfold note at h
  unfold directions
  -- an error of the lexer directs nothing; a directive is applied entry by entry
  cases r with
  | error e =>
    have hReports : abiding.Keeps (reportLexError e) := abiding_emit _
    have hReport := hReports s
    rw [show reportLexError e s = .ok () t from h] at hReport
    exact hReport
  | ok token =>
    dsimp only at h ⊢
    cases hKind : token.kind with
    | directive d =>
      rw [hKind] at h
      obtain ⟨_, u, hProblems, hRest⟩ := exists_of_bind h
      have hReports : abiding.Keeps (reportProblems d.problems token.line token.column) :=
        abiding.forM fun _ _ => abiding_emit _
      have hu := hReports s
      rw [hProblems] at hu
      have hLayers := forM_applyEntry_layers hRest
      have hCode := inGlobalCode_forM_applyEntry hRest
      rw [hu.1, hu.2] at hLayers
      rw [Setting.Layers.directed, List.foldl_map]
      exact ⟨hLayers, hCode.trans hu.2⟩
    | _ =>
      rw [hKind] at h
      obtain ⟨-, rfl⟩ := EStateM.Result.ok.inj h
      exact ⟨rfl, rfl⟩

/-- By induction on the results. -/
theorem forM_note_directed {rs : List Result} (h : rs.forM note s = .ok () t) :
    t.layers = s.layers.directed s.inGlobalCode (rs.flatMap directions) ∧ t.inGlobalCode =
      s.inGlobalCode := by
  induction rs generalizing s with
  | nil =>
    cases h
    exact ⟨rfl, rfl⟩
  | cons r rs ih =>
    obtain ⟨_, u, hNote, hRest⟩ := exists_of_bind h
    obtain ⟨hLayers, hCode⟩ := note_directed hNote
    obtain ⟨hLayers', hCode'⟩ := ih hRest
    rw [hLayers, hCode] at hLayers'
    refine ⟨?_, hCode'.trans hCode⟩
    rw [List.flatMap_cons, Setting.Layers.directed, List.foldl_append]
    exact hLayers'

end Parse

/-! ## Changes that consume a token -/

/-- The token stands in the text where it says that it does. -/
def Token.Lies (text : List Char) (t : Token) : Prop := Spans text t.offset t.ending t

/-- Lines are counted from one. -/
theorem Token.Lies.line_pos {text : List Char} {t : Token} (h : t.Lies text) : 0 < t.line := by
  rw [Token.line, h.place]
  exact Nat.lt_of_lt_of_le Nat.zero_lt_one (Nat.le_add_right _ _)

theorem Lexer.Spans.lies {text : List Char} {start stop : Nat} {t : Token}
    (h : Spans text start stop t)
    (hOrder : start ≤ stop) (hBound : stop ≤ text.length) : t.Lies text := by
  have hOffset : t.offset = start := congrArg Position.offset h.place
  have hLength : t.raw.length = stop - start := by
    rw [← String.length_toList, h.raw, slice, List.length_drop, List.length_take,
      Nat.min_eq_left hBound]
  have hEnding : t.ending = stop := by
    rw [Token.ending, hOffset, hLength]
    exact Nat.add_sub_cancel' hOrder
  rw [Token.Lies, hOffset, hEnding]
  exact h

/-- By induction on what is passed. -/
theorem Lexer.Leads.token_lies {text : List Char} {l l' : Lexer} {rs : List Result} {t : Token}
    (hLeads : Leads l rs t l') (h : Follows text l.cursor) : t.Lies text := by
  induction hLeads with
  | here ht => exact (next_spans h ht).lies (skipBlank_le_next h) h.proceeds.follows.bound
  | pass _ _ ih => exact ih h.proceeds.follows

namespace Session

/-- What is read next lies in the text, behind the start of the current token. -/
def Reads (text : List Char) (s : Session) : Prop :=
  ∃ l, Follows text l.cursor ∧ s.stream.From l ∧ s.token.offset ≤ l.offset

/-- The current token is consumed and the next one is the current one. The directives between the
two are carried out, but the lines that are over are not checked yet, and none is reported as too
long. -/
structure Takes (text : List Char) (s m : Session) : Prop where
  next : ∃ l rs l', s.stream.From l ∧ Leads l rs m.token l' ∧
    m.layers = s.layers.directed s.inGlobalCode (rs.flatMap directions)
  reads : m.Reads text
  lies : m.token.Lies text
  forward : s.token.offset ≤ m.token.offset
  previous : m.previous = s.token
  sourceLength : m.sourceLength = s.sourceLength
  consumed : m.consumed = s.token.ending
  checkedLines : m.checkedLines = s.checkedLines
  uncheckedLines : m.uncheckedLines = s.uncheckedLines
  journal : Journal.Receives "W101" [] s.journal m.journal

/-- All that a change of a run does to tokens and lines. A token is consumed with the lines before
the next one checked last, and a slash that was read ahead may be read again before. -/
inductive Strides (text : List Char) (s t : Session) : Prop
  | stays (h : s.Stays t)
  | advances {stream : TokenStream} {m : Session}
    (hStream : stream = s.stream ∨ stream = s.stream.allowRegex)
    (hTakes : ({ s with stream } : Session).Takes text m)
      (hCheck : checkLinesBefore m.token.line m = .ok () t)

variable {text : List Char} {s t m : Session}

/-- Tokens are read in the order of their lines. -/
theorem Takes.line_le (h : s.Takes text m) (hs : s.token.Lies text) :
    s.token.line ≤ m.token.line := by
  rw [Token.line, hs.place, Token.line, h.lies.place]
  exact line_within text h.forward

/-- Who stays reads on. -/
theorem Reads.stays (hs : s.Reads text) (h : s.Stays t) : t.Reads text := by
  obtain ⟨l, hFollows, hFrom, hBehind⟩ := hs
  obtain ⟨l', hFrom', hCursor⟩ := h.stream l hFrom
  refine ⟨l', hCursor ▸ hFollows, hFrom', ?_⟩
  rw [h.token, Lexer.offset, hCursor]
  exact hBehind

end Session

namespace Parse

variable {α : Type} {p : Parse α} {text : List Char} {s t : Session}

/-- Consuming a token takes it, and then checks the lines before the next one. -/
theorem advance_takes (hs : s.Reads text) (hCalm : s.scopes.Calm) (hRun : advance s = .ok () t) :
    ∃ m, s.Takes text m ∧ checkLinesBefore m.token.line m = .ok () t := by
  obtain ⟨l, hFollows, hFrom, hBehind⟩ := hs
  obtain ⟨rs, next, l', hLeads⟩ := exists_leads l
  obtain ⟨hFollows', hFurther, hEnds⟩ := hLeads.lies hFollows
  obtain ⟨-, hFront, -⟩ := TokenStream.pullSignificant_spec hFrom hLeads
  -- the parts of `advance` one by one: consumed, pulled, noted, moved, then the lines
  rw [advance_eq hFrom hLeads] at hRun
  obtain ⟨_, m, hConsumed, hRun⟩ := exists_of_bind hRun
  obtain ⟨_, pulled, hPulled, hRun⟩ := exists_of_bind hRun
  obtain ⟨-, rfl⟩ := EStateM.Result.ok.inj hPulled
  obtain ⟨_, n, hNotes, hRun⟩ := exists_of_bind hRun
  obtain ⟨_, u, hMoved, hRun⟩ := exists_of_bind hRun
  obtain ⟨-, rfl⟩ := EStateM.Result.ok.inj hMoved
  have hChecks := staying_checkConsumed s
  have hAbides := abiding_checkConsumed s
  rw [hConsumed] at hChecks hAbides
  have hDirects := staying.forM (l := rs) (f := note) (fun r _ => staying_note r)
    { m with consumed := m.token.offset + m.token.raw.length, stream := s.stream.pullSignificant.2 }
  rw [hNotes] at hDirects
  obtain ⟨hFirst, hStill⟩ := hChecks hCalm
  have hSecond := (hDirects hStill).1
  obtain ⟨l'', hFrom'', hCursor⟩ := hSecond.stream l' hFront
  have hLayers := (forM_note_directed hNotes).1
  dsimp only [Session.inGlobalCode] at hLayers
  refine ⟨{ n with previous := n.token, token := next }, ⟨⟨l, rs, l', hFrom, hLeads, ?_⟩,
    ⟨l'', hCursor ▸ hFollows', hFrom'', ?_⟩, hLeads.token_lies hFollows,
    Nat.le_trans hBehind hFurther,
    hSecond.token.trans hFirst.token, hSecond.sourceLength.trans hFirst.sourceLength, ?_,
    hSecond.checkedLines.trans hFirst.checkedLines,
    hSecond.uncheckedLines.trans hFirst.uncheckedLines, hFirst.journal.trans hSecond.journal⟩, hRun⟩
  · show n.layers = _
    rw [← hAbides.1, ← hAbides.2]
    exact hLayers
  · show next.offset ≤ l''.cursor.offset
    rw [hCursor]
    exact hEnds.le
  · show n.consumed = s.token.ending
    rw [hSecond.consumed, Token.ending, ← hFirst.token]

/-- What stays is a stride. -/
theorem strides_of_staying (h : staying.Keeps p) (hCalm : s.scopes.Calm) :
    Settles (s.Strides text) (fun _ => True) (p s) :=
  (h s).imp (fun _ ht => .stays (ht hCalm).1) fun _ _ => trivial

/-- So is what advances, with the slash seen either way. -/
theorem advance_strides {stream : TokenStream}
    (hStream : stream = s.stream ∨ stream = s.stream.allowRegex)
    (hs : ({ s with stream } : Session).Reads text) (hCalm : s.scopes.Calm) :
    Settles (s.Strides text) (fun _ => True) (advance { s with stream }) := by
  cases hr : advance { s with stream } with
  | ok a t =>
    obtain ⟨m, hTakes, hCheck⟩ := advance_takes hs hCalm hr
    exact .advances hStream hTakes hCheck
  | error e t =>
    cases e with
    | halt => trivial
    | badSyntax =>
      obtain ⟨l, -, hFrom, -⟩ := hs
      obtain ⟨rs, next, l', hLeads⟩ := exists_leads l
      have hArrives := advance_arrives hFrom hLeads
      rw [hr] at hArrives
      exact hArrives.elim

/-- One case for each step. -/
theorem step_strides (h : Step p) (hs : s.Reads text) (hCalm : s.scopes.Calm) :
    Settles (s.Strides text) (fun _ => True) (p s) := by
  -- two steps advance, and all the others stay
  cases h with
  | warnAt f line column h => exact strides_of_staying (staying_warnAt _ _ h) hCalm
  | failAt f t h =>
    have hWarn := staying_warnAt t.line t.column (isLocal_of_givesUp h)
    exact strides_of_staying (staying.bind hWarn fun _ => staying.giveUp) hCalm
  | advance => exact advance_strides (.inl rfl) hs hCalm
  | advanceToStatement =>
    have hOpen : s.Stays { s with stream := s.stream.allowRegex } :=
      ⟨rfl, rfl, rfl, rfl, rfl, rfl, fun l hl => TokenStream.from_allowRegex_cursor hl, .refl _ _⟩
    exact advance_strides (.inr rfl) (hs.stays hOpen) hCalm
  | peekIs test _ => exact strides_of_staying (staying_peekIs test) hCalm
  | peekArrowAfterNext =>
    exact strides_of_staying (staying.bind (staying_peek 1) fun _ => staying.pure _) hCalm
  | startsArrow =>
    have hLook : staying.Keeps startsArrow :=
      staying_look (fun _ l hl => ⟨l, TokenStream.from_closesBeforeArrow hl, rfl⟩) fun _ => rfl
    exact strides_of_staying hLook hCalm
  | count f =>
    have hCount : staying.Keeps (modifyMetrics (·.count f)) :=
      staying_modify (fun _ => ⟨rfl, rfl, rfl, rfl, rfl⟩) (fun _ => ⟨rfl, rfl, rfl⟩) fun _ => id
    exact strides_of_staying hCount hCalm
  | names h => exact strides_of_staying (staying_modifyScopes (evolves_nameStep h)) hCalm
  | flushScopes => exact strides_of_staying staying_flushScopes hCalm
  | setHint name =>
    have hHint : staying.Keeps (setHint name) :=
      staying_modify (fun _ => ⟨rfl, rfl, rfl, rfl, rfl⟩) (fun _ => ⟨rfl, rfl, rfl⟩) fun _ => id
    exact strides_of_staying hHint hCalm
  | makeStrict =>
    have hStrict : staying.Keeps makeStrict :=
      staying_modify (fun _ => ⟨rfl, rfl, rfl, rfl, rfl⟩) (fun _ => ⟨rfl, rfl, rfl⟩) fun _ => id
    exact strides_of_staying hStrict hCalm
  | checkFiltered t =>
    have hStarts : staying.Keeps bodyStartsWithIf :=
      staying.read fun _ => staying.ite _ (staying.pure _)
        (staying.ite _ (staying_peekIs _) (staying.pure _))
    refine strides_of_staying (staying.read fun _ => staying.ite _ ?_ (staying.pure ())) hCalm
    refine staying.bind hStarts fun _ => ?_
    exact staying.ite _ (staying_warnAt _ _ rfl) (staying.pure ())

end Parse

namespace Session

variable {text : List Char} {s t : Session}

/-- Opening a level, a frame or a function stays. -/
theorem Enters.stays (h : s.Enters t) (hCalm : s.scopes.Calm) : s.Stays t := by
  have hPlaced := h.placed
  cases h with
  | block opener h =>
    have hBlock := staying_enterBlock opener s
    rw [h] at hBlock
    exact (hBlock hCalm).1
  | overlay h =>
    obtain ⟨-, rfl⟩ := EStateM.Result.ok.inj h
    exact .of_placed hPlaced rfl rfl (.refl _ _)
  | _ => exact .of_placed hPlaced rfl rfl (.refl _ _)

/-- So does closing it. -/
theorem Leaves.stays (h : s.Leaves t) (hCalm : s.scopes.Calm) : s.Stays t := by
  have hPlaced := h.placed
  cases h with
  | function line column =>
    exact ((staying_closeFunction line column s).imp (fun _ ht => (ht hCalm).1) fun _ ht =>
      ht hCalm).left
  | _ => exact .of_placed hPlaced rfl rfl (.refl _ _)

/-- Every change of a run stays at the current token, or consumes it. -/
theorem Moves.strides (h : s.Moves t) (hs : s.Reads text) (hCalm : s.scopes.Calm) :
    s.Strides text t := by
  cases h with
  | step h ht =>
    have hStep := step_strides h hs hCalm
    rw [ht] at hStep
    exact hStep
  | peek =>
    exact .stays ⟨rfl, rfl, rfl, rfl, rfl, rfl,
      fun l hl => ⟨l, TokenStream.from_peek 0 hl, rfl⟩, .refl _ _⟩
  | fails h =>
    obtain ⟨α, p, h, ht⟩ := h
    have hStep := step_strides h hs hCalm
    rw [ht] at hStep
    exact hStep
  | enters h => exact .stays (h.stays hCalm)
  | leaves h => exact .stays (h.stays hCalm)

/-- The current token and the one before it lie in the text, and what is read next lies behind
them. -/
structure Quotes (text : List Char) (s : Session) : Prop where
  reads : s.Reads text
  token : s.token.Lies text
  previous : s.previous.Lies text

/-- A stride keeps to the text. -/
theorem Quotes.strides (hs : s.Quotes text) (h : s.Strides text t) : t.Quotes text := by
  cases h with
  | stays h => exact ⟨hs.reads.stays h, h.token ▸ hs.token, h.previous ▸ hs.previous⟩
  | @advances stream m _ hTakes hCheck =>
    have hPlaced := placed_of_standing (standing_checkLinesBefore m.token.line) m
    rw [hCheck] at hPlaced
    obtain ⟨hToken, hPrevious, hStream, -⟩ := hPlaced
    obtain ⟨l, hFollows, hFrom, hBehind⟩ := hTakes.reads
    refine ⟨⟨l, hFollows, hStream ▸ hFrom, hToken ▸ hBehind⟩, hToken ▸ hTakes.lies, ?_⟩
    rw [hPrevious, hTakes.previous]
    exact hs.token

/-- A run starts at the text. -/
theorem quotes_start (source : String) (options : Options) (globals : Option Predefined.Globals) :
    (start source options globals).Quotes source.toList := by
  have hOrigin : Token.origin.Lies source.toList := ⟨rfl, rfl, rfl⟩
  refine ⟨⟨.ofSource source, follows_ofSource source, TokenStream.from_ofSource source,
    Nat.zero_le _⟩, ?_, ?_⟩
  · exact hOrigin
  · exact hOrigin

/-- The options that are rejected have nothing to do with lines. -/
theorem stays_of_reportProblems {source : String} {options : Options}
    {globals : Option Predefined.Globals}
    (h : reportProblems (Setting.Layers.ofOptions options).2 0 0
    (start source options globals) = .ok () t) : (start source options globals).Stays t := by
  have hKeeps : staying.Keeps (reportProblems (Setting.Layers.ofOptions options).2 0 0) :=
    staying.forM fun p _ => staying_emit (Setting.Problem.code_ne_maxlen p)
  have hStart := hKeeps (start source options globals)
  rw [h] at hStart
  exact (hStart (calm_start source options globals)).1

theorem InRun.calm {source : String} {options : Options} {globals : Option Predefined.Globals}
    (h : s.InRun source options globals) : s.scopes.Calm :=
  h.accounted.1

/-- What holds where the first token is read, and is kept by every change of a run, holds at every
session of it. By induction on the changes that lead to the session. -/
theorem InRun.induction {source : String} {options : Options} {globals : Option Predefined.Globals}
    {P : Session → Prop} (h : s.InRun source options globals)
    (hFirst : ∀ t, (start source options globals).Stays t → P t)
    (hMoves : ∀ m t, m.Quotes source.toList → P m → m.Strides source.toList t → P t) :
    s.Quotes source.toList ∧ P s := by
  obtain ⟨first, hProblems, hReaches⟩ := h
  induction hReaches with
  | refl =>
    have hStays := stays_of_reportProblems hProblems
    exact ⟨(quotes_start source options globals).strides (.stays hStays), hFirst first hStays⟩
  | @tail m t hm hMove ih =>
    obtain ⟨hQuotes, hHolds⟩ := ih
    have hRun : m.InRun source options globals := ⟨first, hProblems, hm⟩
    have hStrides := hMove.strides hQuotes.reads hRun.calm
    exact ⟨hQuotes.strides hStrides, hMoves m t hQuotes hHolds hStrides⟩

/-- Consuming a token goes on with the run. -/
theorem InRun.advance {source : String} {options : Options} {globals : Option Predefined.Globals}
    (h : s.InRun source options globals) (hRun : Parse.advance s = .ok () t) :
    t.InRun source options globals := by
  obtain ⟨first, hFirst, hReaches⟩ := h
  exact ⟨first, hFirst, hReaches.tail (.step .advance hRun)⟩

/-- The tokens of a run are what the source says where they stand. -/
theorem InRun.quotes {source : String} {options : Options} {globals : Option Predefined.Globals}
    (h : s.InRun source options globals) : s.Quotes source.toList :=
  (h.induction (P := fun _ => True) (fun _ _ => trivial) fun _ _ _ _ _ => trivial).1

end Session

/-! ## Sessions on the way -/

namespace Parse

variable {α : Type}

/-- Whether the parser succeeds and leads to a session as described. -/
def leadsTo (p : Parse α) (test : Session → Bool) (s : Session) : Bool :=
  match p s with
  | .ok _ t => test t
  | .error _ _ => false

/-- What a test run shows to be reached is reached. -/
theorem exists_of_leadsTo {p : Parse α} {test : Session → Bool} {s : Session}
    (h : leadsTo p test s = true) : ∃ a t, p s = .ok a t ∧ test t = true := by
  unfold leadsTo at h
  split at h
  · next a t hr => exact ⟨a, t, hr, h⟩
  · cases h

end Parse

end ScriptLint
