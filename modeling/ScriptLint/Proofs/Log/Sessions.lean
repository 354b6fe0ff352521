import ScriptLint.Proofs.Directives.Settings
import ScriptLint.Proofs.Log.Events
import ScriptLint.Proofs.Progress.Sessions
import ScriptLint.Proofs.Scope.Lines

/-!
# The log of a session

Each session of a run has a log that keeps to the rules: reporting adds to it, and so does consuming
a token, which passes directives on the way. The log mentions the directives that the lexer reads,
in their order, and nothing that was reported lies after the place where the lexer goes on.

- `Lexer.Yields`: what a lexer reads from a source.
- `Input.Told`: the session has the log.
- `Input.Upto`: besides, the log mentions certain items, and nothing lies after a line.
- `Input.Recounts`: parsers that report, and report nothing after the line.
- `Input.Rests`: the session stands at a token, with everything before it in the log.
- `Input.Rests.advance`: consuming a token leads from such a session to another one.
-/

namespace ScriptLint

open Directive (Entry)

/-! ## What is read -/

namespace Lexer

/-- The items of the directive that a result is, each with the line of the directive. -/
def directions : Result → List (Entry × Nat)
  | .ok t =>
    match t.kind with
    | .directive d => d.entries.map fun entry => (entry, t.line)
    | _ => []
  | .error _ => []

/-- Reading one result after another leads from a lexer to another one. Between two of them a slash
may be told to start a regular expression. -/
inductive Yields (l : Lexer) : List Result → Lexer → Prop
  | start : Yields l [] l
  | read {rs : List Result} {l' : Lexer} : Yields l rs l' → Yields l (rs ++ [l'.next.1]) l'.next.2
  | allow {rs : List Result} {l' : Lexer} : Yields l rs l' → Yields l rs l'.allowRegex

variable {text : List Char} {l l' l'' : Lexer} {rs rs' : List Result} {t : Token}

/-- What is read before a token is added to what was read. -/
theorem Yields.leads (h : Yields l rs l') (hLeads : Leads l' rs' t l'') :
    Yields l (rs ++ rs') l'' := by
  induction hLeads generalizing rs with
  | here _ => exact h.read
  | pass _ _ ih =>
    rw [List.append_cons]
    exact ih h.read

/-- The line where a lexer goes on. -/
def line (l : Lexer) : Nat := l.cursor.position.line

/-- Later characters are on later lines, or on the same. -/
theorem line_within (text : List Char) {first last : Nat} (h : first ≤ last) :
    (Position.within text first).line ≤ (Position.within text last).line :=
  Nat.add_le_add_left (List.Sublist.countP_le (List.range_sublist.mpr h)) 1

/-- A lexer that follows the text knows the line it is on. -/
theorem Follows.line_eq (h : Follows text l.cursor) :
    l.line = (Position.within text l.offset).line :=
  congrArg Position.line h.position

/-- A result that is read lies between the line where the lexer stands and the one where it goes
on. -/
theorem line_le_next (h : Follows text l.cursor) : l.line ≤ l.next.2.line := by
  rw [h.line_eq, h.proceeds.follows.line_eq]
  exact line_within text (offset_le_next h)

/-- So does a token that is read. -/
theorem next_line_le (h : Follows text l.cursor) (ht : significant? l.next.1 = some t) :
    t.line ≤ l.next.2.line := by
  rw [Token.line, (next_spans h ht).place, h.proceeds.follows.line_eq]
  exact line_within text (skipBlank_le_next h)

/-- Lines only grow on the way to the next token. -/
theorem Leads.line_le (hLeads : Leads l rs t l') (h : Follows text l.cursor) :
    l.line ≤ l'.line := by
  induction hLeads with
  | here _ => exact line_le_next h
  | pass _ _ ih => exact Nat.le_trans (line_le_next h) (ih h.proceeds.follows)

/-- So does the next significant token. -/
theorem Leads.token_line_le (hLeads : Leads l rs t l') (h : Follows text l.cursor) :
    t.line ≤ l'.line := by
  induction hLeads with
  | here ht => exact next_line_le h ht
  | pass _ _ ih => exact ih h.proceeds.follows

end Lexer

/-! ## Settings -/

namespace Setting.Layers

/-- Whether `passfail` is on is as the base layer says. -/
structure Untouched (layers : Layers) (on : Bool) : Prop where
  base : ((layers.base.get? .passfail).getD (.flag false)).isOn = on
  overlays : ∀ overlay ∈ layers.overlays.toList, overlay.get? .passfail = none

namespace Untouched

variable {layers : Layers} {on : Bool}

/-- Untouched means fixed at a value that is on or off. -/
theorem iff_fixed : layers.Untouched on ↔ ∃ value, layers.Fixed .passfail value ∧ value.isOn = on :=
  ⟨fun h => ⟨_, ⟨rfl, h.overlays⟩, h.base⟩, fun ⟨_, hFixed, hOn⟩ =>
    ⟨hFixed.base ▸ hOn, hFixed.overlays⟩⟩

/-- Whatever leaves the value in place leaves `passfail` untouched. -/
theorem imp {changed : Layers} (h : layers.Untouched on)
    (hFixed : ∀ value, layers.Fixed .passfail value → changed.Fixed .passfail value) :
    changed.Untouched on := by
  obtain ⟨value, hValue, hOn⟩ := iff_fixed.mp h
  exact iff_fixed.mpr ⟨value, hFixed value hValue, hOn⟩

/-- An untouched setting resolves as it did at first. -/
theorem enabled (h : layers.Untouched on) : layers.enabled .passfail = on := by
  obtain ⟨value, hValue, hOn⟩ := iff_fixed.mp h
  rw [Layers.enabled, hValue.resolve, hOn]

theorem push (h : layers.Untouched on) : layers.push.Untouched on := h.imp fun _ => .push

theorem pop (h : layers.Untouched on) : layers.pop.Untouched on := h.imp fun _ => .pop

/-- Other settings may be put. -/
theorem put (h : layers.Untouched on) {s : Setting} (hOther : s ≠ .passfail) (value : Value) :
    (layers.put s value).Untouched on :=
  h.imp fun _ hFixed => hFixed.put (fun hSame => nomatch hSame) hOther.symm value

end Untouched

/-- The options are the base layer. -/
theorem untouched_ofOptions (options : Options) :
    (ofOptions options).1.Untouched ((ofOptions options).1.enabled .passfail) :=
  Untouched.iff_fixed.mpr ⟨_, fixed_ofOptions options (fun hSame => nomatch hSame), rfl⟩

end Setting.Layers

/-! ## Sessions with a log -/

/-- What a run is given. -/
structure Input where
  source : String
  options : Options

namespace Input

open Parse

variable (I : Input)

/-- The journal before the first event. -/
def journal : Journal := { ignoredCodes := I.options.ignoredCodes }

/-- Whether the options set `passfail`. -/
def passfail : Bool := (Setting.Layers.ofOptions I.options).1.enabled .passfail

/-- The session has the log. -/
structure Told (s : Session) (log : List Event) : Prop where
  account : I.journal.Account I.passfail log
  journal : s.journal = I.journal.replay log
  settings : (∀ value line, (.setOption .passfail value, line) ∉ directedIn log) →
    s.layers.Untouched I.passfail
  calm : s.scopes.Calm

variable {I} {s t : Session} {log : List Event} {d : Diagnostic}

/-- What changes nothing that a log mentions. -/
theorem Told.same (h : I.Told s log) (hJournal : t.journal = s.journal)
    (hSettings : s.layers.Untouched I.passfail → t.layers.Untouched I.passfail)
    (hCalm : t.scopes.Calm) : I.Told t log :=
  ⟨h.account, hJournal.trans h.journal, fun hUnset => hSettings (h.settings hUnset), hCalm⟩

/-- Reporting is told; if the run stops, so is that. -/
theorem Told.emit (h : I.Told s log) (hCode : d.code ≠ "E041") (hCode' : d.code ≠ "E042") :
    ∃ events j, (Parse.emit d s = .ok () { s with journal := j } ∨
        Parse.emit d s = .error .halt { s with journal := j }) ∧
      I.Told { s with journal := j } (log ++ events) ∧ directedIn events = [] ∧
      ∀ e ∈ j.kept, e ∈ s.journal.kept ∨ e.line = d.line := by
  have hRecord : ∀ e ∈ (s.journal.record d).kept, e ∈ s.journal.kept ∨ e.line = d.line := by
    intro e he
    unfold Journal.record at he
    split at he
    · exact (List.mem_cons.mp he).elim (fun hNew => .inr (congrArg Diagnostic.line hNew)) .inl
    · exact .inl he
  -- the two ways of `emit`: the diagnostic stops the run, or it is recorded and the run goes on
  unfold Parse.emit
  dsimp only
  split
  · next hStop =>
    obtain ⟨hKeeps, -⟩ := Bool.and_eq_true_iff.mp hStop
    have hKept : (I.journal.replay log).keeps d = true := h.journal ▸ hKeeps
    refine ⟨[.submit d, .halt ((Finding.stopping s.percent).diagnostic d.line d.column)],
      _, .inr rfl,
      ⟨h.account.stop d s.percent hCode hCode' hKept, ?_, fun hUnset => h.settings ?_, h.calm⟩, rfl,
      fun e he => ?_⟩
    · rw [Journal.replay_append, ← h.journal]
      rfl
    · rw [directedIn_append] at hUnset
      exact fun value line hMem => hUnset value line (List.mem_append_left _ hMem)
    · unfold Journal.halt at he
      split at he
      · exact hRecord e he
      · exact (List.mem_cons.mp he).elim (fun hNew => .inr (hNew ▸ rfl)) (hRecord e)
  · next hGoes =>
    refine ⟨[.submit d], _, .inl rfl, ⟨?_, ?_, fun hUnset => h.settings ?_, h.calm⟩, rfl, hRecord⟩
    · refine h.account.submit d hCode hCode' fun hOn hKeeps => ?_
      -- otherwise `passfail` would be on, and the run would have stopped
      by_contra hUnset
      have hSettings := h.settings fun value line hMem => hUnset ⟨value, line, hMem⟩
      refine hGoes (Bool.and_eq_true_iff.mpr ⟨h.journal ▸ hKeeps, ?_⟩)
      rw [hSettings.enabled, hOn]
    · rw [Journal.replay_append, ← h.journal]
      rfl
    · rw [directedIn_append] at hUnset
      exact fun value line hMem => hUnset value line (List.mem_append_left _ hMem)

/-- An item of a directive takes effect on the journal. -/
theorem Told.direct (h : I.Told s log) (entry : Entry) {line : Nat}
    (hKept : ∀ d ∈ s.journal.kept, d.code = "E041" ∨ d.line ≤ line) :
    I.Told { s with journal := s.journal.perform (.direct entry line) }
      (log ++ [.direct entry line]) := by
  refine ⟨h.account.direct entry line (h.journal ▸ hKept), ?_, fun hUnset => ?_, h.calm⟩
  · rw [Journal.replay_append, ← h.journal]
    rfl
  · rw [directedIn_append] at hUnset
    exact h.settings fun value line hMem => hUnset value line (List.mem_append_left _ hMem)

/-! ## Up to a line -/

variable (I)

/-- The session has a log that mentions the items, and neither what was reported nor what the scopes
mention lies after the line. -/
def Upto (line : Nat) (items : List (Entry × Nat)) (s : Session) : Prop :=
  ∃ log, I.Told s log ∧ directedIn log = items ∧
    (∀ d ∈ s.journal.kept, d.code = "E041" ∨ d.line ≤ line) ∧ s.scopes.Within line

variable {I} {line : Nat} {items : List (Entry × Nat)}

/-- A log up to a line is one up to any later line. -/
theorem Upto.mono (h : I.Upto line items s) {later : Nat} (hLater : line ≤ later) :
    I.Upto later items s := by
  obtain ⟨log, hTold, hItems, hKept, hScopes⟩ := h
  exact ⟨log, hTold, hItems,
    fun d hd => (hKept d hd).imp_right fun hLine => Nat.le_trans hLine hLater, hScopes.mono hLater⟩

/-- What changes nothing that a log mentions. -/
theorem Upto.same (h : I.Upto line items s) (hJournal : t.journal = s.journal)
    (hSettings : s.layers.Untouched I.passfail → t.layers.Untouched I.passfail)
    (hScopes : s.scopes.Calm → s.scopes.Within line → t.scopes.Calm ∧ t.scopes.Within line) :
    I.Upto line items t := by
  obtain ⟨log, hTold, hItems, hKept, hWithin⟩ := h
  obtain ⟨hCalm, hLines⟩ := hScopes hTold.calm hWithin
  refine ⟨log, hTold.same hJournal hSettings hCalm, hItems, ?_, hLines⟩
  rw [hJournal]
  exact hKept

variable (I)

/-- Whatever its outcome, the parser adds to the log what it reports, none of which lies after the
line. It does not give up. -/
def Recounts (line : Nat) {α : Type} (p : Parse α) : Prop :=
  ∀ items s, I.Upto line items s →
    Resolved (I.Upto line items) (I.Upto line items) (p s)

variable {I}

namespace Recounts

variable {α β : Type} {p q : Parse α}

theorem pure (a : α) : I.Recounts line (pure a) := fun _ _ h => h

/-- Reports up to a line may follow one another. -/
theorem bind {f : α → Parse β} (hp : I.Recounts line p) (hf : ∀ a, I.Recounts line (f a)) :
    I.Recounts line (p >>= f) :=
  fun items s h => (hp items s h).bind (fun a t ht => hf a items t ht) fun _ => id

theorem read {f : Session → Parse α} (h : ∀ s, I.Recounts line (f s)) :
    I.Recounts line (get >>= f) :=
  fun items s => h s items s

theorem ite (c : Prop) [Decidable c] (hp : I.Recounts line p) (hq : I.Recounts line q) :
    I.Recounts line (if c then p else q) := by
  split
  · exact hp
  · exact hq

/-- Only one of the branches does something before both go on in the same way. -/
theorem when (c : Prop) [Decidable c] {p : Parse Unit} (hp : I.Recounts line p)
    (hq : I.Recounts line q) : I.Recounts line (if c then p >>= fun _ => q else q) :=
  ite c (bind hp fun _ => hq) hq

theorem forM {l : List β} {f : β → Parse PUnit} (h : ∀ b ∈ l, I.Recounts line (f b)) :
    I.Recounts line (l.forM f) := by
  induction l with
  | nil => exact pure _
  | cons b rest ih =>
    refine bind (h b (List.mem_cons_self ..)) fun _ => ih fun c hc => ?_
    exact h c (List.mem_cons_of_mem _ hc)

/-- So may changes that spare the journal, `passfail` and what is pending. -/
theorem modify {f : Session → Session} (hJournal : ∀ s, (f s).journal = s.journal)
    (hSettings : ∀ s, s.layers.Untouched I.passfail → (f s).layers.Untouched I.passfail)
    (hScopes : ∀ s, s.scopes.Calm → s.scopes.Within line → (f s).scopes.Calm ∧
    (f s).scopes.Within line) : I.Recounts line (modify f) :=
  fun _ s h => h.same (hJournal s) (hSettings s) (hScopes s)

theorem modifyScopes {f : Scope.Tracker → Setting.Layers → Scope.Tracker}
    (hf : ∀ t layers, t.Calm → t.Within line → (f t layers).Calm ∧ (f t layers).Within line) :
    I.Recounts line (modifyScopes f) :=
  modify (fun _ => rfl) (fun _ => id) fun s => hf s.scopes s.layers

/-- A diagnostic up to the line goes through, unless it says that the run stops. -/
theorem emit (hCode : d.code ≠ "E041") (hCode' : d.code ≠ "E042") (hLine : d.line ≤ line) :
    I.Recounts line (emit d) := by
  rintro items s ⟨log, hTold, hItems, hKept, hScopes⟩
  obtain ⟨events, j, hRun, hNew, hNone, hLines⟩ := hTold.emit hCode hCode'
  have hUpto : I.Upto line items { s with journal := j } := by
    refine ⟨log ++ events, hNew, ?_, fun e he => ?_, hScopes⟩
    · rw [directedIn_append, hNone, List.append_nil, hItems]
    · rcases hLines e he with hOld | hSame
      · exact hKept e hOld
      · exact .inr (hSame ▸ hLine)
  rcases hRun with hRun | hRun
  · rw [hRun]
    exact hUpto
  · rw [hRun]
    exact hUpto

theorem warnAt {f : Finding} {place column : Nat} (hf : f.isOrdinary) (hLine : place ≤ line) :
    I.Recounts line (warnAt f place column) :=
  emit (Finding.code_ne_of_isOrdinary hf) (Finding.code_ne_stopping hf) hLine

theorem warnUnless (setting : Setting) {f : Finding} {place column : Nat} (hf : f.isOrdinary)
    (hLine : place ≤ line) : I.Recounts line (warnUnless setting f place column) :=
  read fun _ => ite _ (warnAt hf hLine) (pure ())

theorem reportProblem (p : Setting.Problem) {place column : Nat} (hLine : place ≤ line) :
    I.Recounts line (reportProblem p place column) :=
  emit p.code_ne p.code_ne_stopping hLine

theorem reportProblems (ps : List Setting.Problem) {place column : Nat} (hLine : place ≤ line) :
    I.Recounts line (reportProblems ps place column) :=
  forM fun p _ => reportProblem p hLine

/-- What the scopes found does not lie after the line either. -/
theorem flushScopes : I.Recounts line flushScopes := by
  intro items s h
  obtain ⟨_, hTold, -, -, hScopes⟩ := id h
  have hAll :
      I.Recounts line (s.scopes.findings.forM fun f => Parse.warnAt f.finding f.line f.column) :=
    forM fun f hf => warnAt (Finding.isOrdinary_of_isRemark (hTold.calm f hf))
      (hScopes.findings f hf)
  refine hAll items _ (h.same rfl id fun _ hWithin => ⟨?_, hWithin.drained⟩)
  exact fun _ hf => absurd hf List.not_mem_nil

theorem checkQuote (quote : Char) {place : Nat} (column : Nat) (hLine : place ≤ line) :
    I.Recounts line (checkQuote quote place column) := by
  intro items s h
  show Resolved _ _ ((get >>= _ : Parse Unit) s)
  rw [get_bind_apply]
  cases s.layers.quotePolicy with
  | off => exact h
  | single => exact ite _ (warnAt rfl hLine) (pure ()) items s h
  | double => exact ite _ (warnAt rfl hLine) (pure ()) items s h
  | consistent =>
    cases s.firstQuote with
    | none => exact h.same rfl id fun hCalm hWithin => ⟨hCalm, hWithin⟩
    | some first => exact ite _ (warnAt rfl hLine) (pure ()) items s h

theorem enterBlock {opener : Token} (hLine : opener.line ≤ line) :
    I.Recounts line (Grammar.enterBlock opener) := by
  refine bind (modify (fun _ => rfl) (fun _ => id) fun _ => And.intro) fun _ => read fun _ => ?_
  exact ite _ (warnAt rfl hLine) (pure ())

/-- The function was opened at a place that does not lie after the line. -/
theorem closeFunction {place column : Nat} (hLine : place ≤ line) :
    I.Recounts line (Grammar.closeFunction place column) := by
  intro items s h
  have hReports : I.Recounts line (do
      (Grammar.metricFindings s.layers s.metrics.current).forM fun f => Parse.warnAt f place column
      Parse.flushScopes) := by
    refine bind (forM fun f hf => ?_) fun _ => flushScopes
    exact warnAt (Finding.isOrdinary_of_isRemark (Grammar.isRemark_of_metricFindings hf)) hLine
  refine hReports items (Grammar.withoutFunction s) (h.same rfl (fun hSettings => ?_) ?_)
  · unfold Grammar.withoutFunction
    dsimp only
    split
    · exact hSettings.pop
    · exact hSettings
  · exact fun hCalm hWithin => ⟨hCalm.exit s.layers, hWithin.exit s.layers⟩

/-- By induction on the lines left, all of which lie before the line. -/
theorem warnLongLines (limit : Nat) {first : Nat} {lengths : List Nat}
    (hLines : first + lengths.length ≤ line + 1) :
    I.Recounts line (warnLongLines limit first lengths) := by
  induction lengths generalizing first with
  | nil => exact pure ()
  | cons length rest ih =>
    rw [List.length_cons] at hLines
    exact when _ (warnAt rfl (by omega)) (ih (by omega))

theorem checkLinesBefore {stop : Nat} (hStop : stop ≤ line + 1) :
    I.Recounts line (checkLinesBefore stop) := by
  intro items s h
  rw [checkLinesBefore_apply]
  dsimp only
  have hLimit (limit : Option Nat) : I.Recounts line
      (limitLines (s.checkedLines + 1) (s.uncheckedLines.splitAt (stop - 1 - s.checkedLines)).1
        limit) := by
    cases limit with
    | none => exact pure ()
    | some limit =>
      by_cases hSome : s.checkedLines ≤ stop - 1
      · refine warnLongLines limit ?_
        rw [List.splitAt_eq, List.length_take]
        omega
      · -- all these lines were checked before
        rw [show stop - 1 - s.checkedLines = 0 by omega, List.splitAt_eq, List.take_zero]
        exact pure ()
  exact hLimit _ items _ (h.same rfl id fun hCalm hWithin => ⟨hCalm, hWithin⟩)

end Recounts

/-- The current token, which is checked before it is consumed, does not lie after the line. -/
theorem Upto.checkConsumed (h : I.Upto line items s) (hLine : s.token.line ≤ line) :
    Resolved (I.Upto line items) (I.Upto line items) (checkConsumed s) := by
  have hWarn (f : Finding) (hf : f.isOrdinary) :
      I.Recounts line (warnAt f s.token.line s.token.column) :=
    .warnAt hf hLine
  have hUnless (setting : Setting) (f : Finding) (hf : f.isOrdinary) :
      I.Recounts line (warnUnless setting f s.token.line s.token.column) :=
        .warnUnless setting hf hLine
  show Resolved _ _ ((get >>= _ : Parse Unit) s)
  rw [get_bind_apply]
  cases s.token.kind with
  | string literal =>
    refine Recounts.bind (.checkQuote _ _ hLine) (fun _ => ?_) items s h
    refine .when _ (hWarn _ rfl) (.when _ (hUnless _ _ rfl) ?_)
    exact .ite _ (hUnless _ _ rfl) (.pure ())
  | number literal => exact Recounts.ite _ (hWarn _ rfl) (.pure ()) items s h
  | _ => exact h

/-! ## Passing directives -/

/-- The log mentions no more than the items. -/
def Within (I : Input) (items : List (Entry × Nat)) (s : Session) : Prop :=
  ∃ log, I.Told s log ∧ directedIn log <+: items

/-- A log up to a line mentions no more than what was read. -/
theorem Upto.within (h : I.Upto line items s) {more : List (Entry × Nat)}
    (hItems : items <+: more) : I.Within more s := by
  obtain ⟨log, hTold, rfl, -⟩ := h
  exact ⟨log, hTold, hItems⟩

theorem Within.mono (h : I.Within items s) {items' : List (Entry × Nat)}
    (hItems : items <+: items') : I.Within items' s := by
  obtain ⟨log, hTold, hDirected⟩ := h
  exact ⟨log, hTold, hDirected.trans hItems⟩

/-- Nothing was reported after the line of a directive, so an item of it may take effect. -/
theorem Upto.direct (h : I.Upto line items s) (entry : Entry) :
    I.Upto line (items ++ [(entry, line)])
      { s with journal := s.journal.perform (.direct entry line) } := by
  obtain ⟨log, hTold, hItems, hKept, hScopes⟩ := h
  refine ⟨log ++ [.direct entry line], hTold.direct entry hKept, ?_, fun d hd => ?_, hScopes⟩
  · rw [directedIn_append, hItems]
    rfl
  · rcases Journal.mem_kept_perform _ hd with hOld | hNew | hNew
    · exact hKept d hOld
    · cases hNew
    · cases hNew

/-- One case for each item. -/
theorem Upto.applyEntry (h : I.Upto line items s) (entry : Entry) (atGlobal : Bool) (column : Nat) :
    Resolved (I.Upto line (items ++ [(entry, line)])) (I.Upto line (items ++ [(entry, line)]))
      (applyEntry entry atGlobal line column s) := by
  have hDone := h.direct entry
  -- an option is the one entry that may be refused, and the one that changes the settings
  cases entry with
  | setOption setting value =>
    change I.Upto line (items ++ [(.setOption setting value, line)]) s at hDone
    cases hSet : s.layers.set setting value atGlobal with
    | error problem =>
      rw [applyEntry_of_error hSet]
      exact Recounts.reportProblem problem (Nat.le_refl line) _ s hDone
    | ok layers =>
      rw [applyEntry_of_ok hSet]
      have hWritten :
          I.Upto line (items ++ [(.setOption setting value, line)]) { s with layers } := by
        obtain ⟨log, hTold, hItems, hKept, hWithin⟩ := hDone
        refine ⟨log, ⟨hTold.account, hTold.journal, fun hUnset => ?_, hTold.calm⟩, hItems,
          hKept, hWithin⟩
        have hOther : setting ≠ .passfail := by
          rintro rfl
          exact hUnset value line (hItems ▸ List.mem_append_right _ (List.mem_singleton_self _))
        rw [Setting.Layers.eq_put_of_set hSet]
        exact (hTold.settings hUnset).put hOther value
      have hPredefine : I.Recounts line (predefine setting value) := by
        refine .ite _ ?_ (.pure ())
        split
        · exact .modifyScopes fun t _ hCalm hWithin => ⟨hCalm, hWithin.predefined⟩
        · exact .pure ()
      exact hPredefine _ _ hWritten
  | ignoreCode code => exact hDone
  | ignore change =>
    cases change with
    | start => exact hDone
    | stop => exact hDone
    | line => exact hDone
  | declareGlobal name writable =>
    exact hDone.same rfl id fun hCalm hWithin =>
      ⟨hCalm, hWithin.declareGlobal name writable (Nat.le_refl line)⟩
  | removeGlobal name => exact hDone.same rfl id fun hCalm hWithin => ⟨hCalm, hWithin.predefined⟩
  | exportName name =>
    exact hDone.same rfl id fun hCalm hWithin =>
      ⟨hCalm, hWithin.findings, hWithin.bindings, hWithin.pending, hWithin.globals⟩

/-- By induction on the items. -/
theorem Upto.applyEntries (h : I.Upto line items s) (entries : List Entry) (atGlobal : Bool)
    (column : Nat) :
    Resolved (I.Upto line (items ++ entries.map fun entry => (entry, line)))
      (I.Within (items ++ entries.map fun entry => (entry, line)))
      ((entries.forM fun entry => Parse.applyEntry entry atGlobal line column) s) := by
  induction entries generalizing items s with
  | nil =>
    rw [List.map_nil, List.append_nil]
    exact h
  | cons entry rest ih =>
    rw [List.map_cons, List.append_cons]
    refine (h.applyEntry entry atGlobal column).bind (fun _ t ht => ih ht) fun t ht => ?_
    exact ht.within (List.prefix_append _ _)

/-- All entries of a directive are applied at its line. -/
theorem Upto.applyDirective (h : I.Upto line items s) (d : Directive) (column : Nat) :
    Resolved (I.Upto line (items ++ d.entries.map fun entry => (entry, line)))
      (I.Within (items ++ d.entries.map fun entry => (entry, line)))
      (Parse.applyDirective d line column s) := by
  refine Resolved.bind (Recounts.reportProblems d.problems (Nat.le_refl line) items s h)
    (fun _ t ht => ?_) fun t ht => ht.within (List.prefix_append _ _)
  exact ht.applyEntries d.entries t.inGlobalCode column

variable {l l' : Lexer} {rs read : List Lexer.Result} {next : Token} {text : List Char}

open Lexer

/-- A result is noted where it was read: a directive lies after what was reported before it, and an
error before what is read next. -/
theorem Upto.note (h : I.Upto l.line items s) (hl : Follows text l.cursor) :
    Resolved (I.Upto l.next.2.line (items ++ directions l.next.1))
      (I.Within (items ++ directions l.next.1)) (Parse.note l.next.1 s) := by
  have hStep := hl.proceeds
  have hSpans := hStep.spans
  have hLater := h.mono (line_le_next hl)
  -- an error is reported where it begins; a directive is applied where it begins
  cases hNext : l.next.1 with
  | error e =>
    rw [hNext] at hSpans
    have hLine : e.place.line ≤ l.next.2.line := by
      rw [hSpans.1.2.2, hStep.follows.line_eq]
      exact line_within text hSpans.1.2.1
    rw [show directions (.error e) = [] from rfl, List.append_nil]
    have hReport : I.Recounts l.next.2.line (reportLexError e) :=
      .emit e.problem.code_ne e.problem.code_ne_stopping hLine
    exact (hReport items s hLater).imp (fun _ => id) fun _ ht => ht.within List.prefix_rfl
  | ok t =>
    rw [hNext] at hSpans
    have hStart : t.line = (Position.within text l.skipBlank.offset).line :=
      congrArg Position.line hSpans.place
    unfold Parse.note directions
    dsimp only
    cases t.kind with
    | directive d =>
      have hBefore : l.line ≤ t.line := by
        rw [hl.line_eq, hStart]
        exact line_within text hStep.skips
      have hAfter : t.line ≤ l.next.2.line := by
        rw [hStart, hStep.follows.line_eq]
        exact line_within text (skipBlank_le_next hl)
      exact ((h.mono hBefore).applyDirective d t.column).imp (fun _ ht => ht.mono hAfter) fun _ =>
        id
    | _ =>
      rw [List.append_nil]
      exact hLater

/-- By induction on what is passed on the way to the next token. -/
theorem Upto.notes (hLeads : Leads l rs next l') (h : I.Upto l.line items s)
    (hl : Follows text l.cursor) :
    Resolved (I.Upto l'.line (items ++ rs.flatMap directions))
      (I.Within (items ++ rs.flatMap directions)) ((rs.forM Parse.note) s) := by
  induction hLeads generalizing items s with
  | here _ =>
    rw [List.flatMap_singleton]
    exact (h.note hl).bind (fun _ t ht => ht) fun _ => id
  | pass _ _ ih =>
    rw [List.flatMap_cons, ← List.append_assoc]
    refine (h.note hl).bind (fun _ t ht => ih ht hl.proceeds.follows) fun t ht => ?_
    exact ht.mono (List.prefix_append _ _)

/-! ## At a token -/

/-- The lexer has read the results and goes on from here, not before the lines of the current token
and of the one before it, and not before any of the lines. -/
structure Front (I : Input) (lines : List Nat) (s : Session) (read : List Result) (l : Lexer) :
    Prop where
  yields : Yields (.ofSource I.source) read l
  follows : Follows I.source.toList l.cursor
  stream : s.stream.From l
  token : s.token.line ≤ l.line
  previous : s.previous.line ≤ l.line
  known : ∀ n ∈ lines, n ≤ l.line

/-- The log of the session mentions what was read up to the current token, and nothing that was
reported, and none of the lines, lies after the place where the lexer goes on. -/
def Rests (I : Input) (lines : List Nat) (s : Session) : Prop :=
  ∃ read l, I.Front lines s read l ∧ I.Upto l.line (read.flatMap directions) s

/-- The log of the session mentions no more than what was read. -/
def Tells (I : Input) (s : Session) : Prop :=
  ∃ read l, Yields (.ofSource I.source) read l ∧ I.Within (read.flatMap directions) s

variable {lines lines' : List Nat}

namespace Rests

/-- A session at rest has a log. -/
theorem tells (h : I.Rests lines s) : I.Tells s := by
  obtain ⟨read, l, hFront, hUpto⟩ := h
  exact ⟨read, l, hFront.yields, hUpto.within List.prefix_rfl⟩

/-- A session at rest with many lines rests with fewer of them. -/
theorem mono (h : I.Rests lines s) (hLines : ∀ n ∈ lines', n ∈ lines) : I.Rests lines' s := by
  obtain ⟨read, l, hFront, hUpto⟩ := h
  exact ⟨read, l, { hFront with known := fun n hn => hFront.known n (hLines n hn) }, hUpto⟩

/-- The lines of the current token and of the one before it are known. -/
theorem here (h : I.Rests lines s) : I.Rests (s.token.line :: s.previous.line :: lines) s := by
  obtain ⟨read, l, hFront, hUpto⟩ := h
  refine ⟨read, l, { hFront with known := ?_ }, hUpto⟩
  exact List.forall_mem_cons.mpr
    ⟨hFront.token, List.forall_mem_cons.mpr ⟨hFront.previous, hFront.known⟩⟩

/-- The parser stays at the token and reports nothing that lies after the lines that are known. -/
theorem remain {α : Type} {p : Parse α} (h : I.Rests lines s)
    (hReports : ∀ line, (∀ n ∈ lines, n ≤ line) → I.Recounts line p) (hPlaced : Resolves placed p) :
    Resolved (I.Rests lines) (I.Rests lines) (p s) := by
  obtain ⟨read, l, hFront, hUpto⟩ := h
  have hRests (t : Session) (ht : I.Upto l.line (read.flatMap directions) t ∧ s.Placed t) :
      I.Rests lines t := by
    obtain ⟨hUpto, hToken, hPrevious, hStream, -⟩ := ht
    refine ⟨read, l, ?_, hUpto⟩
    exact ⟨hFront.yields, hFront.follows, hStream ▸ hFront.stream, hToken ▸ hFront.token,
      hPrevious ▸ hFront.previous, hFront.known⟩
  exact ((hReports l.line hFront.known _ s hUpto).and (hPlaced s)).imp hRests hRests

/-- Looking ahead does not move the place where the lexer goes on. -/
theorem look (h : I.Rests lines s) {stream : TokenStream}
    (hStream : ∀ l, s.stream.From l → stream.From l ∨ stream.From l.allowRegex) :
    I.Rests lines { s with stream } := by
  obtain ⟨read, l, hFront, hUpto⟩ := h
  have hSame : I.Upto l.line (read.flatMap directions) { s with stream } :=
    hUpto.same rfl id And.intro
  rcases hStream l hFront.stream with hFrom | hFrom
  · exact ⟨read, l, { hFront with stream := hFrom }, hSame⟩
  · exact ⟨read, l.allowRegex,
      ⟨hFront.yields.allow, hFront.follows, hFrom, hFront.token, hFront.previous,
      hFront.known⟩, hSame⟩

/-- Consuming the current token leads to the next one, with everything between them in the log. -/
theorem advance (h : I.Rests lines s) : Resolved (I.Rests lines) I.Tells (advance s) := by
  obtain ⟨read, l, hFront, hUpto⟩ := h
  obtain ⟨rs, next, l', hLeads⟩ := exists_leads l
  obtain ⟨-, hFrom, -⟩ := TokenStream.pullSignificant_spec hFront.stream hLeads
  have hNext := hLeads.token_line_le hFront.follows
  have hLater := hLeads.line_le hFront.follows
  have hYields := hFront.yields.leads hLeads
  -- whatever stops the run on the way, the log mentions no more than what was read by then
  have hTells {items : List (Entry × Nat)} {t : Session} (ht : I.Within items t)
      (hItems : items <+: read.flatMap directions ++ rs.flatMap directions) : I.Tells t :=
    ⟨read ++ rs, l', hYields, ht.mono (List.flatMap_append ▸ hItems)⟩
  -- four steps in order: the token left behind, what was read, the move, the lines before it
  rw [advance_eq hFront.stream hLeads]
  refine ((hUpto.checkConsumed hFront.token).and (placed_of_standing standing_checkConsumed s)).bind
    (fun _ m hm => ?_) fun t ht => hTells (ht.1.within List.prefix_rfl) (List.prefix_append _ _)
  obtain ⟨hm, hmPlaced⟩ := hm
  let pulled : Session :=
    { m with consumed := m.token.offset + m.token.raw.length, stream := s.stream.pullSignificant.2 }
  have hPulled : I.Upto l.line (read.flatMap directions) pulled := hm.same rfl id And.intro
  show Resolved _ _ ((rs.forM note >>= _) pulled)
  have hNotes : Resolves placed (rs.forM note) := .forM fun r _ => placed_note r
  refine ((hPulled.notes hLeads hFront.follows).and (hNotes _)).bind (fun _ n hn => ?_) fun t ht =>
    hTells ht.1 List.prefix_rfl
  obtain ⟨hn, hnPlaced⟩ := hn
  let arrived : Session := { n with previous := n.token, token := next }
  show Resolved _ _ (checkLinesBefore next.line arrived)
  have hArrived : I.Upto l'.line (read.flatMap directions ++ rs.flatMap directions) arrived :=
    hn.same rfl id And.intro
  have hCheck : I.Recounts l'.line (checkLinesBefore next.line) :=
    .checkLinesBefore (Nat.le_succ_of_le hNext)
  have hPlaced := placed_of_standing (standing_checkLinesBefore next.line) arrived
  refine ((hCheck _ _ hArrived).and hPlaced).imp (fun u hu => ?_) fun u hu =>
    hTells (hu.1.within List.prefix_rfl) List.prefix_rfl
  obtain ⟨hu, huToken, huPrevious, huStream, -⟩ := hu
  have hToken : n.token = s.token := hnPlaced.token.trans hmPlaced.token
  refine ⟨read ++ rs, l', ⟨hYields, (hLeads.lies hFront.follows).1, ?_, ?_, ?_, ?_⟩, ?_⟩
  · rw [huStream, show arrived.stream = s.stream.pullSignificant.2 from hnPlaced.stream]
    exact hFrom
  · rw [huToken]
    exact hNext
  · rw [huPrevious, show arrived.previous = s.token from hToken]
    exact Nat.le_trans hFront.token hLater
  · exact fun k hk => Nat.le_trans (hFront.known k hk) hLater
  · rw [List.flatMap_append]
    exact hu

end Rests

end Input

end ScriptLint
