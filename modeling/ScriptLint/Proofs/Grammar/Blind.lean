import ScriptLint.Proofs.Grammar.Steady
import ScriptLint.Proofs.Lexer.Stream

/-!
# Steps that do not look ahead

Reporting findings, noting names and counting depend neither on the tokens ahead nor on what was
reported before. Such steps run alike in sessions that differ only there, and they stay at the
current token.

- `Session.Beside`: sessions that differ in what is ahead and in how a halted journal ended.
- `Parse.Blind`: parsers that run alike in such sessions.
- `Session.Stands`: a change that stays in place and forgets no diagnostic; under a condition the
  new ones are harmless.
- `Parse.arrive`: consuming a token, once it is known what is ahead.
-/

namespace ScriptLint

/-! ## Diagnostics -/

/-- The diagnostic is about neither lexing nor syntax, or it ends a program nested too deeply. -/
def Diagnostic.Harmless (d : Diagnostic) : Prop :=
  d.phase = .lexical ∨ d.phase = .syntactic → d.code = "E041"

theorem Finding.harmless_of_phase {f : Finding} (h : f.phase = .semantic) (line column : Nat) :
    (f.diagnostic line column).Harmless := by
  rintro (hLex | hSyntax)
  · cases h.symm.trans hLex
  · cases h.symm.trans hSyntax

/-- Semantic findings are harmless. -/
theorem Finding.harmless_of_isSemantic {f : Finding} (h : f.isSemantic) (line column : Nat) :
    (f.diagnostic line column).Harmless := by
  refine f.harmless_of_phase ?_ line column
  cases f <;> first | rfl | cases h

/-- So is the report that a run was stopped. -/
theorem Finding.harmless_stopping (percent line column : Nat) :
    ((stopping percent).diagnostic line column).Harmless := by
  rintro (hLex | hSyntax)
  · cases hLex
  · cases hSyntax

theorem Finding.harmless_unrecoverable (percent line column : Nat) :
    ((unrecoverable percent).diagnostic line column).Harmless :=
  fun _ => rfl

namespace Journal

/-- All diagnostics kept are harmless. -/
def Clean (j : Journal) : Prop := ∀ d ∈ j.kept, d.Harmless

/-- The second journal is the first one; once they are halted, the second may have kept other
harmless diagnostics. -/
def Beside (j j' : Journal) : Prop :=
  ∃ kept, j' = { j with kept } ∧ (j.halted = false → kept = j.kept) ∧
    ∀ d ∈ kept, d ∈ j.kept ∨ d.Harmless

namespace Beside

variable {j j' : Journal}

theorem refl (j : Journal) : j.Beside j := ⟨j.kept, rfl, fun _ => rfl, fun _ => .inl⟩

/-- A journal beside a clean one is clean. -/
theorem clean (h : j.Beside j') (hj : j.Clean) : j'.Clean := by
  obtain ⟨kept, rfl, -, hKept⟩ := h
  exact fun d hd => (hKept d hd).elim (hj d) id

theorem keeps (h : j.Beside j') (d : Diagnostic) : j'.keeps d = j.keeps d := by
  obtain ⟨kept, rfl, -⟩ := h
  rfl

/-- A diagnostic is recorded in both journals, unless they are halted. -/
theorem record (h : j.Beside j') (d : Diagnostic) : (j.record d).Beside (j'.record d) := by
  cases hHalted : j.halted with
  | false =>
    obtain ⟨kept, rfl, hSame, -⟩ := h
    rw [hSame hHalted]
    exact refl _
  | true =>
    have hKeeps : j.keeps d = false := by
      rw [Journal.keeps, hHalted]
      rfl
    rw [Journal.record, Journal.record, h.keeps, hKeeps]
    exact h

/-- Both journals are halted, each with a last diagnostic of its own. -/
theorem halt (h : j.Beside j') (last : Diagnostic) {last' : Diagnostic} (hLast : last'.Harmless) :
    (j.halt last).Beside (j'.halt last') := by
  cases hHalted : j.halted with
  | true =>
    obtain ⟨kept, rfl, hSame, hKept⟩ := h
    have hHere : j.halt last = j := if_pos hHalted
    have hThere : Journal.halt { j with kept } last' = { j with kept } := if_pos hHalted
    rw [hHere, hThere]
    exact ⟨kept, rfl, hSame, hKept⟩
  | false =>
    obtain ⟨kept, rfl, hSame, -⟩ := h
    rw [hSame hHalted]
    have hHalt (last : Diagnostic) :
        j.halt last = { j with kept := last :: j.kept, halted := true } :=
      if_neg (by rw [hHalted]; exact Bool.false_ne_true)
    rw [hHalt, hHalt]
    refine ⟨last' :: j.kept, rfl, fun hFalse => (by cases hFalse), fun d hd => ?_⟩
    rcases List.mem_cons.mp hd with rfl | hd
    · exact .inr hLast
    · exact .inl (List.mem_cons_of_mem _ hd)

/-- A line is dropped from both journals. -/
theorem dropLine (h : j.Beside j') (line : Nat) : (j.dropLine line).Beside (j'.dropLine line) := by
  obtain ⟨kept, rfl, hSame, hKept⟩ := h
  refine ⟨kept.filter (·.line != line), rfl, fun hHalted => ?_, fun d hd => ?_⟩
  · rw [hSame hHalted]
    rfl
  · obtain ⟨hd, hLine⟩ := List.mem_filter.mp hd
    exact (hKept d hd).imp_left fun hd => List.mem_filter.mpr ⟨hd, hLine⟩

theorem ignoreCode (h : j.Beside j') (code : String) :
    (j.ignoreCode code).Beside (j'.ignoreCode code) := by
  obtain ⟨kept, rfl, hSame, hKept⟩ := h
  exact ⟨kept, rfl, hSame, hKept⟩

theorem ignoreLine (h : j.Beside j') (line : Nat) :
    (j.ignoreLine line).Beside (j'.ignoreLine line) := by
  obtain ⟨kept, hDropped, hSame, hKept⟩ := h.dropLine line
  obtain ⟨_, rfl, -⟩ := h
  refine ⟨kept, ?_, hSame, hKept⟩
  rw [Journal.ignoreLine, hDropped]
  rfl

/-- A region that starts is open in both journals. -/
theorem startRegion (h : j.Beside j') (line : Nat) :
    (j.startRegion line).Beside (j'.startRegion line) := by
  have hDropped := h.dropLine line
  have hOpen : j'.openRegion = j.openRegion := by
    obtain ⟨kept, rfl, -⟩ := h
    rfl
  unfold Journal.startRegion
  rw [hOpen]
  split
  · exact h
  · obtain ⟨kept, hKept, hRest⟩ := hDropped
    rw [hKept]
    exact ⟨kept, rfl, hRest⟩

/-- A region that ends leaves the same lines out of both journals. -/
theorem endRegion (h : j.Beside j') (line : Nat) :
    (j.endRegion line).Beside (j'.endRegion line) := by
  obtain ⟨kept, rfl, hSame, hKept⟩ := h
  unfold Journal.endRegion
  dsimp only
  split
  · exact ⟨kept, rfl, hSame, hKept⟩
  · exact ⟨kept, rfl, hSame, hKept⟩

end Beside

end Journal

/-! ## Blind parsers -/

/-- Sessions that agree in all but what they have not read yet and what they have reported. -/
def Session.SameView (s s' : Session) : Prop :=
  ∃ stream sourceLength uncheckedLines journal,
    s' = { s with stream, sourceLength, uncheckedLines, journal }

theorem Session.SameView.refl (s : Session) : s.SameView s := ⟨_, _, _, _, rfl⟩

/-- What sees the same resembles, whatever the hidden settings. -/
theorem Session.SameView.resembles {s s' : Session} (h : s.SameView s') (hides : Setting → Prop) :
    s.Resembles hides s' := by
  obtain ⟨stream, sourceLength, uncheckedLines, journal, rfl⟩ := h
  exact ⟨⟨stream, sourceLength, uncheckedLines, journal, _, _, _, _, _⟩, rfl, fun _ _ => rfl⟩

/-- Sessions that agree in all but what they have not read yet and in how a halted journal ended. -/
def Session.Beside (s s' : Session) : Prop :=
  ∃ stream sourceLength uncheckedLines journal,
    s' = { s with stream, sourceLength, uncheckedLines, journal } ∧ s.journal.Beside journal

/-- Sessions beside each other see the same. -/
theorem Session.Beside.sameView {s s' : Session} : s.Beside s' → s.SameView s' := by
  rintro ⟨stream, sourceLength, uncheckedLines, journal, rfl, -⟩
  exact ⟨_, _, _, _, rfl⟩

namespace Parse

variable {α β : Type}

/-- Two runs that end alike, with related sessions. -/
inductive Agree (R : Session → Session → Prop) :
    EStateM.Result Abort Session α → EStateM.Result Abort Session α → Prop
  | ok {a : α} {t t' : Session} : R t t' → Agree R (.ok a t) (.ok a t')
  | error {e : Abort} {t t' : Session} : R t t' → Agree R (.error e t) (.error e t')

/-- The sessions two agreeing runs leave are related. -/
theorem Agree.left {R : Session → Session → Prop} {r r' : EStateM.Result Abort Session α}
    (h : Agree R r r') : R (left r) (left r') := by
  cases h with
  | ok h => exact h
  | error h => exact h

/-- Runs that agree go on in agreement. -/
theorem Agree.bind {R R' : Session → Session → Prop} {p q : Parse α} {f g : α → Parse β}
    {s s' : Session} (h : Agree R (p s) (q s')) (hf : ∀ a t t', R t t' → Agree R' (f a t) (g a t'))
    (hR : ∀ t t', R t t' → R' t t') : Agree R' ((p >>= f) s) ((q >>= g) s') := by
  generalize hr : p s = r, hr' : q s' = r' at h
  cases h with
  | ok ht =>
    rw [bind_of_ok hr, bind_of_ok hr']
    exact hf _ _ _ ht
  | error ht =>
    rw [bind_of_error hr, bind_of_error hr']
    exact .error (hR _ _ ht)

/-- The parser runs alike whatever is ahead. -/
def Blind (p : Parse α) : Prop := ∀ s s' : Session, s.Beside s' → Agree Session.Beside (p s) (p s')

namespace Blind

variable {p q : Parse α}

theorem pure (a : α) : Blind (pure a) := fun _ _ h => .ok h

theorem throw (e : Abort) : Blind (throw e : Parse α) := fun _ _ h => .error h

theorem bind {f : α → Parse β} (hp : Blind p) (hf : ∀ a, Blind (f a)) : Blind (p >>= f) :=
  fun s s' h => (hp s s' h).bind hf fun _ _ => id

theorem ite (c : Prop) [Decidable c] (hp : Blind p) (hq : Blind q) :
    Blind (if c then p else q) := by
  split
  · exact hp
  · exact hq

/-- Only one of the branches does something before both go on in the same way. -/
theorem when (c : Prop) [Decidable c] {p q : Parse Unit} (hp : Blind p) (hq : Blind q) :
    Blind (if c then p >>= fun _ => q else q) :=
  ite c (bind hp fun _ => hq) hq

/-- What is done may depend on what does not lie ahead. -/
theorem read {f : Session → Parse α} (h : ∀ s, Blind (f s))
    (hSame : ∀ s s' : Session, s.SameView s' → f s' = f s) : Blind (get >>= f) := by
  intro s s' hs
  show Agree _ (f s s) (f s' s')
  rw [hSame s s' hs.sameView]
  exact h s s s' hs

/-- The session that was read is still the current one. -/
theorem readAt {f : Session → Parse α}
    (h : ∀ s s' : Session, s.Beside s' → Agree Session.Beside (f s s) (f s' s')) :
    Blind (get >>= f) := h

/-- A change that keeps sessions beside each other is blind. -/
theorem modify {f : Session → Session} (h : ∀ s s' : Session, s.Beside s' → (f s).Beside (f s')) :
    Blind (modify f) :=
  fun s s' hs => .ok (h s s' hs)

theorem forM {l : List β} {f : β → Parse PUnit} (h : ∀ b ∈ l, Blind (f b)) : Blind (l.forM f) := by
  induction l with
  | nil => exact pure _
  | cons b rest ih =>
    refine bind (h b (List.mem_cons_self ..)) fun _ => ih fun c hc => ?_
    exact h c (List.mem_cons_of_mem _ hc)

end Blind

/-- A change of what does not lie ahead. -/
theorem blind_modify {f : Session → Session}
    (h : ∀ (s : Session) stream sourceLength uncheckedLines journal,
      f { s with stream, sourceLength, uncheckedLines, journal } =
        { f s with stream, sourceLength, uncheckedLines, journal })
    (hJournal : ∀ s, (f s).journal = s.journal) : Blind (modify f) := by
  refine .modify fun s s' => ?_
  rintro ⟨stream, sourceLength, uncheckedLines, journal, rfl, hj⟩
  exact ⟨stream, sourceLength, uncheckedLines, journal, h _ _ _ _ _, (hJournal s).symm ▸ hj⟩

/-- A report goes to both journals. -/
theorem blind_emit (d : Diagnostic) : Blind (emit d) := by
  rintro s s' ⟨stream, sourceLength, uncheckedLines, journal, rfl, hj⟩
  unfold emit
  dsimp only
  rw [hj.keeps d]
  split
  · refine .error ⟨stream, sourceLength, uncheckedLines, _, rfl, ?_⟩
    exact (hj.record d).halt _ (Finding.harmless_stopping _ _ _)
  · exact .ok ⟨stream, sourceLength, uncheckedLines, _, rfl, hj.record d⟩

theorem blind_warnAt (f : Finding) (line column : Nat) :
    Blind (warnAt f line column) := blind_emit _

theorem blind_failAt {α : Type} (f : Finding) (t : Token) : Blind (failAt f t : Parse α) :=
  .bind (blind_emit _) fun _ => .throw _

theorem blind_warnUnless (setting : Setting) (f : Finding) (line column : Nat) :
    Blind (warnUnless setting f line column) := by
  refine .read (fun s => ?_) fun s s' ⟨_, _, _, _, hs⟩ => hs ▸ rfl
  exact .ite _ (blind_warnAt f line column) (.pure ())

theorem blind_modifyScopes (f : Scope.Tracker → Setting.Layers → Scope.Tracker) :
    Blind (modifyScopes f) :=
  blind_modify (fun _ _ _ _ _ => rfl) fun _ => rfl

theorem blind_flushScopes : Blind flushScopes := by
  refine .read (fun s => ?_) fun s s' ⟨_, _, _, _, hs⟩ => hs ▸ rfl
  exact .bind (blind_modifyScopes _) fun _ => .forM fun f _ => blind_warnAt _ _ _

/-! ## Consuming tokens -/

/-- Quotes are checked against the settings and the first quote. -/
theorem blind_checkQuote (quote : Char) (line column : Nat) :
    Blind (checkQuote quote line column) := by
  refine .readAt fun s s' ⟨stream, sourceLength, uncheckedLines, journal, h, hj⟩ => ?_
  subst h
  have hs : s.Beside { s with stream, sourceLength, uncheckedLines, journal } :=
    ⟨stream, sourceLength, uncheckedLines, journal, rfl, hj⟩
  -- the two warnings about quotes differ in their condition only
  have hWarn (c : Prop) [Decidable c] (f : Finding) :
      Blind (if c then warnAt f line column else Pure.pure ()) :=
    .ite c (blind_warnAt f line column) (.pure ())
  dsimp only
  -- the policy on quotes is the same in both sessions
  cases s.layers.quotePolicy with
  | off => exact .ok hs
  | single => exact hWarn _ _ _ _ hs
  | double => exact hWarn _ _ _ _ hs
  | consistent =>
    dsimp only
    cases hFirst : s.firstQuote with
    | none => exact .ok ⟨stream, sourceLength, uncheckedLines, journal, rfl, hj⟩
    | some first =>
      rw [hFirst] at hs
      exact hWarn _ _ _ _ hs

/-- A consumed token is checked by itself. -/
theorem blind_checkConsumed : Blind checkConsumed := by
  refine .read (fun s => ?_) fun s s' ⟨_, _, _, _, hs⟩ => hs ▸ rfl
  dsimp only
  split
  · refine .bind (blind_checkQuote _ _ _) fun _ => .when _ (blind_warnAt _ _ _) ?_
    exact .when _ (blind_warnUnless _ _ _ _) (.ite _ (blind_warnUnless _ _ _ _) (.pure ()))
  · exact .ite _ (blind_warnAt _ _ _) (.pure ())
  · exact .pure ()

/-- An edit of the journal. -/
theorem blind_modifyJournal {f : Journal → Journal}
    (h : ∀ j j' : Journal, j.Beside j' → (f j).Beside (f j')) :
    Blind (modify fun s => { s with journal := f s.journal }) := by
  refine .modify fun s s' => ?_
  rintro ⟨stream, sourceLength, uncheckedLines, journal, rfl, hj⟩
  exact ⟨stream, sourceLength, uncheckedLines, f journal, rfl, h _ _ hj⟩

/-- An entry of a directive reads the layers and the scopes only. -/
theorem blind_applyEntry (entry : Directive.Entry) (atGlobal : Bool) (line column : Nat) :
    Blind (applyEntry entry atGlobal line column) := by
  -- one case for each kind of entry; the journals change by the same operation
  cases entry with
  | setOption setting value =>
    rintro s _ ⟨stream, sourceLength, uncheckedLines, journal, rfl, hj⟩
    let s' : Session := { s with stream, sourceLength, uncheckedLines, journal }
    cases hSet : s.layers.set setting value atGlobal with
    | ok layers =>
      rw [applyEntry_of_ok hSet, applyEntry_of_ok (s := s') hSet]
      have hRest : Blind (predefine setting value) := by
        refine .ite _ ?_ (.pure ())
        split
        · exact blind_modifyScopes _
        · exact .pure ()
      exact hRest { s with layers } _ ⟨stream, sourceLength, uncheckedLines, journal, rfl, hj⟩
    | error problem =>
      rw [applyEntry_of_error hSet, applyEntry_of_error (s := s') hSet]
      exact blind_emit _ s _ ⟨stream, sourceLength, uncheckedLines, journal, rfl, hj⟩
  | ignoreCode code => exact blind_modifyJournal fun _ _ hj => hj.ignoreCode code
  | ignore change =>
    cases change with
    | start => exact blind_modifyJournal fun _ _ hj => hj.startRegion line
    | stop => exact blind_modifyJournal fun _ _ hj => hj.endRegion line
    | line => exact blind_modifyJournal fun _ _ hj => hj.ignoreLine line
  | declareGlobal name writable =>
    exact blind_modifyScopes fun t _ => t.declareGlobal name writable line column
  | removeGlobal name => exact blind_modifyScopes fun t _ => t.removeGlobal name
  | exportName name => exact blind_modifyScopes fun t _ => t.exportName name

/-- Noting a result is blind. -/
theorem blind_note (result : Lexer.Result) : Blind (note result) := by
  unfold note
  split
  · split
    · refine .bind (.forM fun p _ => blind_emit _) fun _ => ?_
      refine .read (fun s => .forM fun entry _ => blind_applyEntry entry _ _ _) ?_
      exact fun s s' ⟨_, _, _, _, hs⟩ => hs ▸ rfl
    · exact .pure ()
  · exact blind_emit _

/-! ## Blocks and functions -/

theorem blind_enterBlock (opener : Token) : Blind (Grammar.enterBlock opener) := by
  refine .bind (blind_modify (fun _ _ _ _ _ => rfl) fun _ => rfl) fun _ => ?_
  refine .read (fun s => ?_) fun s s' ⟨_, _, _, _, hs⟩ => hs ▸ rfl
  exact .ite _ (blind_warnAt _ _ _) (.pure ())

/-- Closing a function is blind. -/
theorem blind_closeFunction (line column : Nat) : Blind (Grammar.closeFunction line column) := by
  refine .readAt fun s s' ⟨stream, sourceLength, uncheckedLines, journal, h, hj⟩ => ?_
  subst h
  have hReports : Blind (do
      (Grammar.metricFindings s.layers s.metrics.current).forM fun f => warnAt f line column
      flushScopes) :=
    .bind (.forM fun f _ => blind_warnAt f line column) fun _ => blind_flushScopes
  exact hReports (Grammar.withoutFunction s) _
    ⟨stream, sourceLength, uncheckedLines, journal, rfl, hj⟩

end Parse

/-! ## Staying in place -/

namespace Session

/-- The current token and what is ahead of it stay. -/
structure Placed (s t : Session) : Prop where
  token : t.token = s.token
  previous : t.previous = s.previous
  stream : t.stream = s.stream
  sourceLength : t.sourceLength = s.sourceLength
  consumed : t.consumed = s.consumed

/-- Staying in place is transitive. -/
theorem Placed.trans {s t u : Session} (h : s.Placed t) (h' : t.Placed u) : s.Placed u where
  token := h'.token.trans h.token
  previous := h'.previous.trans h.previous
  stream := h'.stream.trans h.stream
  sourceLength := h'.sourceLength.trans h.sourceLength
  consumed := h'.consumed.trans h.consumed

/-- The session stays in place and forgets no diagnostic. Under the condition, with calm scopes,
the new ones are harmless. -/
structure Stands (c : Prop) (s t : Session) : Prop extends s.Placed t where
  kept : ∀ d ∈ s.journal.kept, d ∈ t.journal.kept
  calm : s.scopes.Calm → t.scopes.Calm
  added : c → s.scopes.Calm → ∀ d ∈ t.journal.kept, d ∈ s.journal.kept ∨ d.Harmless

variable {c : Prop}

/-- Standing still is transitive. -/
theorem Stands.trans {s t u : Session} (h : s.Stands c t) (h' : t.Stands c u) : s.Stands c u where
  toPlaced := h.toPlaced.trans h'.toPlaced
  kept d hd := h'.kept d (h.kept d hd)
  calm hs := h'.calm (h.calm hs)
  added hc hs d hd := (h'.added hc (h.calm hs) d hd).elim (h.added hc hs d) .inr

/-- Nothing is reported. -/
theorem Stands.quiet {s t : Session} (calm : s.scopes.Calm → t.scopes.Calm) (placed : s.Placed t)
    (journal : t.journal = s.journal) : s.Stands c t where
  toPlaced := placed
  kept _ hd := journal ▸ hd
  calm := calm
  added _ _ _ hd := .inl (journal ▸ hd)

/-- Neither the place nor the scopes change. -/
theorem Stands.same {s t : Session}
    (h : (t.token, t.previous, t.stream, t.sourceLength, t.consumed, t.scopes, t.journal) =
      (s.token, s.previous, s.stream, s.sourceLength, s.consumed, s.scopes, s.journal)) :
        s.Stands c t := by
  simp only [Prod.mk.injEq] at h
  obtain ⟨token, previous, stream, sourceLength, consumed, scopes, journal⟩ := h
  exact .quiet (scopes ▸ id) ⟨token, previous, stream, sourceLength, consumed⟩ journal

/-- With harmless findings only, a clean journal stays clean. -/
theorem Stands.clean {s t : Session} (h : s.Stands True t) (hs : s.scopes.Calm)
    (hClean : s.journal.Clean) : t.journal.Clean :=
  fun d hd => (h.added trivial hs d hd).elim (hClean d) id

end Session

/-- The contract to stay in place. -/
def placed : Contract where
  Goes := Session.Placed
  Stops := Session.Placed
  refl _ := ⟨rfl, rfl, rfl, rfl, rfl⟩
  trans := .trans
  stop := .trans

/-- The contract to stay in place and forget no diagnostic. -/
def standing (c : Prop) : Contract where
  Goes := Session.Stands c
  Stops := Session.Stands c
  refl _ := .same rfl
  trans := .trans
  stop := .trans

/-! ## Findings, names and functions -/

namespace Parse

variable {α : Type} {c : Prop}

/-- A harmless report leaves the session where it stands. -/
theorem standing_emit {d : Diagnostic} (h : c → d.Harmless) : Resolves (standing c) (emit d) := by
  intro s
  -- what is kept after the report is the report itself or was kept before
  have hRecord (e : Diagnostic) : e ∈ (s.journal.record d).kept ↔
      e ∈ s.journal.kept ∨ s.journal.keeps d = true ∧ e = d := by
    unfold Journal.record
    split
    · next hKeeps =>
      rw [List.mem_cons, or_comm]
      exact or_congr_right (by rw [hKeeps]; simp)
    · next hKeeps => simp [hKeeps]
  have hRecorded (e : Diagnostic) (he : e ∈ (s.journal.record d).kept) (hc : c) :
      e ∈ s.journal.kept ∨ e.Harmless := by
    rcases (hRecord e).mp he with hKept | ⟨-, rfl⟩
    · exact .inl hKept
    · exact .inr (h hc)
  unfold emit
  dsimp only
  split
  -- a diagnostic at which a run stops is recorded, and so is the stop
  · refine ⟨⟨rfl, rfl, rfl, rfl, rfl⟩, fun e he => ?_, id, fun hc _ e he => ?_⟩
    · show e ∈ ((s.journal.record d).halt _).kept
      unfold Journal.halt
      split
      · exact (hRecord e).mpr (.inl he)
      · exact List.mem_cons_of_mem _ ((hRecord e).mpr (.inl he))
    · have hHalt : e ∈ ((s.journal.record d).halt
          ((Finding.stopping s.percent).diagnostic d.line d.column)).kept := he
      unfold Journal.halt at hHalt
      split at hHalt
      · exact hRecorded e hHalt hc
      · rcases List.mem_cons.mp hHalt with rfl | hHalt
        · exact .inr (Finding.harmless_stopping _ _ _)
        · exact hRecorded e hHalt hc
  · exact ⟨⟨rfl, rfl, rfl, rfl, rfl⟩, fun e he => (hRecord e).mpr (.inl he), id,
      fun hc _ e he => hRecorded e he hc⟩

theorem standing_warnAt {f : Finding} (line column : Nat) (h : c → f.isSemantic) :
    Resolves (standing c) (warnAt f line column) :=
  standing_emit fun hc => Finding.harmless_of_isSemantic (h hc) line column

theorem standing_failAt {f : Finding} (t : Token) : (standing False).Keeps (failAt f t : Parse α) :=
  (standing False).bind (standing_warnAt _ _ False.elim).keeps fun _ => (standing False).giveUp

/-- A change that touches neither the place nor what was reported. -/
theorem standing_modify {f : Session → Session}
    (hCalm : ∀ s, s.scopes.Calm → (f s).scopes.Calm) (hPlaced : ∀ s : Session, s.Placed (f s))
    (hJournal : ∀ s, (f s).journal = s.journal) : Resolves (standing c) (modify f) :=
  .modify fun s => .quiet (hCalm s) (hPlaced s) (hJournal s)

/-- The scopes may evolve meanwhile. -/
theorem standing_modifyScopes {f : Scope.Tracker → Setting.Layers → Scope.Tracker}
    (h : ∀ (t : Scope.Tracker) (layers : Setting.Layers), t.Evolves (f t layers)) :
    Resolves (standing c) (modifyScopes f) :=
  standing_modify (fun s hs => hs.evolves (h s.scopes s.layers))
    (fun _ => ⟨rfl, rfl, rfl, rfl, rfl⟩) fun _ => rfl

/-- What the scopes found is harmless if they are calm. -/
theorem standing_flushScopes : Resolves (standing c) flushScopes := by
  intro s
  have hAll : Resolves (standing s.scopes.Calm)
      (s.scopes.findings.forM fun f => warnAt f.finding f.line f.column) :=
    Resolves.forM fun f hf => standing_warnAt _ _ fun hs => Finding.isSemantic_of_isRemark (hs f hf)
  let cleared := { s with scopes := { s.scopes with findings := [] } }
  have hCleared : cleared.scopes.Calm := fun _ hf => absurd hf List.not_mem_nil
  have hStands (t : Session) (h : cleared.Stands s.scopes.Calm t) : s.Stands c t :=
    ⟨⟨h.token, h.previous, h.stream, h.sourceLength, h.consumed⟩, h.kept, fun _ => h.calm hCleared,
      fun _ hs => h.added hs hCleared⟩
  exact (hAll cleared).imp hStands hStands

/-- A function is closed on the spot. -/
theorem standing_closeFunction (line column : Nat) :
    Resolves (standing c) (Grammar.closeFunction line column) := by
  refine .readAt fun s => Resolves.setAt (.quiet (·.exit s.layers) ⟨rfl, rfl, rfl, rfl, rfl⟩ rfl) ?_
  refine .bind (.forM fun f hf => ?_) fun _ => standing_flushScopes
  exact standing_warnAt _ _ fun _ => Finding.isSemantic_of_isRemark
    (Grammar.isRemark_of_metricFindings hf)

theorem standing_enterBlock (opener : Token) :
    Resolves (standing c) (Grammar.enterBlock opener) := by
  refine .bind (.modify fun _ => .same rfl) fun _ => .read fun s => ?_
  exact .ite _ (standing_emit fun _ => Finding.harmless_of_phase rfl _ _) (.pure ())

theorem standing_warnUnless (setting : Setting) {f : Finding} (line column : Nat)
    (h : f.isSemantic) : Resolves (standing c) (warnUnless setting f line column) :=
  .read fun _ =>
    .ite _ (standing_warnAt line column fun _ => h) (.pure ())

theorem standing_warnIf (setting : Setting) {f : Finding} (line column : Nat)
    (h : f.isSemantic) : Resolves (standing c) (warnIf setting f line column) :=
  .read fun _ =>
    .ite _ (standing_warnAt line column fun _ => h) (.pure ())

theorem standing_checkQuote (quote : Char) (line column : Nat) :
    Resolves (standing c) (checkQuote quote line column) := by
  have hWarn (b : Prop) [Decidable b] {f : Finding} (h : f.isSemantic) :
      Resolves (standing c) (if b then warnAt f line column else Pure.pure ()) :=
    .ite b (standing_warnAt _ _ fun _ => h) (.pure ())
  refine .readAt fun s => ?_
  cases s.layers.quotePolicy with
  | off => exact Session.Stands.same rfl
  | single => exact hWarn _ rfl s
  | double => exact hWarn _ rfl s
  | consistent =>
    cases s.firstQuote with
    | none => exact Session.Stands.same rfl
    | some first => exact hWarn _ rfl s

/-- The check of the consumed token stays there. -/
theorem standing_checkConsumed : Resolves (standing c) checkConsumed := by
  refine .read fun s => ?_
  dsimp only
  split
  · refine .bind (standing_checkQuote _ _ _) fun _ => ?_
    refine .when _ (standing_warnAt _ _ fun _ => rfl) (.when _ (standing_warnUnless _ _ _ rfl) ?_)
    exact .ite _ (standing_warnUnless _ _ _ rfl) (.pure ())
  · exact .ite _ (standing_warnAt _ _ fun _ => rfl) (.pure ())
  · exact .pure ()

/-- By induction on the lines left. -/
theorem standing_warnLongLines (limit line : Nat) (lengths : List Nat) :
    Resolves (standing c) (warnLongLines limit line lengths) := by
  induction lengths generalizing line with
  | nil => exact .pure ()
  | cons length rest ih =>
    have hWarn : Resolves (standing c) (warnAt .lineTooLong line length) :=
      standing_warnAt _ _ fun _ => rfl
    exact .ite _ (.bind hWarn fun _ => ih (line + 1)) (ih (line + 1))

/-- So does the check of the lines before a token. -/
theorem standing_checkLinesBefore (line : Nat) : Resolves (standing c) (checkLinesBefore line) := by
  refine .readAt fun s => Resolves.setAt (.same rfl) ?_
  split
  · exact standing_warnLongLines _ _ _
  · exact .pure ()

/-- What stands still stays in place. -/
theorem placed_of_standing {p : Parse α} (h : Resolves (standing False) p) : Resolves placed p :=
  fun s => (h s).imp (fun _ => (·.toPlaced)) fun _ => (·.toPlaced)

theorem placed_emit (d : Diagnostic) : Resolves placed (emit d) :=
  placed_of_standing (standing_emit False.elim)

theorem placed_modify {f : Session → Session} (h : ∀ s : Session, s.Placed (f s)) :
    Resolves placed (modify f) :=
  .modify h

theorem placed_modifyScopes (f : Scope.Tracker → Setting.Layers → Scope.Tracker) :
    Resolves placed (modifyScopes f) :=
  placed_modify fun _ => ⟨rfl, rfl, rfl, rfl, rfl⟩

/-- No entry of a directive moves the session. -/
theorem placed_applyEntry (entry : Directive.Entry) (atGlobal : Bool) (line column : Nat) :
    Resolves placed (applyEntry entry atGlobal line column) := by
  have hJournal (f : Journal → Journal) :
      Resolves placed (modify fun s => { s with journal := f s.journal }) :=
    placed_modify fun _ => ⟨rfl, rfl, rfl, rfl, rfl⟩
  -- one case for each kind of entry
  cases entry with
  | setOption setting value =>
    refine .readAt fun s => ?_
    cases s.layers.set setting value atGlobal with
    | ok layers =>
      refine Resolves.setAt ⟨rfl, rfl, rfl, rfl, rfl⟩ (.ite _ ?_ (.pure ()))
      split
      · exact placed_modifyScopes _
      · exact .pure ()
    | error problem => exact placed_emit _ s
  | ignoreCode code => exact hJournal (·.ignoreCode code)
  | ignore change =>
    cases change with
    | start => exact hJournal (·.startRegion line)
    | stop => exact hJournal (·.endRegion line)
    | line => exact hJournal (·.ignoreLine line)
  | declareGlobal name writable =>
    exact placed_modifyScopes fun t _ => t.declareGlobal name writable line column
  | removeGlobal name => exact placed_modifyScopes fun t _ => t.removeGlobal name
  | exportName name => exact placed_modifyScopes fun t _ => t.exportName name

/-- Noting a result does not move the session. -/
theorem placed_note (result : Lexer.Result) : Resolves placed (note result) := by
  unfold note
  split
  · split
    · refine .bind (.forM fun p _ => placed_emit _) fun _ => .read fun _ => ?_
      exact .forM fun entry _ => placed_applyEntry entry _ _ _
    · exact .pure ()
  · exact placed_emit _

/-- A result that is no directive is passed over or reported. -/
theorem note_of_plain {result : Lexer.Result} (h : Lexer.directive? result = none) :
    note result = pure () ∨ ∃ e, note result = reportLexError e := by
  cases result with
  | ok t =>
    unfold Lexer.directive? at h
    unfold note
    dsimp only at h ⊢
    cases hKind : t.kind with
    | directive d =>
      rw [hKind] at h
      cases h
    | _ => exact .inl rfl
  | error e => exact .inr ⟨e, rfl⟩

/-! ## Arriving at the next token -/

section

open Lexer

variable {s : Session} {l after : Lexer} {rs : List Result} {t : Token}

/-- Consuming the current token, once it is known what the stream hands out. -/
def arrive (stream : TokenStream) (results : List Result) (next : Token) : Parse Unit := do
  checkConsumed
  modify fun s => { s with consumed := s.token.offset + s.token.raw.length, stream }
  results.forM note
  modify fun s => { s with previous := s.token, token := next }
  checkLinesBefore next.line

/-- A token is consumed by arriving at the next one. -/
theorem advance_eq (hFrom : s.stream.From l) (hLeads : Leads l rs t after) :
    advance s = arrive s.stream.pullSignificant.2 rs t s := by
  -- the check before the token leaves the stream alone, so the same results are pulled after it
  have hPlaced := placed_of_standing standing_checkConsumed s
  obtain ⟨hResults, -⟩ := TokenStream.pullSignificant_spec hFrom hLeads
  have hLast : (s.stream.pullSignificant.1.getLast?.bind significant?).getD .origin = t := by
    rw [hResults, hLeads.last]
    rfl
  cases hc : checkConsumed s with
  | error e m =>
    show (checkConsumed >>= _) s = (checkConsumed >>= _) s
    rw [bind_of_error hc, bind_of_error hc]
  | ok u m =>
    rw [hc] at hPlaced
    have hStream : m.stream = s.stream := hPlaced.stream
    show (checkConsumed >>= _) s = (checkConsumed >>= _) s
    rw [bind_of_ok hc, bind_of_ok hc]
    let read : Session := { m with
      consumed := m.token.offset + m.token.raw.length, stream := s.stream.pullSignificant.2 }
    -- all results up to the token are noted, and the token is the last of them
    have hNext : nextSignificant { m with consumed := m.token.offset + m.token.raw.length } =
        (do rs.forM note; return t : Parse Token) read := by
      unfold nextSignificant
      show (do
        (m.stream.pullSignificant.1).forM note
        return ((m.stream.pullSignificant.1).getLast?.bind significant?).getD .origin : Parse Token)
          { m with consumed := _, stream := m.stream.pullSignificant.2 } = _
      rw [hStream, hLast, hResults]
    show (nextSignificant >>= _) { m with consumed := m.token.offset + m.token.raw.length } =
      (rs.forM note >>= _) read
    cases hn : (rs.forM note) read with
    | ok v n =>
      have hOk : nextSignificant { m with consumed := m.token.offset + m.token.raw.length } =
          .ok t n := by
        rw [hNext, bind_of_ok hn]
        rfl
      rw [bind_of_ok hOk, bind_of_ok hn]
    | error e n =>
      rw [bind_of_error (hNext.trans (bind_of_error hn)), bind_of_error hn]

/-- Where consuming the current token of the first session leads: `count` results were pulled. -/
structure Arrives (s : Session) (count : Nat) (t : Token) (after : Lexer) (u : Session) : Prop where
  token : u.token = t
  previous : u.previous = s.token
  front : u.stream.From after
  queue : u.stream.ahead.length = s.stream.ahead.length - count
  sourceLength : u.sourceLength = s.sourceLength
  consumed : u.consumed = s.token.offset + s.token.raw.length

/-- A consumed token leads to the next significant one, or the run is stopped. -/
theorem advance_arrives (hFrom : s.stream.From l) (hLeads : Leads l rs t after) :
    Resolved (Arrives s rs.length t after) (fun _ => True) (advance s) := by
  obtain ⟨-, hFront, hQueue⟩ := TokenStream.pullSignificant_spec hFrom hLeads
  have hNotes : Resolves placed (rs.forM note) := .forM fun r _ => placed_note r
  rw [advance_eq hFrom hLeads]
  -- the check, the notes and the check of lines stay in place, one after the other
  refine (placed_of_standing standing_checkConsumed s).bind (fun _ m hm => ?_) fun _ _ => trivial
  let read : Session := { m with
    consumed := m.token.offset + m.token.raw.length, stream := s.stream.pullSignificant.2 }
  show Resolved _ _ ((rs.forM note >>= _) read)
  refine (hNotes read).bind (fun _ n hn => ?_) fun _ _ => trivial
  show Resolved _ _ (checkLinesBefore t.line { n with previous := n.token, token := t })
  refine (placed_of_standing (standing_checkLinesBefore t.line) _).imp (fun u hu => ?_)
    fun _ _ => trivial
  have hStream : u.stream = s.stream.pullSignificant.2 := hu.stream.trans hn.stream
  refine ⟨hu.token, hu.previous.trans (hn.token.trans hm.token), hStream ▸ hFront, hStream ▸ hQueue,
    hu.sourceLength.trans (hn.sourceLength.trans hm.sourceLength), ?_⟩
  rw [show u.consumed = m.token.offset + m.token.raw.length from hu.consumed.trans hn.consumed,
    hm.token]

end

end Parse

end ScriptLint
