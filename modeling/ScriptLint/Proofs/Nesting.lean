import ScriptLint.Lint
import ScriptLint.Proofs.Grammar.Steady

/-!
# The guard against deep nesting

Statements, expressions, binding targets and `new` expressions count as levels, and a run that goes
below the deepest level allowed stops with an unrecoverable error. The superclass of a class is
parsed without a level of its own.

- `unguarded`: the grammar without the guard, over arbitrary parsers for what lies below its levels.
- `NestsBeyond`: a program whose unguarded run depends on what lies below a level.
- `guarding`: the congruence that relates a guarded parser with an unguarded one. The two run alike
  until the guard strikes; `Link` says what is known of the unguarded run after that.
- `nesting_guard`: the guard strikes exactly in the programs that nest beyond its limit.
-/

namespace ScriptLint

/-! ## Journals -/

namespace Journal

/-- The journal ended with the only unrecoverable error in it, unless it had been halted before. -/
def Struck (k : Journal) : Prop :=
  ∃ (j : Journal) (last : Diagnostic), k = j.halt last ∧ last.code =
    "E041" ∧ ∀ d ∈ j.kept, d.code ≠ "E041"

/-- A journal that was struck is halted. -/
theorem Struck.halted {k : Journal} : k.Struck → k.halted := by
  rintro ⟨j, last, rfl, -⟩
  exact j.halted_halt last

end Journal

/-! ## After the end -/

/-- What is done after the end of a run leaves the source alone and adds nothing to a halted
journal. -/
def aftermath : Contract where
  Goes s t := t.sourceLength = s.sourceLength ∧ (s.journal.halted → t.journal = s.journal)
  Stops s t := t.sourceLength = s.sourceLength ∧ (s.journal.halted → t.journal = s.journal)
  refl _ := ⟨rfl, fun _ => rfl⟩
  trans h h' := ⟨h'.1.trans h.1, fun hs => (h'.2 (h.2 hs ▸ hs)).trans (h.2 hs)⟩
  stop h h' := ⟨h'.1.trans h.1, fun hs => (h'.2 (h.2 hs ▸ hs)).trans (h.2 hs)⟩

namespace Parse

/-- Nothing is added to a halted journal. -/
theorem aftermath_emit (d : Diagnostic) : aftermath.Keeps (emit d) := by
  intro s
  unfold emit
  dsimp only
  split
  · next hKept =>
    refine ⟨rfl, fun hs => ?_⟩
    simp [Journal.keeps, hs] at hKept
  · exact ⟨rfl, fun hs => Journal.record_of_halted hs d⟩

theorem aftermath_flushScopes : aftermath.Keeps flushScopes := by
  refine aftermath.read fun s => aftermath.bind
    (aftermath.modify fun _ => ⟨rfl, fun _ => rfl⟩) fun _ => ?_
  exact aftermath.forM fun f _ => aftermath_emit _

theorem aftermath_closeFunction (line column : Nat) :
    aftermath.Keeps (Grammar.closeFunction line column) := by
  refine aftermath.readAt fun s => aftermath.setAt ⟨rfl, fun _ => rfl⟩ ?_
  exact aftermath.bind (aftermath.forM fun f _ => aftermath_emit _) fun _ => aftermath_flushScopes

theorem aftermath_checkLinesBefore (line : Nat) : aftermath.Keeps (checkLinesBefore line) := by
  have hLines (limit line : Nat) (lengths : List Nat) :
      aftermath.Keeps (warnLongLines limit line lengths) := by
    induction lengths generalizing line with
    | nil => exact aftermath.pure ()
    | cons length rest ih =>
      exact aftermath.ite _ (aftermath.bind (aftermath_emit _) fun _ => ih _) (ih _)
  refine aftermath.readAt fun s => aftermath.setAt ⟨rfl, fun _ => rfl⟩ ?_
  split
  · exact hLines _ _ _
  · exact aftermath.pure ()

end Parse

/-! ## Sound sessions -/

namespace Session

/-- Nothing unrecoverable was found. -/
structure Sound (s : Session) : Prop where
  calm : s.scopes.Calm
  kept : ∀ d ∈ s.journal.kept, d.code ≠ "E041"

/-- Steady changes keep a session sound. -/
theorem Sound.steady {s t : Session} (hs : s.Sound) (h : s.Steady t) : t.Sound where
  calm := hs.calm.evolves h.scopes
  kept d hd := (h.journal hs.calm d hd).elim (hs.kept d) id

/-- A sound session within so many levels of a source of the length given. -/
structure AtLevel (length k : Nat) (s : Session) : Prop extends Sound s where
  nesting : s.nesting = k
  length : s.sourceLength = length

end Session

namespace Grammar

open Parse

variable {α β : Type} {length k : Nat}

/-! ## Two runs, one of them cut off -/

/-- Changes made after the end of a run. -/
def Closes (f : Session → Session) : Prop :=
  ∀ t, (f t).sourceLength = t.sourceLength ∧ (t.journal.halted → (f t).journal = t.journal)

/-- What is known of the sessions of two runs once the first was cut off. -/
structure Cutoff where
  Ended : Session → Prop
  /-- How the second run is left beside the first, if anything is known of it. -/
  beside : Option (Session → Session → Prop)
  close {f : Session → Session} {t : Session} : Closes f → Ended t → Ended (f t)
  closeBeside {f : Session → Session} {t u : Session} :
    Closes f → ∀ R ∈ beside, R t u → R (f t) (f u)

namespace Cutoff

variable (mark : Nat)

theorem ended_close {f : Session → Session} {t : Session} (hf : Closes f) (ht : t.journal.Struck) :
    (f t).journal.Struck :=
  (hf t).2 ht.halted ▸ ht

/-- The guard struck; the second run left a mark in the place of the length of the source. -/
def struckMarked : Cutoff where
  Ended t := t.journal.Struck
  beside := some fun _ u => u.sourceLength = mark
  close := ended_close
  closeBeside hf _ hR h := by
    obtain rfl := Option.some.inj hR
    exact (hf _).1.trans h

/-- The first run left a mark; nothing is known of the second. -/
def marked : Cutoff where
  Ended t := t.sourceLength = mark
  beside := none
  close hf h := (hf _).1.trans h
  closeBeside _ _ hR := nomatch hR

end Cutoff

variable (length k) in
/-- The results of two runs: they are the same, or the first run was cut off. -/
def Guarded (cut : Cutoff) (r r' : EStateM.Result Abort Session α) : Prop :=
  (r' = r ∧ Settles (Session.AtLevel length k) (Session.AtLevel length k) r) ∨
    ∃ t, r = .error .halt t ∧ cut.Ended t ∧ ∀ R ∈ cut.beside, ∃ u, r' = .error .halt u ∧ R t u

variable {cut : Cutoff} {p q p' q' : Parse α}

/-- Two runs that are alike so far go on alike, or one is already cut off. -/
theorem Guarded.bind {s : Session} {f g : α → Parse β} (h : Guarded length k cut (p s) (q s))
    (hf : ∀ a t, t.AtLevel length k → Guarded length k cut (f a t) (g a t)) :
    Guarded length k cut ((p >>= f) s) ((q >>= g) s) := by
  rcases h with ⟨hEq, hLevel⟩ | ⟨t, hStop, hEnded, hBeside⟩
  · cases hp : p s with
    | ok a t =>
      rw [hp] at hEq hLevel
      rw [bind_of_ok hp, bind_of_ok hEq]
      exact hf a t hLevel
    | error e t =>
      rw [hp] at hEq hLevel
      rw [bind_of_error hp, bind_of_error hEq]
      refine .inl ⟨rfl, ?_⟩
      cases e <;> exact hLevel
  · rw [bind_of_error hStop]
    refine .inr ⟨t, rfl, hEnded, fun R hR => ?_⟩
    obtain ⟨u, hu, hHolds⟩ := hBeside R hR
    exact ⟨u, bind_of_error hu, hHolds⟩

/-- Closing what was opened leaves both as they were. -/
theorem Guarded.ensuring {k' : Nat} {s : Session} {after : Session → Session}
    (h : Guarded length k cut (p s) (q s)) (hClose : Closes after)
    (hLevel : ∀ t, t.AtLevel length k → (after t).AtLevel length k') :
    Guarded length k' cut (p.ensuring after s) (q.ensuring after s) := by
  rcases h with ⟨hEq, hSettles⟩ | ⟨t, hStop, hEnded, hBeside⟩
  · refine .inl ⟨?_, hSettles.ensuring hLevel hLevel⟩
    rw [Parse.ensuring, Parse.ensuring, hEq]
  · rw [ensuring_of_error hStop]
    refine .inr ⟨_, rfl, cut.close hClose hEnded, fun R hR => ?_⟩
    obtain ⟨u, hu, hHolds⟩ := hBeside R hR
    exact ⟨_, ensuring_of_error hu, cut.closeBeside hClose R hR hHolds⟩

/-- A run that is cut off is not recovered. -/
theorem Guarded.recover {s : Session} (h : Guarded length k cut (p s) (q s))
    (h' : ∀ t, t.AtLevel length k → Guarded length k cut (p' t) (q' t)) :
    Guarded length k cut (p.recover p' s) (q.recover q' s) := by
  rcases h with ⟨hEq, hLevel⟩ | ⟨t, hStop, hEnded, hBeside⟩
  · cases hp : p s with
    | ok a t =>
      rw [hp] at hEq hLevel
      rw [recover_of_ok hp, recover_of_ok hEq]
      exact .inl ⟨rfl, hLevel⟩
    | error e t =>
      rw [hp] at hEq hLevel
      cases e with
      | badSyntax =>
        rw [recover_of_badSyntax hp, recover_of_badSyntax hEq]
        exact h' t hLevel
      | halt =>
        rw [recover_of_halt hp, recover_of_halt hEq]
        exact .inl ⟨rfl, hLevel⟩
  · rw [recover_of_halt hStop]
    refine .inr ⟨t, rfl, hEnded, fun R hR => ?_⟩
    obtain ⟨u, hu, hHolds⟩ := hBeside R hR
    exact ⟨u, recover_of_halt hu, hHolds⟩

/-- What keeps a session at its level runs alike with and without the guard. -/
theorem Guarded.alike {s : Session}
    (h : Settles (Session.AtLevel length k) (Session.AtLevel length k) (p s)) :
    Guarded length k cut (p s) (p s) :=
  .inl ⟨rfl, h⟩

/-- Steady changes keep the level. -/
theorem atLevel_of_steady {s t : Session} (hs : s.AtLevel length k) (h : s.Steady t) :
    t.AtLevel length k :=
  ⟨hs.toSound.steady h, h.nesting.trans hs.nesting, h.sourceLength.trans hs.length⟩

theorem settles_of_steady {s : Session} (hs : s.AtLevel length k) (h : steady.Keeps p) :
    Settles (Session.AtLevel length k) (Session.AtLevel length k) (p s) :=
  (h s).imp (fun _ => atLevel_of_steady hs) fun _ => atLevel_of_steady hs

theorem atLevel_exit {s : Session} (hs : s.AtLevel length k) :
    Session.AtLevel length k { s with scopes := s.scopes.exit s.layers } :=
  ⟨⟨hs.calm.exit s.layers, hs.kept⟩, hs.nesting, hs.length⟩

/-- Functions are closed in both runs, also after one was cut off. -/
theorem Guarded.insideFunction {kind : FunctionKind} {name : Option String} {line column : Nat}
    {s : Session} (h : Guarded length k cut (p (withFunction s kind name line column))
      (q (withFunction s kind name line column))) :
    Guarded length k cut (Grammar.insideFunction kind name line column p s)
      (Grammar.insideFunction kind name line column q s) := by
  have hClose (t : Session) (ht : t.AtLevel length k) :
      Settles (Session.AtLevel length k) (Session.AtLevel length k)
        (closeFunction line column t) := by
    have hClosed : (withoutFunction t).AtLevel length k :=
      ⟨⟨ht.calm.exit t.layers, ht.kept⟩, ht.nesting, ht.length⟩
    exact (closeFunction_ends line column t).imp (fun _ => atLevel_of_steady hClosed)
      fun _ => atLevel_of_steady hClosed
  rcases h with ⟨hEq, hSettles⟩ | ⟨t, hStop, hEnded, hBeside⟩
  · refine .inl ⟨?_, hSettles.insideFunction hClose hClose fun _ => id⟩
    cases hp : p (withFunction s kind name line column) with
    | ok a t =>
      rw [hp] at hEq
      rw [insideFunction_of_ok hp, insideFunction_of_ok hEq]
    | error e t =>
      rw [hp] at hEq
      rw [insideFunction_of_error hp, insideFunction_of_error hEq]
  · -- the first run has stopped: closing the function adds nothing to its journal
    rw [insideFunction_of_error hStop]
    have hAfter : Closes fun t => left (closeFunction line column t) :=
      fun t => (aftermath_closeFunction line column t).left
    refine .inr ⟨_, rfl, cut.close hAfter hEnded, fun R hR => ?_⟩
    obtain ⟨u, hu, hHolds⟩ := hBeside R hR
    exact ⟨_, insideFunction_of_error hu, cut.closeBeside hAfter R hR hHolds⟩

variable (length k cut p q) in
/-- From a sound session at the level, the guard changes nothing but where the run stops. -/
def Guards : Prop := ∀ s : Session, s.AtLevel length k → Guarded length k cut (p s) (q s)

namespace Guards

theorem pure (a : α) : Guards length k cut (pure a) (pure a) := fun _ hs => .alike hs

theorem bind {f g : α → Parse β} (h : Guards length k cut p q)
    (hf : ∀ a, Guards length k cut (f a) (g a)) : Guards length k cut (p >>= f) (q >>= g) :=
  fun s hs => (h s hs).bind fun a t ht => hf a t ht

/-- A steady parser is like itself. -/
theorem of_steady (h : steady.Keeps p) : Guards length k cut p p :=
  fun _ hs => .alike (settles_of_steady hs h)

theorem ite (c : Prop) [Decidable c] (h : Guards length k cut p q)
    (h' : Guards length k cut p' q') :
    Guards length k cut (if c then p else p') (if c then q else q') := by
  split
  · exact h
  · exact h'

theorem prologueRound (h : ∀ t, Guards length k cut (prologueStatement t) (prologueStatement t)) :
    Guards length k cut (Grammar.prologueRound ()) (Grammar.prologueRound ()) := by
  refine bind (of_steady (steady.read fun _ => steady.pure _)) fun t => ite _ (pure _) ?_
  refine bind (of_steady (steady_passable.peek 0)) fun _ => ite _ (pure _) ?_
  exact bind (h t) fun _ => pure _

/-- By induction on the rounds; both runs have the same number of them. -/
theorem loop {f g : α → Parse (Round α)} (h : ∀ a, Guards length k cut (f a) (g a)) (a : α) :
    Guards length k cut (Parse.loop f a) (Parse.loop g a) := by
  have hRounds (n : Nat) (a : α) : Guards length k cut (rounds f n a) (rounds g n a) := by
    induction n generalizing a with
    | zero => exact fun s hs => .inl ⟨rfl, hs⟩
    | succ n ih =>
      refine bind (h a) fun r => ?_
      cases r with
      | again a => exact ih a
      | done a => exact pure a
  exact fun s hs => hRounds s.budget a s hs

/-- What is alike one level down is alike when it recurses. -/
theorem recursive {f g : Parse α → Parse α}
    (h : ∀ p q, Guards length k cut p q → Guards length k cut (f p) (g q)) :
    Guards length k cut (Parse.recursive f) (Parse.recursive g) := by
  have hUnfolded (n : Nat) : Guards length k cut (unfolded f n) (unfolded g n) := by
    induction n with
    | zero => exact fun s hs => .inl ⟨rfl, hs⟩
    | succ n ih => exact h _ _ ih
  exact fun s hs => hUnfolded s.budget s hs

theorem withFrame (kind : Scope.FrameKind) (h : Guards length k cut p q) :
    Guards length k cut (Grammar.withFrame kind p) (Grammar.withFrame kind q) :=
  fun s hs => (h { s with scopes := s.scopes.enter kind }
    ⟨⟨hs.calm, hs.kept⟩, hs.nesting, hs.length⟩).ensuring (fun _ => ⟨rfl, fun _ => rfl⟩)
      fun _ => atLevel_exit

theorem insideBlock (opener : Token) (h : Guards length k cut p q) :
    Guards length k cut (Grammar.insideBlock opener p) (Grammar.insideBlock opener q) := by
  have hEnter : Guards length k cut (enterBlock opener) (enterBlock opener) := by
    intro s hs
    obtain ⟨j, hj, hRun⟩ := enterBlock_run opener s
    have hEntered :
        Session.AtLevel length k { s with metrics := s.metrics.enterBlock, journal := j } :=
      ⟨⟨hs.calm, fun d hd => (hj d hd).elim (hs.kept d) id⟩, hs.nesting, hs.length⟩
    rcases hRun with hRun | hRun <;> rw [hRun] <;> exact .inl ⟨rfl, hEntered⟩
  refine bind hEnter fun _ s hs => (withFrame .block h s hs).ensuring
    (fun _ => ⟨rfl, fun _ => rfl⟩) ?_
  exact fun t ht => ⟨⟨ht.calm, ht.kept⟩, ht.nesting, ht.length⟩

end Guards

/-- The guard changes nothing but where a run stops. -/
def guarding (length k : Nat) (cut : Cutoff) : Congruence where
  hides _ := False
  Rel p q := Guards length k cut p q
  Parts p q := Guards length k cut p q
  pure := .pure
  bind := .bind
  read h s hs := h s s (.refl _ s) s hs
  warnAt _ line column h :=
    .of_steady (steady_passable.warnAt line column (Finding.isOrdinary_of_isLocal h))
  governs_ne := governs_ne_of_false
  quiet _ _ := False.elim
  loud _ _ := False.elim
  step h := .of_steady (steady_steps.step h)
  prologueRound := .prologueRound
  loop := .loop
  recursive := .recursive
  recover h h' s hs := (h s hs).recover h'
  clearingHint h s hs := (h s hs).ensuring (fun _ => ⟨rfl, fun _ => rfl⟩)
    fun _ ht => ⟨⟨ht.calm, ht.kept⟩, ht.nesting, ht.length⟩
  withNoIn noIn h s hs := (h { s with noIn } ⟨⟨hs.calm, hs.kept⟩, hs.nesting, hs.length⟩).ensuring
    (fun _ => ⟨rfl, fun _ => rfl⟩) fun _ ht => ⟨⟨ht.calm, ht.kept⟩, ht.nesting, ht.length⟩
  withFrame := .withFrame
  insideBlock := .insideBlock
  insideLoop h s hs :=
    (h (withLoops (· + 1) s) ⟨⟨hs.calm, hs.kept⟩, hs.nesting, hs.length⟩).ensuring
    (fun _ => ⟨rfl, fun _ => rfl⟩) fun _ ht => ⟨⟨ht.calm, ht.kept⟩, ht.nesting, ht.length⟩
  parts h := h
  bindParts := .bind
  partsBind := .bind
  openOverlay hf _ hs := hf () _ ⟨⟨hs.calm, hs.kept⟩, hs.nesting, hs.length⟩
  insideFunction kind name line column h s hs :=
    .insideFunction
      (h (withFunction s kind name line column) ⟨⟨hs.calm, hs.kept⟩, hs.nesting, hs.length⟩)

/-! ## Levels with and without the guard -/

/-- The same parsers, each of which counts as a level, without the guard. -/
def below (parsers : Nested) : Nested where
  statement := parsers.statement.below
  expression := fun power => (parsers.expression power).below
  binding := fun kind => (parsers.binding kind).below
  construction := parsers.construction.below

/-- The grammar without the guard, down to a level below which the parsers are given. -/
def unguarded (base : Nested) : (count : Nat) → Nested
  | 0 => base
  | count + 1 => below (forms (unguarded base count))

/-- One level further down both runs are one level deeper. -/
theorem Guards.below (h : Guards length (k + 1) cut p q) : Guards length k cut p.below q.below := by
  intro s hs
  have hBelow : Session.AtLevel length (k + 1) { s with nesting := s.nesting + 1 } :=
    ⟨⟨hs.calm, hs.kept⟩, congrArg (· + 1) hs.nesting, hs.length⟩
  refine (h _ hBelow).ensuring (fun _ => ⟨rfl, fun _ => rfl⟩) fun t ht => ?_
  exact ⟨⟨ht.calm, ht.kept⟩, congrArg (· - 1) ht.nesting, ht.length⟩

/-- Above the deepest level the guard lets a parser through. -/
theorem deeper_eq {s : Session} (h : s.nesting < maxNesting) (p : Parse α) :
    p.deeper s = p.below s := by
  show (if s.nesting < maxNesting then p.below else tooDeep) s = _
  rw [if_pos h]

/-- At the deepest level it does not. -/
theorem deeper_eq_tooDeep {s : Session} (h : s.nesting = maxNesting) (p : Parse α) :
    p.deeper s = tooDeep s := by
  show (if s.nesting < maxNesting then p.below else tooDeep) s = _
  rw [if_neg (by rw [h]; exact Nat.lt_irrefl _)]

/-- The guard does not strike above the limit. -/
theorem Guards.deeper_left (hk : k < maxNesting) (h : Guards length k cut p.below q) :
    Guards length k cut p.deeper q := by
  intro s hs
  rw [deeper_eq (hs.nesting ▸ hk)]
  exact h s hs

/-- Where the guard strikes, the unrecoverable error is the only one in the journal. -/
theorem struck_tooDeep {s : Session} (hs : s.AtLevel length k) :
    ∃ t, (tooDeep s : EStateM.Result Abort Session α) = .error .halt t ∧ t.journal.Struck :=
  ⟨_, rfl, s.journal, _, rfl, rfl, hs.kept⟩

/-- Parsers that stop the run and leave a mark. -/
def markedEnd (mark : Nat) : Nested where
  statement := fun s => .error .halt { s with sourceLength := mark }
  expression := fun _ s => .error .halt { s with sourceLength := mark }
  binding := fun _ s => .error .halt { s with sourceLength := mark }
  construction := fun s => .error .halt { s with sourceLength := mark }

/-- By induction on the levels left: above the deepest one the guard lets everything through. -/
theorem guarding_marked (length mark n : Nat) : ∀ k, k + n = maxNesting →
    (guarding length k (.struckMarked mark)).Nested (levels n) (unguarded (markedEnd mark) n) := by
  induction n with
  | zero =>
    intro k _
    have hMarked {α : Type} : Guards length k (.struckMarked mark) (tooDeep : Parse α)
        fun s => .error .halt { s with sourceLength := mark } := by
      intro s hs
      obtain ⟨t, ht, hStruck⟩ := struck_tooDeep (α := α) hs
      refine .inr ⟨t, ht, hStruck, fun R hR => ⟨_, rfl, ?_⟩⟩
      obtain rfl := Option.some.inj hR
      rfl
    exact ⟨hMarked, fun _ => hMarked, fun _ => hMarked, hMarked⟩
  | succ n ih =>
    intro k hk
    have hBelow := (ih (k + 1) (by omega)).forms
    have hAbove : k < maxNesting := by omega
    exact ⟨hBelow.statement.below.deeper_left hAbove,
      fun power => (hBelow.expression power).below.deeper_left hAbove,
      fun kind => (hBelow.binding kind).below.deeper_left hAbove,
      hBelow.construction.below.deeper_left hAbove⟩

/-- By induction on the levels left: until the first run leaves its mark, no base matters. -/
theorem guarding_unguarded (length mark : Nat) (base : Nested) (n : Nat) : ∀ k,
    (guarding length k (.marked mark)).Nested (unguarded (markedEnd mark) n)
    (unguarded base n) := by
  induction n with
  | zero =>
    intro k
    have hMarked {α : Type} {q : Parse α} : Guards length k (.marked mark)
        (fun s => .error .halt { s with sourceLength := mark }) q :=
      fun s _ => .inr ⟨_, rfl, rfl, fun _ hR => nomatch hR⟩
    exact ⟨hMarked, fun _ => hMarked, fun _ => hMarked, hMarked⟩
  | succ n ih =>
    intro k
    have hBelow := (ih (k + 1)).forms
    exact ⟨hBelow.statement.below, fun power => (hBelow.expression power).below,
      fun kind => (hBelow.binding kind).below, hBelow.construction.below⟩

end Grammar

/-! ## Runs -/

namespace Parse

open Grammar

theorem guards_programOver {length : Nat} {cut : Cutoff} {inner inner' : Nested}
    (h : (guarding length 0 cut).Nested inner inner') (problems : List Setting.Problem) :
    Guards length 0 cut (programOver inner problems) (programOver inner' problems) := by
  refine .bind (.of_steady (steady_passable.reportProblems problems 0 0)) fun _ => ?_
  refine .bind (.of_steady steady_passable.advance) fun _ => ?_
  refine .bind (Congruence.Nested.prologue (K := guarding length 0 cut)) fun _ => ?_
  exact (guarding length 0 cut).discard (h.statementList .program)

/-- The last checks of a run. -/
def lastChecks (s : Session) : Parse Unit := do
  checkLinesBefore (s.checkedLines + s.uncheckedLines.length + 1)
  flushScopes

/-- The end of a run settles the names and makes the last checks, whatever becomes of them. -/
theorem finish_eq (s : Session) : finish s = .ok (s.scopes.finish s.layers).1
    (left (lastChecks s { s with scopes := (s.scopes.finish s.layers).2 })) := by
  let settled := { s with scopes := (s.scopes.finish s.layers).2 }
  show (discard (outcome (lastChecks s)) >>= fun _ => pure _) settled = _
  cases hl : lastChecks s settled with
  | ok u t => exact bind_of_ok (bind_of_ok (outcome_of_ok hl))
  | error e t => exact bind_of_ok (bind_of_ok (outcome_of_error hl))

/-- A run ends with the end of a run, whatever became of the program. -/
theorem run_eq (problems : List Setting.Problem) (s : Session) :
    run problems s = finish (left (program problems s)) := by
  cases hr : program problems s with
  | ok v t => exact bind_of_ok (bind_of_ok (outcome_of_ok hr))
  | error e t => exact bind_of_ok (bind_of_ok (outcome_of_error hr))

/-- The end of a run adds nothing to a halted journal, and nothing unrecoverable to any. -/
theorem finish_run (s : Session) : ∃ names u, finish s = .ok names u ∧
    (s.journal.halted → u.journal = s.journal) ∧
    (s.Sound → ∀ d ∈ u.journal.kept, d.code ≠ "E041") := by
  let settled := { s with scopes := (s.scopes.finish s.layers).2 }
  have hAftermath : aftermath.Keeps (lastChecks s) :=
    aftermath.bind (aftermath_checkLinesBefore _) fun _ => aftermath_flushScopes
  have hSteady : steady.Keeps (lastChecks s) :=
    steady.bind (steady_passable.checkLinesBefore _) fun _ => steady_flushScopes
  refine ⟨(s.scopes.finish s.layers).1, left (lastChecks s settled), finish_eq s, ?_, fun hs => ?_⟩
  · exact (hAftermath settled).left.2
  · have hSettled : settled.Sound := ⟨hs.calm.finish s.layers, hs.kept⟩
    exact (hSettled.steady (hSteady settled).left).kept

end Parse

open Grammar in
/-- The unguarded run of a program depends on what lies below the level. -/
def NestsBeyond (count : Nat) (source : String) (options : Options)
    (globals : Option Predefined.Globals) : Prop :=
  ∃ base base' : Nested,
    Parse.programOver (unguarded base count) (Setting.Layers.ofOptions options).2
        (.start source options globals) ≠
      Parse.programOver (unguarded base' count) (Setting.Layers.ofOptions options).2
        (.start source options globals)

/-- A run either ends sound or is stopped by the guard; it is stopped exactly if the program nests
beyond the deepest level. -/
theorem Parse.program_cases (source : String) (options : Options)
    (globals : Option Predefined.Globals) :
    let run := Parse.program (Setting.Layers.ofOptions options).2 (.start source options globals)
    (¬ NestsBeyond maxNesting source options globals ∧
    Parse.Settles Session.Sound Session.Sound run) ∨
    (NestsBeyond maxNesting source options globals ∧
      ∃ t, run = .error .halt t ∧ t.journal.Struck) := by
  intro run
  let start := Session.start source options globals
  let problems := (Setting.Layers.ofOptions options).2
  have hStart : start.AtLevel source.length 0 :=
    ⟨⟨fun _ hf => absurd hf List.not_mem_nil, fun _ hd => absurd hd List.not_mem_nil⟩, rfl, rfl⟩
  -- a probe leaves a mark where the guard would strike
  let probe (base : Nested) := Parse.programOver (Grammar.unguarded base maxNesting) problems start
  have hGuard (mark : Nat) : Grammar.Guarded source.length 0 (.struckMarked mark) run
      (probe (Grammar.markedEnd mark)) :=
    Parse.guards_programOver
      (Grammar.guarding_marked source.length mark maxNesting 0 (Nat.zero_add _))
      problems start hStart
  have hUnmarked {mark : Nat} (hMark : source.length < mark)
      (hEq : probe (Grammar.markedEnd mark) = run)
      (hLevel : Parse.Settles (Session.AtLevel source.length 0)
        (Session.AtLevel source.length 0) run)
      (base : Nested) : probe base = run := by
    -- a run with a mark in its length would differ from the one without
    rcases Parse.guards_programOver
      (Grammar.guarding_unguarded source.length mark base maxNesting 0) problems start hStart with
      ⟨hBase, -⟩ | ⟨t, hStop, hEnded, -⟩
    · exact hBase.trans hEq
    · have hStopped : run = .error .halt t := hEq.symm.trans hStop
      rw [hStopped] at hLevel
      exact absurd (hLevel.length.symm.trans hEnded) (Nat.ne_of_lt hMark)
  rcases hGuard (source.length + 1) with ⟨hEq, hLevel⟩ | ⟨t, hStop, hStruck, hBeside⟩
  · refine .inl ⟨?_, hLevel.imp (fun _ => (·.toSound)) fun _ => (·.toSound)⟩
    rintro ⟨base, base', hNe⟩
    have hAny := hUnmarked (Nat.lt_succ_self _) hEq hLevel
    exact hNe ((hAny base).trans (hAny base').symm)
  · refine .inr ⟨⟨Grammar.markedEnd (source.length + 1), Grammar.markedEnd (source.length + 2), ?_⟩,
      t, hStop, hStruck⟩
    obtain ⟨u, hu, hMark⟩ := hBeside _ rfl
    intro hSame
    -- two marks are left at one place only if they are the same
    rcases hGuard (source.length + 2) with ⟨hEq, hLevel⟩ | ⟨_, _, _, hBeside'⟩
    · have hRun := hUnmarked (by omega) hEq hLevel (Grammar.markedEnd (source.length + 1))
      rw [← hRun, hu] at hLevel
      have hLength : source.length + 1 = source.length := hMark.symm.trans hLevel.length
      omega
    · obtain ⟨u', hu', hMark'⟩ := hBeside' _ rfl
      have hLeft : u = u' := (EStateM.Result.error.inj (hu.symm.trans (hSame.trans hu'))).2
      have hMarks : source.length + 1 = source.length + 2 := hMark.symm.trans (hLeft ▸ hMark')
      omega

/-- The report shows the journal that the end of the run leaves, which adds nothing to a halted one
and nothing unrecoverable to a sound one. -/
theorem lint_diagnostics (source : String) (options : Options)
    (globals : Option Predefined.Globals) :
    let t := Parse.left
      (Parse.program (Setting.Layers.ofOptions options).2 (.start source options globals))
    ∃ j : Journal, (lint source options globals).diagnostics = j.diagnostics ∧
      (t.journal.halted → j = t.journal) ∧ (t.Sound → ∀ d ∈ j.diagnostics, d.code ≠ "E041") := by
  intro t
  obtain ⟨names, u, hFinish, hHalted, hSound⟩ := Parse.finish_run t
  have hRun : Parse.run (Setting.Layers.ofOptions options).2 (.start source options globals) =
      .ok names u := (Parse.run_eq _ _).trans hFinish
  refine ⟨u.journal, ?_, hHalted, fun hs d hd => hSound hs d (List.mem_reverse.mp hd)⟩
  rw [lint, hRun]
  rfl

end ScriptLint
