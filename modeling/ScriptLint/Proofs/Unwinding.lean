import Mathlib.Logic.Function.Iterate
import Mathlib.Logic.Relation
import ScriptLint.Proofs.Grammar.Steady

/-!
# A halt unwinds the run

With `passfail` on, the first diagnostic that is kept halts the journal and stops the run. A run
that stops leaves whatever was opened and does nothing else. There is one exception: a function that
was given up on is closed all the same, and if it is what the closing reports that halts the
journal, the run goes on as after any statement that was given up on.

- `Session.Moves`, `Session.Enters`, `Session.Leaves`: the changes that runs are made of.
- `Session.GivesUp`: a failing step, after which everything opened is left.
- `Session.Masked`: a function was given up on, closing it halted the journal, and the run went on.
- `Session.Withdrawn`: what a run that stops still does.
- `halt_unwinds`: a journal is halted in a run that goes on exactly where a halt was masked.
-/

namespace ScriptLint

open Parse Grammar Relation

/-! ## The halted journal -/

/-- Only diagnostics are recorded and findings forwarded; the flag says whether that halts the
journal. -/
def Session.Reports (halts : Bool) (s t : Session) : Prop :=
  ∃ journal findings, t = { s with journal, scopes := { s.scopes with findings } } ∧
    journal.halted = (s.journal.halted || halts) ∧ (s.journal.halted → journal = s.journal)

/-- The contract to do nothing but report, where only the journal stops the run. -/
def reporting : Contract where
  Goes := Session.Reports false
  Stops := Session.Reports true
  refl s := ⟨s.journal, s.scopes.findings, rfl, (Bool.or_false _).symm, fun _ => rfl⟩
  trans := by
    rintro s t u ⟨j, f, rfl, hj, hSame⟩ ⟨k, g, rfl, hk, hSame'⟩
    refine ⟨k, g, rfl, hk.trans (by rw [hj, Bool.or_false, Bool.or_false]), fun hs => ?_⟩
    exact (hSame' (hSame hs ▸ hs)).trans (hSame hs)
  stop := by
    rintro s t u ⟨j, f, rfl, hj, hSame⟩ ⟨k, g, rfl, hk, hSame'⟩
    refine ⟨k, g, rfl, hk.trans (by rw [hj, Bool.or_false]), fun hs => ?_⟩
    exact (hSame' (hSame hs ▸ hs)).trans (hSame hs)

/-- The contract to halt the journal exactly when the run stops. -/
def halting : Contract where
  Goes s t := t.journal.halted = s.journal.halted
  Stops _ t := t.journal.halted
  refl _ := rfl
  trans h h' := h'.trans h
  stop _ h := h

namespace Parse

/-- A diagnostic halts the journal if it stops the run, and only then. -/
theorem reporting_emit (d : Diagnostic) : Resolves reporting (emit d) := by
  intro s
  unfold emit
  dsimp only
  -- a diagnostic that is kept stops the run if `passfail` is on
  split
  · next hKept =>
    have hOpen : s.journal.halted = false := by
      cases hs : s.journal.halted with
      | false => rfl
      | true => simp [Journal.keeps, hs] at hKept
    refine ⟨_, _, rfl, ?_, fun hs => ?_⟩
    · rw [Bool.or_true]
      exact Journal.halted_halt _ _
    · rw [hOpen] at hs
      cases hs
  · refine ⟨_, _, rfl, ?_, fun hs => Journal.record_of_halted hs d⟩
    rw [Bool.or_false]
    unfold Journal.record
    split <;> rfl

/-- So do those that the scopes had ready. -/
theorem reporting_flushScopes : Resolves reporting flushScopes := by
  refine .read fun s => .bind (.modify fun s => ?_) fun _ => .forM fun f _ => reporting_emit _
  exact ⟨s.journal, [], rfl, (Bool.or_false _).symm, fun _ => rfl⟩

/-- A parser that only reports halts the journal exactly when it stops. -/
theorem halting_of_reporting {α : Type} {p : Parse α} (h : Resolves reporting p) :
    Resolves halting p := by
  refine fun s => (h s).imp ?_ ?_
  · rintro t ⟨j, f, rfl, hj, -⟩
    exact hj.trans (Bool.or_false _)
  · rintro t ⟨j, f, rfl, hj, -⟩
    exact hj.trans (Bool.or_true _)

/-- So does entering a block. -/
theorem halting_enterBlock (opener : Token) : Resolves halting (enterBlock opener) := by
  refine .bind (.modify fun _ => rfl) fun _ => .read fun s => ?_
  exact .ite _ (halting_of_reporting (reporting_emit _)) (.pure ())

end Parse

/-- The steps of the grammar halt the journal exactly when they stop the run. -/
theorem halting_steps : halting.Steppable where
  emit _ := (halting_of_reporting (reporting_emit _)).keeps
  moved := by
    rintro s t ⟨_, _, _, _, _, _, _, rfl⟩
    rfl
  layers _ := rfl
  scopes _ := rfl
  ignores h := h.halted
  flushScopes := (halting_of_reporting reporting_flushScopes).keeps
  count _ := halting.modify fun _ => rfl
  setHint _ := halting.modify fun _ => rfl
  makeStrict := halting.modify fun _ => rfl

/-- Closing a function closes what it opened and reports. -/
theorem Parse.closeFunction_reports (line column : Nat) (s : Session) :
    Resolved ((withoutFunction s).Reports false) ((withoutFunction s).Reports true)
      (closeFunction line column s) := by
  have hReports : Resolves reporting (do
      (metricFindings s.layers s.metrics.current).forM fun f => warnAt f line column
      flushScopes) :=
    .bind (.forM fun f _ => reporting_emit _) fun _ => reporting_flushScopes
  exact hReports (withoutFunction s)

/-- A function is closed in any case, also after a stop. -/
theorem Parse.closeFunction_left (line column : Nat) (s : Session) :
    ∃ halts, (withoutFunction s).Reports halts (left (closeFunction line column s)) := by
  have hClosed := closeFunction_reports line column s
  have hAny (halts : Bool) (t : Session) (ht : (withoutFunction s).Reports halts t) :
      ∃ halts, (withoutFunction s).Reports halts t := ⟨halts, ht⟩
  exact (hClosed.imp (hAny false) (hAny true)).settles.left

/-! ## The changes that runs are made of -/

namespace Session

/-- Something is opened. -/
inductive Enters : Session → Session → Prop
  | frame (s : Session) (kind : Scope.FrameKind) : Enters s { s with scopes := s.scopes.enter kind }
  | block {s t : Session} (opener : Token) (h : enterBlock opener s = .ok () t) : Enters s t
  | loop (s : Session) : Enters s (withLoops (· + 1) s)
  | level (s : Session) : Enters s { s with nesting := s.nesting + 1 }
  | noIn (s : Session) (noIn : Bool) : Enters s { s with noIn }
  | function (s : Session) (kind : FunctionKind) (name : Option String) (line column : Nat) :
    Enters s (withFunction s kind name line column)
  | overlay {s t : Session} (h : openOverlay s = .ok () t) : Enters s t

/-- Something that was opened is left, whatever became of what is inside. -/
inductive Leaves : Session → Session → Prop
  | frame (s : Session) : Leaves s { s with scopes := s.scopes.exit s.layers }
  | block (s : Session) : Leaves s { s with metrics := s.metrics.exitBlock }
  | loop (s : Session) : Leaves s (withLoops (· - 1) s)
  | level (s : Session) : Leaves s { s with nesting := s.nesting - 1 }
  | noIn (s : Session) (noIn : Bool) : Leaves s { s with noIn }
  | hint (s : Session) : Leaves s { s with nameHint := none }
  | function (s : Session) (line column : Nat) : Leaves s (left (closeFunction line column s))

/-- A step of the grammar gives up on the statement. -/
def Fails (s t : Session) : Prop :=
  ∃ (α : Type) (p : Parse α), Step p ∧ p s = .error .badSyntax t

/-- One change of a run that goes on. -/
inductive Moves : Session → Session → Prop
  | step {α : Type} {p : Parse α} {a : α} {s t : Session} (h : Step p) (ht : p s = .ok a t) :
    Moves s t
  | peek (s : Session) : Moves s { s with stream := (s.stream.peek 0).2 }
  | fails {s t : Session} (h : s.Fails t) : Moves s t
  | enters {s t : Session} (h : s.Enters t) : Moves s t
  | leaves {s t : Session} (h : s.Leaves t) : Moves s t

/-- A run that goes on leads from one session to the other. -/
def Reaches : Session → Session → Prop := ReflTransGen Moves

/-- What was opened is left, and nothing else is done. -/
def Withdraws : Session → Session → Prop := ReflTransGen Leaves

/-- A run gives up on its statement: a step fails, and what was opened is left. -/
def GivesUp (s t : Session) : Prop :=
  ∃ m m', s.Reaches m ∧ m.Fails m' ∧ m'.Withdraws t

/-- What stops a run: a step, the limits on blocks and functions, the guard against deep nesting. A
loop without rounds left would stop it too. -/
inductive Strikes : Session → Session → Prop
  | step {α : Type} {p : Parse α} {s t : Session} (h : Step p) (ht : p s = .error .halt t) :
    Strikes s t
  | block {s t : Session} (opener : Token) (h : enterBlock opener s = .error .halt t) : Strikes s t
  | function {s t : Session} (line column : Nat)
    (h : closeFunction line column s = .error .halt t) : Strikes s t
  | level {s t : Session} (h : (tooDeep : Parse Unit) s = .error .halt t) : Strikes s t
  | spent (s : Session) : Strikes s s

/-- A function was given up on before the journal was halted, closing it halted the journal, and the
run went on from there. -/
def Masked (s t : Session) : Prop :=
  ∃ (v : Session) (kind : FunctionKind) (name : Option String) (line column : Nat) (w u : Session),
    s.Reaches v ∧ (withFunction v kind name line column).GivesUp w ∧ w.journal.halted = false ∧
      closeFunction line column w = .error .halt u ∧ u.Reaches t

variable {s t u : Session}

/-- What withdraws is a change of the run. -/
theorem Withdraws.reaches (h : s.Withdraws t) : s.Reaches t := 
  ReflTransGen.mono (fun _ _ => Moves.leaves) _ _ h

/-- So is what gives up. -/
theorem GivesUp.reaches : s.GivesUp t → s.Reaches t := by
  rintro ⟨m, m', hm, hFails, hw⟩
  exact (hm.tail (.fails hFails)).trans hw.reaches

/-- A stop that is masked later is masked. -/
theorem Masked.after (h : s.Reaches t) : t.Masked u → s.Masked u := by
  rintro ⟨v, kind, name, line, column, w, x, hv, hRest⟩
  exact ⟨v, kind, name, line, column, w, x, h.trans hv, hRest⟩

/-- One that is masked earlier too. -/
theorem Masked.before (h : t.Reaches u) : s.Masked t → s.Masked u := by
  rintro ⟨v, kind, name, line, column, w, x, hv, hParts, hw, hClose, hx⟩
  exact ⟨v, kind, name, line, column, w, x, hv, hParts, hw, hClose, hx.trans h⟩

/-! ## Which changes halt the journal -/

/-- Opening anything does not stop the run. -/
theorem Enters.halted (h : s.Enters t) : t.journal.halted = s.journal.halted := by
  cases h with
  | block opener h =>
    have hBlock := halting_enterBlock opener s
    rw [h] at hBlock
    exact hBlock
  | overlay h => exact (EStateM.Result.ok.inj h).2 ▸ rfl
  | _ => rfl

/-- Nor does an error of syntax. -/
theorem Fails.halted : s.Fails t → t.journal.halted = s.journal.halted := by
  rintro ⟨α, p, h, ht⟩
  have hStep := halting_steps.step h s
  rw [ht] at hStep
  exact hStep

/-- A halted journal stays halted when something is left. -/
theorem Leaves.halted (h : s.Leaves t) (hs : s.journal.halted) : t.journal.halted := by
  cases h with
  | function line column =>
    obtain ⟨_, _, _, hLeft, -, hSame⟩ := closeFunction_left line column s
    rw [hLeft]
    exact hSame hs ▸ hs
  | _ => exact hs

/-- A halted journal stays so. -/
theorem Moves.halted (h : s.Moves t) (hs : s.journal.halted) : t.journal.halted := by
  cases h with
  | step h ht =>
    have hStep := halting_steps.step h s
    rw [ht] at hStep
    exact hStep.trans hs
  | peek => exact hs
  | fails h => exact h.halted.trans hs
  | enters h => exact h.halted.trans hs
  | leaves h => exact h.halted hs

/-- Over any changes. -/
theorem Reaches.halted (h : s.Reaches t) (hs : s.journal.halted) : t.journal.halted := by
  induction h with
  | refl => exact hs
  | tail _ hMove ih => exact hMove.halted ih

/-- A journal in which a halt was masked is halted. -/
theorem Masked.halted : s.Masked t → t.journal.halted := by
  rintro ⟨v, kind, name, line, column, w, u, -, -, -, hClose, hu⟩
  obtain ⟨j, f, rfl, hj, -⟩ := Resolved.stopped (closeFunction_reports line column w) hClose
  exact hu.halted (hj.trans (Bool.or_true _))

/-- A run leads from one session to the other, and if the journal is halted on the way, a halt was
masked. -/
structure Runs (s t : Session) : Prop where
  reaches : s.Reaches t
  masked : s.journal.halted = false → t.journal.halted → s.Masked t

/-- A run that gives up on its statement; if the journal is halted on the way, a halt was masked. -/
structure Drops (s t : Session) : Prop where
  givesUp : s.GivesUp t
  masked : s.journal.halted = false → t.journal.halted → s.Masked t

/-- A run that stops: it goes on up to some place, is struck there, and leaves what was opened. -/
def Stops (s t : Session) : Prop := ∃ m h, s.Runs m ∧ m.Strikes h ∧ h.Withdraws t

theorem Runs.refl (s : Session) : s.Runs s :=
  ⟨.refl, fun hs ht => by rw [hs] at ht; cases ht⟩

theorem Runs.of_move (h : s.Moves t) (hSame : t.journal.halted = s.journal.halted) : s.Runs t :=
  ⟨.single h, fun hs ht => by rw [hSame, hs] at ht; cases ht⟩

/-- If the journal is halted on the second way only, the halt was masked there. -/
theorem Runs.masked_after (h : s.Runs t) (h' : t.journal.halted = false →
    u.journal.halted → t.Masked u)
    (hReaches : t.Reaches u) (hs : s.journal.halted = false) (hu : u.journal.halted) :
    s.Masked u := by
  cases ht : t.journal.halted with
  | false => exact (h' ht hu).after h.reaches
  | true => exact (h.masked hs ht).before hReaches

/-- Runs follow one another. -/
theorem Runs.trans (h : s.Runs t) (h' : t.Runs u) : s.Runs u :=
  ⟨h.reaches.trans h'.reaches, h.masked_after h'.masked h'.reaches⟩

/-- A run may end in an error of syntax. -/
theorem Runs.drops (h : s.Runs t) (h' : t.Drops u) : s.Drops u := by
  refine ⟨?_, h.masked_after h'.masked h'.givesUp.reaches⟩
  obtain ⟨m, m', hm, hRest⟩ := h'.givesUp
  exact ⟨m, m', h.reaches.trans hm, hRest⟩

/-- Or in a stop. -/
theorem Runs.stops (h : s.Runs t) : t.Stops u → s.Stops u := by
  rintro ⟨m, x, hm, hRest⟩
  exact ⟨m, x, h.trans hm, hRest⟩

/-- Who drops an error runs on. -/
theorem Drops.runs (h : s.Drops t) : s.Runs t := ⟨h.givesUp.reaches, h.masked⟩

/-- Leaving something does not bring the run back. -/
theorem Drops.leaves (h : s.Drops t) (hLeaves : t.Leaves u)
    (hMasked : s.journal.halted = false → t.journal.halted = false → u.journal.halted →
    s.Masked u) : s.Drops u := by
  obtain ⟨m, m', hm, hFails, hw⟩ := h.givesUp
  refine ⟨⟨m, m', hm, hFails, hw.tail hLeaves⟩, fun hs hu => ?_⟩
  cases ht : t.journal.halted with
  | false => exact hMasked hs ht hu
  | true => exact (h.masked hs ht).before (.single (.leaves hLeaves))

theorem Stops.leaves (hLeaves : t.Leaves u) : s.Stops t → s.Stops u := by
  rintro ⟨m, x, hm, hStrikes, hw⟩
  exact ⟨m, x, hm, hStrikes, hw.tail hLeaves⟩

end Session

/-! ## Runs of parsers -/

namespace Parse

variable {α β : Type} {p q : Parse α} {s t : Session}

/-- How a run from the session may end. -/
def Course (s : Session) : EStateM.Result Abort Session α → Prop
  | .ok _ t => s.Runs t
  | .error .badSyntax t => s.Drops t
  | .error .halt t => s.Stops t

/-- All runs of the parser are made of the changes above. -/
def Courses (p : Parse α) : Prop := ∀ s, Course s (p s)

/-- A run before makes a longer course. -/
theorem Course.after {r : EStateM.Result Abort Session α} (h : s.Runs t) (hr : Course t r) :
    Course s r := by
  cases r with
  | ok a u => exact h.trans hr
  | error e u =>
    cases e with
    | badSyntax => exact h.drops hr
    | halt => exact h.stops hr

/-- Something is left after the run, which does not halt the journal. -/
theorem Course.ensuring {after : Session → Session} (hp : Course s (p s))
    (hLeaves : ∀ t : Session, t.Leaves (after t))
    (hSame : ∀ t, (after t).journal.halted = t.journal.halted) : Course s (p.ensuring after s) := by
  cases hr : p s with
  | ok a t =>
    rw [hr] at hp
    rw [ensuring_of_ok hr]
    exact hp.trans (.of_move (.leaves (hLeaves t)) (hSame t))
  | error e t =>
    rw [hr] at hp
    rw [ensuring_of_error hr]
    cases e with
    | badSyntax =>
      refine Session.Drops.leaves hp (hLeaves t) fun _ ht hu => ?_
      rw [hSame, ht] at hu
      cases hu
    | halt => exact Session.Stops.leaves (hLeaves t) hp

namespace Courses

theorem pure (a : α) : Courses (pure a : Parse α) := Session.Runs.refl

/-- Courses follow one another. -/
theorem bind {f : α → Parse β} (hp : Courses p) (hf : ∀ a, Courses (f a)) : Courses (p >>= f) := by
  intro s
  have hs := hp s
  cases hr : p s with
  | ok a t =>
    rw [hr] at hs
    rw [bind_of_ok hr]
    exact .after hs (hf a t)
  | error e t =>
    rw [hr] at hs
    rw [bind_of_error hr]
    cases e <;> exact hs

theorem read {f : Session → Parse α} (h : ∀ s, Courses (f s)) : Courses (get >>= f) :=
  fun s => h s s

theorem ite (c : Prop) [Decidable c] (hp : Courses p) (hq : Courses q) :
    Courses (if c then p else q) := by
  split
  · exact hp
  · exact hq

/-- A step is a course. -/
theorem step (h : Step p) : Courses p := by
  intro s
  have hStep := halting_steps.step h s
  cases hr : p s with
  | ok a t =>
    rw [hr] at hStep
    exact .of_move (.step h hr) hStep
  | error e t =>
    rw [hr] at hStep
    cases e with
    | badSyntax =>
      have hFails : s.Fails t := ⟨α, p, h, hr⟩
      exact ⟨⟨s, t, .refl, hFails, .refl⟩, (Session.Runs.of_move (.fails hFails) hStep).masked⟩
    | halt => exact ⟨s, t, .refl s, .step h hr, .refl⟩

/-- Something is opened, and left after the run. -/
theorem around {before after : Session → Session} (hp : Courses p)
    (hEnters : ∀ s : Session, s.Enters (before s)) (hLeaves : ∀ t : Session, t.Leaves (after t))
    (hSame : ∀ t, (after t).journal.halted = t.journal.halted) :
    Courses (do modify before; p.ensuring after : Parse α) := by
  intro s
  have hEntered : s.Runs (before s) := .of_move (.enters (hEnters s)) (hEnters s).halted
  exact .after hEntered ((hp (before s)).ensuring hLeaves hSame)

theorem spent : Courses (throw .halt : Parse α) := fun s => ⟨s, s, .refl s, .spent s, .refl⟩

/-- So are rounds. -/
theorem rounds {f : α → Parse (Round α)} (h : ∀ a, Courses (f a)) (n : Nat) (a : α) :
    Courses (rounds f n a) := by
  induction n generalizing a with
  | zero => exact spent
  | succ n ih =>
    refine bind (h a) fun r => ?_
    cases r with
    | again a => exact ih a
    | done a => exact pure a

theorem recursive {f : Parse α → Parse α} (h : ∀ p, Courses p → Courses (f p)) :
    Courses (recursive f) := by
  refine read fun s => ?_
  induction s.budget with
  | zero => exact spent
  | succ n ih => exact h _ ih

/-- After an error of syntax another course may follow. -/
theorem recover (hp : Courses p) (hq : Courses q) : Courses (p.recover q) := by
  intro s
  have hs := hp s
  cases hr : p s with
  | ok a t =>
    rw [hr] at hs
    rw [recover_of_ok hr]
    exact hs
  | error e t =>
    rw [hr] at hs
    cases e with
    | halt =>
      rw [recover_of_halt hr]
      exact hs
    | badSyntax =>
      rw [recover_of_badSyntax hr]
      exact .after (Session.Drops.runs hs) (hq t)

theorem prologueRound (h : ∀ t, Courses (prologueStatement t)) : Courses (prologueRound ()) := by
  have hPeek : Courses (peek 0) := fun s => .of_move (.peek s) rfl
  refine read fun s => ite _ (pure _) ?_
  refine bind hPeek fun _ => ite _ (pure _) ?_
  exact bind (h _) fun _ => pure _

/-- A block is entered, run through and left. -/
theorem insideBlock (opener : Token) (hp : Courses p) : Courses (insideBlock opener p) := by
  intro s
  -- `enterBlock` itself may stop the run, before anything is opened
  have hEnter := halting_enterBlock opener s
  have hInside :
      Courses ((withFrame .block p).ensuring fun s =>
      { s with metrics := s.metrics.exitBlock }) := by
    refine fun s => Course.ensuring ?_ .block fun _ => rfl
    exact around hp (fun s => .frame s .block) .frame (fun _ => rfl) s
  unfold Grammar.insideBlock
  cases hr : enterBlock opener s with
  | ok a t =>
    rw [hr] at hEnter
    rw [bind_of_ok hr]
    exact .after (.of_move (.enters (.block opener hr)) hEnter) (hInside t)
  | error e t =>
    rw [hr] at hEnter
    rw [bind_of_error hr]
    cases e with
    | badSyntax => exact hEnter.elim
    | halt => exact ⟨s, t, .refl s, .block opener hr, .refl⟩

theorem tooDeep : Courses (tooDeep : Parse α) := fun s => ⟨s, _, .refl s, .level rfl, .refl⟩

theorem deeper (hp : Courses p) : Courses p.deeper :=
  read fun _ => ite _ (around hp .level .level fun _ => rfl) tooDeep

/-- A function is closed without an error of syntax. -/
theorem closeFunction (line column : Nat) : Courses (closeFunction line column) := by
  intro s
  have hClosed := closeFunction_reports line column s
  cases hr : Grammar.closeFunction line column s with
  | ok a t =>
    rw [hr] at hClosed
    obtain ⟨j, f, ht, hj, -⟩ := hClosed
    have hLeaves : s.Leaves t := by
      have hLeft := Session.Leaves.function s line column
      rwa [hr] at hLeft
    refine .of_move (.leaves hLeaves) ?_
    rw [ht]
    exact hj.trans (Bool.or_false _)
  | error e t =>
    rw [hr] at hClosed
    cases e with
    | badSyntax => exact hClosed.elim
    | halt => exact ⟨s, t, .refl s, .function line column hr, .refl⟩

/-- The one place where a halt is masked: the parts of a function were given up on, so that the
outcome of closing it does not count. -/
theorem insideFunction (kind : FunctionKind) (name : Option String) (line column : Nat)
    (hp : Courses p) : Courses (insideFunction kind name line column p) := by
  intro s
  let v := withFunction s kind name line column
  have hOpened : s.Runs v := .of_move (.enters (.function s kind name line column)) rfl
  have hParts : Course v (p v) := hp v
  -- the three outcomes of the parts: the function is closed in each
  cases hr : p v with
  | ok a w =>
    rw [hr] at hParts
    rw [insideFunction_of_ok hr]
    exact .after (hOpened.trans hParts) (bind (closeFunction line column) (fun _ => pure a) w)
  | error e w =>
    rw [hr] at hParts
    rw [insideFunction_of_error hr]
    cases e with
    | halt => exact hOpened.stops (Session.Stops.leaves (.function w line column) hParts)
    | badSyntax =>
      have hDropped := hOpened.drops hParts
      -- a stop while closing is lost behind the error of syntax: it is masked
      refine hDropped.leaves (.function w line column) fun hs hw hu => ?_
      have hClosed := closeFunction line column w
      cases hc : Grammar.closeFunction line column w with
      | ok a u =>
        rw [hc] at hClosed hu
        exact (Session.Runs.masked hClosed hw hu).after hDropped.runs.reaches
      | error e u =>
        cases e with
        | badSyntax =>
          have hNever := closeFunction_reports line column w
          rw [hc] at hNever
          exact hNever.elim
        | halt => exact ⟨s, kind, name, line, column, w, u, .refl, hParts.givesUp, hw, hc, .refl⟩

end Courses

end Parse

/-! ## The grammar -/

namespace Grammar

/-- Being made of the changes above is respected by the grammar. -/
def coursing : Congruence where
  hides _ := False
  Rel p _ := p.Courses
  Parts p _ := p.Courses
  pure := .pure
  bind := .bind
  read h := .read fun s => h s s (.refl _ s)
  warnAt f line column h := .step (.warnAt f line column h)
  governs_ne := governs_ne_of_false
  quiet _ _ := False.elim
  loud _ _ := False.elim
  step := .step
  prologueRound := .prologueRound
  loop h a := .read fun s => .rounds h s.budget a
  recursive h := .recursive fun p => h p p
  recover := .recover
  clearingHint h s := (h s).ensuring .hint fun _ => rfl
  withNoIn noIn h := .read fun s => .around h (.noIn · noIn) (.noIn · s.noIn) fun _ => rfl
  withFrame kind h := .around h (.frame · kind) .frame fun _ => rfl
  insideBlock := .insideBlock
  insideLoop h := .around h .loop .loop fun _ => rfl
  parts h := h
  bindParts := .bind
  partsBind := .bind
  openOverlay h := .bind (fun _ => .of_move (.enters (.overlay rfl)) rfl) h
  insideFunction := .insideFunction

/-- The parsers one level deeper have courses. -/
theorem coursing_deeper {parsers parsers' : Nested} (h : coursing.Nested parsers parsers') :
    coursing.Nested parsers.deeper parsers'.deeper where
  statement := .deeper h.statement
  expression power := .deeper (h.expression power)
  binding kind := .deeper (h.binding kind)
  construction := .deeper h.construction

/-- By induction on the levels. -/
theorem coursing_levels (n : Nat) : coursing.Nested (levels n) (levels n) := by
  induction n with
  | zero => exact ⟨.tooDeep, fun _ => .tooDeep, fun _ => .tooDeep, .tooDeep⟩
  | succ n ih => exact coursing_deeper ih.forms

end Grammar

/-! ## What a run that stops still does -/

namespace Scope.Tracker

/-- The names that directives and options declare. -/
def declared (t : Tracker) : Predefined.Table × OrderedMap String DirectiveGlobal × List String :=
  (t.predefined, t.directiveGlobals, t.exported)

theorem declared_foldl {β : Type} {f : Tracker → β → Tracker} (t : Tracker) (l : List β)
    (h : ∀ t b, (f t b).declared = t.declared) : (l.foldl f t).declared = t.declared := by
  induction l generalizing t with
  | nil => rfl
  | cons b rest ih => exact (ih (f t b)).trans (h t b)

theorem declared_evaluateUnused (t : Tracker) (id : FrameId) (policy : Setting.UnusedPolicy)
    (lexicalOnly : Bool) : (t.evaluateUnused id policy lexicalOnly).declared = t.declared := by
  refine declared_foldl t _ fun t _ => ?_
  show (if policy = .off then t else t.report _ _ _).declared = t.declared
  split <;> rfl

theorem declared_takePending (t : Tracker) (name : String) (ancestor : FrameId) :
    (t.takePending name ancestor).2.declared = t.declared := by
  unfold takePending
  split <;> rfl

/-- Hoisting declares nothing new. -/
theorem declared_moveOut (t : Tracker) (id function : FrameId) (funcscope : Bool)
    (entry : String × Binding) : (t.moveOut id function funcscope entry).declared = t.declared := by
  unfold moveOut hoist
  dsimp only
  refine (declared_foldl _ _ fun t r => ?_).trans ((declared_takePending _ _ _).trans ?_)
  · split <;> split <;> rfl
  · split <;> rfl

/-- Leaving a frame declares nothing. -/
theorem declared_exit (t : Tracker) (layers : Setting.Layers) :
    (t.exit layers).declared = t.declared := by
  unfold exit
  split
  · rfl
  · dsimp only
    split
    · exact declared_evaluateUnused _ _ _ _
    · refine (declared_foldl _ _ fun t entry => declared_moveOut t _ _ _ entry).trans ?_
      exact declared_evaluateUnused _ _ _ _

end Scope.Tracker

namespace Metrics

/-- The functions that are being counted, the innermost first. -/
def openRecords (m : Metrics) : List FunctionRecord := m.opened.toList.dropLast.map (·.record)

theorem openRecords_exitBlock (m : Metrics) : m.exitBlock.openRecords = m.openRecords := by
  obtain ⟨⟨top, below⟩, finished⟩ := m
  cases below <;> rfl

/-- The functions listed are those that were being counted. -/
def Closes (m n : Metrics) : Prop :=
  ∃ k, n.finished = m.finished ++ m.openRecords.take k ∧ n.openRecords = m.openRecords.drop k

theorem Closes.of_same {m n : Metrics} (hFinished : n.finished = m.finished)
    (hOpen : n.openRecords = m.openRecords) : m.Closes n :=
  ⟨0, hFinished.trans (List.append_nil _).symm, hOpen⟩

theorem Closes.trans {m n o : Metrics} : m.Closes n → n.Closes o → m.Closes o := by
  rintro ⟨k, hk, hRest⟩ ⟨l, hl, hRest'⟩
  refine ⟨k + l, ?_, ?_⟩
  · rw [hl, hk, hRest, List.append_assoc, List.take_add]
  · rw [hRest', hRest, List.drop_drop]

/-- A function that is closed is finished. -/
theorem closes_closeFunction (m : Metrics) : m.Closes m.closeFunction := by
  obtain ⟨⟨top, below⟩, finished⟩ := m
  cases below with
  | nil => exact .of_same rfl rfl
  | cons next rest => exact ⟨1, rfl, rfl⟩

end Metrics

namespace Session

/-- What was opened is left: no token is consumed, no directive takes effect, nothing is added to a
halted journal, and no function is listed but those that were open. -/
structure Withdrawn (s t : Session) : Prop where
  place : (t.token, t.previous, t.stream, t.consumed) = (s.token, s.previous, s.stream, s.consumed)
  journal : s.journal.halted → t.journal = s.journal
  layers : ∃ k, t.layers = Setting.Layers.pop^[k] s.layers
  declared : t.scopes.declared = s.scopes.declared
  functions : s.metrics.Closes t.metrics

theorem Withdrawn.of_same {s t : Session}
    (h : (t.token, t.previous, t.stream, t.consumed, t.journal, t.layers) =
      (s.token, s.previous, s.stream, s.consumed, s.journal, s.layers))
    (hDeclared : t.scopes.declared = s.scopes.declared) (hFunctions : s.metrics.Closes t.metrics) :
    s.Withdrawn t := by
  simp only [Prod.mk.injEq] at h
  obtain ⟨hToken, hPrevious, hStream, hConsumed, hJournal, hLayers⟩ := h
  refine ⟨?_, fun _ => hJournal, ⟨0, hLayers⟩, hDeclared, hFunctions⟩
  rw [hToken, hPrevious, hStream, hConsumed]

/-- Withdrawals follow one another. -/
theorem Withdrawn.trans {s t u : Session} (h : s.Withdrawn t) (h' : t.Withdrawn u) :
    s.Withdrawn u where
  place := h'.place.trans h.place
  journal hs := (h'.journal (h.journal hs ▸ hs)).trans (h.journal hs)
  layers := by
    obtain ⟨k, hk⟩ := h.layers
    obtain ⟨l, hl⟩ := h'.layers
    exact ⟨l + k, by rw [hl, hk, Function.iterate_add_apply]⟩
  declared := h'.declared.trans h.declared
  functions := h.functions.trans h'.functions

/-- What a function had opened is withdrawn. -/
theorem withdrawn_withoutFunction (s : Session) : s.Withdrawn (withoutFunction s) where
  place := rfl
  journal _ := rfl
  layers := by
    unfold withoutFunction
    dsimp only
    split
    · exact ⟨1, rfl⟩
    · exact ⟨0, rfl⟩
  declared := s.scopes.declared_exit s.layers
  functions := s.metrics.closes_closeFunction

/-- So is what any other form had opened. -/
theorem Leaves.withdrawn {s t : Session} (h : s.Leaves t) : s.Withdrawn t := by
  cases h with
  | frame => exact .of_same rfl (s.scopes.declared_exit s.layers) (.of_same rfl rfl)
  | block => exact .of_same rfl rfl (.of_same rfl s.metrics.openRecords_exitBlock)
  | function line column =>
    obtain ⟨_, j, f, hLeft, -, hSame⟩ := closeFunction_left line column s
    rw [hLeft]
    exact s.withdrawn_withoutFunction.trans ⟨rfl, hSame, ⟨0, rfl⟩, rfl, .of_same rfl rfl⟩
  | _ => exact .of_same rfl rfl (.of_same rfl rfl)

theorem Withdraws.withdrawn {s t : Session} (h : s.Withdraws t) : s.Withdrawn t := by
  induction h with
  | refl => exact .of_same rfl rfl (.of_same rfl rfl)
  | tail _ hLeaves ih => exact ih.trans hLeaves.withdrawn

/-- What stops the run halts the journal, or the rounds were spent. -/
theorem Strikes.halted {s t : Session} (h : s.Strikes t) : t.journal.halted ∨ t = s := by
  cases h with
  | step h ht =>
    have hStep := halting_steps.step h s
    rw [ht] at hStep
    exact .inl hStep
  | block opener h => exact .inl ((halting_enterBlock opener s).stopped h)
  | function line column h =>
    obtain ⟨j, f, rfl, hj, -⟩ := (closeFunction_reports line column s).stopped h
    exact .inl (hj.trans (Bool.or_true _))
  | level h => exact .inl ((EStateM.Result.error.inj h).2 ▸ Journal.halted_halt _ _)
  | spent => exact .inr rfl

end Session

/-! ## Handlers -/

/-- If the run goes on, its journal is halted exactly if a halt was masked. If it stops, it does
nothing after the place where it is struck but leave what was opened. -/
def Parse.Unwinds {α : Type} (p : Parse α) : Prop :=
  ∀ s : Session, s.journal.halted = false →
    Settles (fun t => t.journal.halted ↔ s.Masked t)
      (fun t => ∃ m h, s.Reaches m ∧ (m.journal.halted ↔ s.Masked m) ∧
        m.Strikes h ∧ (h.journal.halted ∨ h = m) ∧ h.Withdrawn t) (p s)

/-- What has courses unwinds. -/
theorem Parse.Courses.unwinds {α : Type} {p : Parse α} (h : Courses p) : p.Unwinds := by
  intro s hs
  have hCourse := h s
  cases hr : p s with
  | ok a t =>
    rw [hr] at hCourse
    exact ⟨hCourse.masked hs, (·.halted)⟩
  | error e t =>
    rw [hr] at hCourse
    cases e with
    | badSyntax => exact ⟨hCourse.masked hs, (·.halted)⟩
    | halt =>
      obtain ⟨m, x, hm, hStrikes, hw⟩ := hCourse
      exact ⟨m, x, hm.reaches, ⟨hm.masked hs, (·.halted)⟩, hStrikes, hStrikes.halted, hw.withdrawn⟩

/-- Statements and lists of them, expressions, binding targets, `new` expressions and functions that
start with a journal that is not halted: once the journal is halted, the run stops and does nothing
but leave what was opened. The exception are functions that were given up on: whatever closing them
reports, the run goes on as after any statement that was given up on. -/
theorem halt_unwinds (n : Nat) :
    ((levels n).statement.Unwinds ∧
      (∀ stop, (statementList (levels n) stop).Unwinds) ∧
      (∀ power, ((levels n).expression power).Unwinds) ∧
      (∀ kind, ((levels n).binding kind).Unwinds) ∧
      (levels n).construction.Unwinds ∧
      ∀ kind name line column, (function (levels n) kind name line column).Unwinds) ∧
    ∀ (α : Type) (parts : Parse α) kind name line column s w u,
      parts (withFunction s kind name line column) = .error .badSyntax w →
      closeFunction line column w = .error .halt u →
      insideFunction kind name line column parts s = .error .badSyntax u ∧ u.journal.halted := by
  constructor
  · have h := coursing_levels n
    refine ⟨h.statement.unwinds, fun stop => ?_, fun power => (h.expression power).unwinds,
      fun kind => (h.binding kind).unwinds, h.construction.unwinds, fun kind name line column => ?_⟩
    · exact Parse.Courses.unwinds (h.statementList stop)
    · exact Parse.Courses.unwinds (h.function kind name line column)
  · intro α parts kind name line column s w u hParts hClose
    obtain ⟨j, f, hu, hj, -⟩ := (Parse.closeFunction_reports line column w).stopped hClose
    refine ⟨?_, ?_⟩
    · rw [insideFunction_of_error hParts, hClose]
      rfl
    · rw [hu]
      exact hj.trans (Bool.or_true _)

end ScriptLint
