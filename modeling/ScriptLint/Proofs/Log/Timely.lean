import ScriptLint.Proofs.Log.Sessions

/-!
# Parsers that report in time

A parser reports findings at the lines of tokens that it has seen. So no finding lies after the
place where the lexer goes on, and a directive that is read later lies after all of them.

- `Lined`: the lines that a value mentions.
- `Input.Timely`: given that certain lines are known, the parser keeps the log, and the lines that
  its value mentions are known after it.
- `Timely.bind`, `Timely.loop`, `Timely.insideFunction` and so on: the combinations of the grammar.
- `Timely.warnAt`, `Timely.advance` and so on: its steps.
-/

namespace ScriptLint

/-- Values that mention lines. -/
class Lined (α : Type) where
  lines : α → List Nat

open Lined (lines)

instance : Lined Unit := ⟨fun _ => []⟩
instance : Lined Bool := ⟨fun _ => []⟩
instance : Lined Nat := ⟨fun _ => []⟩
instance : Lined String := ⟨fun _ => []⟩
instance : Lined Flow := ⟨fun _ => []⟩
instance : Lined Grammar.ListState := ⟨fun _ => []⟩
instance : Lined Token := ⟨fun t => [t.line]⟩
instance : Lined Summary := ⟨fun e => [e.line]⟩

instance {α : Type} [Lined α] : Lined (Option α) := ⟨fun a => (a.map lines).getD []⟩

instance {α β : Type} [Lined α] [Lined β] : Lined (α × β) :=
  ⟨fun pair => lines pair.1 ++ lines pair.2⟩

instance {α : Type} [Lined α] : Lined (Parse.Round α) where
  lines
    | .again a => lines a
    | .done a => lines a

/-- Values that mention no line. -/
class Lineless (α : Type) [Lined α] : Prop where
  lines_eq (a : α) : lines a = []

instance : Lineless Unit := ⟨fun _ => rfl⟩
instance : Lineless Bool := ⟨fun _ => rfl⟩
instance : Lineless Grammar.ListState := ⟨fun _ => rfl⟩

/-- The line is among those that are known. -/
class Known (known : List Nat) (line : Nat) : Prop where
  mem : line ∈ known

/-- The lines that a value mentions are among those that are known. -/
class Covered {α : Type} [Lined α] (known : List Nat) (a : α) : Prop where
  mem : ∀ line ∈ lines a, line ∈ known

section

variable {α β : Type} [Lined α] [Lined β] {known first rest : List Nat} {line other : Nat}

instance : Known (line :: known) line := ⟨List.mem_cons_self⟩

instance [h : Known known line] : Known (other :: known) line := ⟨List.mem_cons_of_mem _ h.mem⟩

instance [h : Known first line] : Known (first ++ rest) line := ⟨List.mem_append_left _ h.mem⟩

instance [h : Known rest line] : Known (first ++ rest) line := ⟨List.mem_append_right _ h.mem⟩

instance (t : Token) : Known (lines t) t.line := ⟨List.mem_singleton_self _⟩

instance (e : Summary) : Known (lines e) e.line := ⟨List.mem_singleton_self _⟩

instance (a : α) [h : Known (lines a) line] : Known (lines (some a)) line := ⟨h.mem⟩

instance (pair : α × β) [h : Known (lines pair.2) line] : Known (lines pair) line :=
  ⟨List.mem_append_right _ h.mem⟩

instance (e : Summary) [h : Covered known (some e)] : Known known e.line :=
  ⟨h.mem _ (List.mem_singleton_self _)⟩

instance (t : Token) (form : Form) [h : Known known t.line] :
    Known known (Summary.startingAt t form).line :=
  ⟨h.mem⟩

instance (e : Summary) (form : Form) [h : Known known e.line] :
    Known known (e.within form).line := ⟨h.mem⟩

instance (a : α) [Lineless α] : Covered known a where
  mem _ hLine := absurd (Lineless.lines_eq a ▸ hLine) List.not_mem_nil

instance (t : Token) [h : Known known t.line] : Covered known t :=
  ⟨fun _ hn => List.mem_singleton.mp hn ▸ h.mem⟩

instance (e : Summary) [h : Known known e.line] : Covered known e :=
  ⟨fun _ hn => List.mem_singleton.mp hn ▸ h.mem⟩

instance : Covered known (none : Option α) := ⟨fun _ hn => absurd hn List.not_mem_nil⟩

instance (a : α) [h : Covered known a] : Covered known (some a) := ⟨h.mem⟩

instance (a b : Option α) [h : Covered known a] [h' : Covered known b] :
    Covered known (a.or b) := by
  cases a with
  | none => exact h'
  | some a => exact h

instance (a : α) [h : Covered known a] : Covered known (Parse.Round.again a) := ⟨h.mem⟩

instance (a : α) [h : Covered known a] : Covered known (Parse.Round.done a) := ⟨h.mem⟩

instance (a : α) (b : β) [h : Covered known a] [h' : Covered known b] : Covered known (a, b) :=
  ⟨fun n hn => (List.mem_append.mp hn).elim (h.mem n) (h'.mem n)⟩

instance (a : α) : Covered (lines a ++ rest) a := ⟨fun _ hn => List.mem_append_left _ hn⟩

instance (a : α) [h : Covered rest a] : Covered (first ++ rest) a :=
  ⟨fun n hn => List.mem_append_right _ (h.mem n hn)⟩

instance (a : α) [h : Covered known a] : Covered (other :: known) a :=
  ⟨fun n hn => List.mem_cons_of_mem _ (h.mem n hn)⟩

end

/-! ## Changes that a log does not mention -/

/-- Nothing that a log mentions changes, and no line is added. -/
structure Session.Unlogged (s t : Session) : Prop extends s.Placed t where
  journal : t.journal = s.journal
  settings (on : Bool) : s.layers.Untouched on → t.layers.Untouched on
  calm : s.scopes.Calm → t.scopes.Calm
  within (line : Nat) : s.scopes.Within line → t.scopes.Within line

/-- Neither the settings nor the scopes change. -/
theorem Session.Unlogged.of_eq {s t : Session}
    (h :
    (t.token, t.previous, t.stream, t.sourceLength, t.consumed, t.journal, t.layers, t.scopes) =
      (s.token, s.previous, s.stream, s.sourceLength, s.consumed, s.journal, s.layers, s.scopes)) :
    s.Unlogged t := by
  simp only [Prod.mk.injEq] at h
  obtain ⟨token, previous, stream, sourceLength, consumed, journal, layers, scopes⟩ := h
  exact ⟨⟨token, previous, stream, sourceLength, consumed⟩, journal,
    fun _ => layers ▸ id, scopes ▸ id, fun _ => scopes ▸ id⟩

/-- A new frame is not logged. -/
theorem Session.Unlogged.enter (s : Session) (kind : Scope.FrameKind) :
    s.Unlogged { s with scopes := s.scopes.enter kind } :=
  ⟨⟨rfl, rfl, rfl, rfl, rfl⟩, rfl, fun _ => id, id, fun _ h => h.enter kind⟩

/-- Neither is the frame that is left. -/
theorem Session.Unlogged.exit (s : Session) :
    s.Unlogged { s with scopes := s.scopes.exit s.layers } :=
  ⟨⟨rfl, rfl, rfl, rfl, rfl⟩, rfl, fun _ => id, fun h => h.exit s.layers,
    fun _ h => h.exit s.layers⟩

/-- Nor is the start of a function. -/
theorem Session.Unlogged.withFunction (s : Session) (kind : Grammar.FunctionKind)
    (name : Option String)
    (line column : Nat) : s.Unlogged (Grammar.withFunction s kind name line column) :=
  ⟨⟨rfl, rfl, rfl, rfl, rfl⟩, rfl, fun _ => id, id, fun _ h => h.enter .function⟩

/-- Some number bounds the values of a function on a list. -/
theorem exists_forall_le {α : Type} (f : α → Nat) (l : List α) : ∃ bound, ∀ a ∈ l, f a ≤ bound := by
  induction l with
  | nil => exact ⟨0, fun a ha => nomatch ha⟩
  | cons a rest ih =>
    obtain ⟨bound, hRest⟩ := ih
    refine ⟨max (f a) bound, List.forall_mem_cons.mpr ⟨Nat.le_max_left _ _, fun b hb => ?_⟩⟩
    exact Nat.le_trans (hRest b hb) (Nat.le_max_right _ _)

/-- Whatever the scopes mention lies before some line. -/
theorem Scope.Tracker.exists_within (t : Tracker) : ∃ last, t.Within last := by
  obtain ⟨findings, hFindings⟩ := exists_forall_le PlacedFinding.line t.findings
  obtain ⟨bindings, hBindings⟩ := exists_forall_le (fun entry : String × Binding => entry.2.line)
    (t.frames.toList.flatMap (·.bindings.entries))
  obtain ⟨pending, hPending⟩ := exists_forall_le Pending.line (t.pending.entries.flatMap Prod.snd)
  obtain ⟨globals, hGlobals⟩ :=
    exists_forall_le (fun entry : String × DirectiveGlobal => entry.2.line)
    t.directiveGlobals.entries
  refine ⟨findings + bindings + pending + globals, fun f hf => ?_, fun f hf entry hEntry => ?_,
    fun entry hEntry r hr => ?_, fun entry hEntry => ?_⟩
  · have hLine := hFindings f hf
    omega
  · have hLine := hBindings entry (List.mem_flatMap.mpr ⟨f, hf, hEntry⟩)
    omega
  · have hLine := hPending r (List.mem_flatMap.mpr ⟨entry, hEntry, hr⟩)
    omega
  · have hLine := hGlobals entry hEntry
    omega

namespace Input

open Parse Directive

variable {I : Input} {known known' : List Nat} {s t : Session}

/-- What is not logged keeps a session at rest. -/
theorem Rests.unlogged (h : I.Rests known s) (ht : s.Unlogged t) : I.Rests known t := by
  obtain ⟨read, l, hFront, hUpto⟩ := h
  refine ⟨read, l, ?_, hUpto.same ht.journal (ht.settings _) fun hCalm hWithin => ?_⟩
  · exact ⟨hFront.yields, hFront.follows, ht.stream ▸ hFront.stream, ht.token ▸ hFront.token,
      ht.previous ▸ hFront.previous, hFront.known⟩
  · exact ⟨ht.calm hCalm, ht.within _ hWithin⟩

theorem Tells.unlogged (h : I.Tells s) (ht : s.Unlogged t) : I.Tells t := by
  obtain ⟨read, l, hYields, log, hTold, hItems⟩ := h
  exact ⟨read, l, hYields, log, hTold.same ht.journal (ht.settings _) (ht.calm hTold.calm), hItems⟩

/-- Whatever is reported goes into the log, wherever it lies, and no directive takes effect. -/
theorem Told.remain {α : Type} {p : Parse α} {log : List Event} (h : I.Told s log) (least : Nat)
    (hReports : ∀ line, least ≤ line → I.Recounts line p) :
    ∃ log', I.Told (left (p s)) log' ∧ directedIn log' = directedIn log := by
  obtain ⟨kept, hKept⟩ := exists_forall_le Diagnostic.line s.journal.kept
  obtain ⟨last, hLast⟩ := s.scopes.exists_within
  -- some line lies behind all that was reported and all that the scopes mention
  have hUpto : I.Upto (least + kept + last) (directedIn log) s := by
    refine ⟨log, h, rfl, fun d hd => .inr ?_, hLast.mono (by omega)⟩
    exact Nat.le_trans (hKept d hd) (by omega)
  obtain ⟨log', hTold, hItems, -⟩ := (hReports _ (by omega) _ s hUpto).settles.left
  exact ⟨log', hTold, hItems⟩

theorem Tells.remain {α : Type} {p : Parse α} (h : I.Tells s) (least : Nat)
    (hReports : ∀ line, least ≤ line → I.Recounts line p) : I.Tells (left (p s)) := by
  obtain ⟨read, l, hYields, log, hTold, hItems⟩ := h
  obtain ⟨log', hTold', hSame⟩ := hTold.remain least hReports
  exact ⟨read, l, hYields, log', hTold', hSame ▸ hItems⟩

/-- A program that is nested too deeply stops the run. -/
theorem Rests.tooDeep {α : Type} (h : I.Rests known s) :
    ∃ t, (tooDeep : Parse α) s = .error .halt t ∧ I.Tells t := by
  obtain ⟨read, l, hYields, log, hTold, hItems⟩ := h.tells
  refine ⟨_, rfl, read, l, hYields,
    log ++ [.halt ((Finding.unrecoverable s.percent).diagnostic s.token.line s.token.column)],
    ⟨hTold.account.tooDeep _ _ _, ?_, fun hUnset => hTold.settings ?_, hTold.calm⟩, ?_⟩
  · rw [Journal.replay_append, ← hTold.journal]
    rfl
  · rw [directedIn_append] at hUnset
    exact fun value line hMem => hUnset value line (List.mem_append_left _ hMem)
  · rw [directedIn_append]
    exact (List.append_nil (directedIn log)).symm ▸ hItems

/-! ## Parsers -/

variable {α β : Type} [Lined α] [Lined β]

/-- The lines that a value mentions are known when the parser returns it. -/
def Due (I : Input) (known : List Nat) : EStateM.Result Abort Session α → Prop
  | .ok a t => I.Rests (lines a ++ known) t
  | .error .badSyntax t => I.Rests known t
  | .error .halt t => I.Tells t

/-- If the lines are known, the parser keeps the log and reports nothing that lies after the place
where the lexer goes on. -/
def Timely (I : Input) (known : List Nat) (p : Parse α) : Prop :=
  ∀ s, I.Rests known s → I.Due known (p s)

/-- Fewer lines may be known. -/
theorem Due.mono {r : EStateM.Result Abort Session α} (h : I.Due known r)
    (hKnown : ∀ n ∈ known', n ∈ known) : I.Due known' r := by
  cases r with
  | ok a t =>
    refine Rests.mono h fun n hn => ?_
    exact (List.mem_append.mp hn).elim (List.mem_append_left _) fun hOld =>
      List.mem_append_right _ (hKnown n hOld)
  | error e t =>
    cases e with
    | badSyntax => exact Rests.mono h hKnown
    | halt => exact h

namespace Timely

variable {p q : Parse α}

theorem pure (a : α) [h : Covered known a] : I.Timely known (pure a) := by
  refine fun s hs => hs.mono fun n hn => ?_
  exact (List.mem_append.mp hn).elim (h.mem n) id

/-- The lines that the first parser found are known to the second. -/
theorem bind {f : α → Parse β} (hp : I.Timely known p)
    (hf : ∀ a, I.Timely (lines a ++ known) (f a)) : I.Timely known (p >>= f) := by
  intro s hs
  have hDue := hp s hs
  cases hr : p s with
  | ok a t =>
    rw [hr] at hDue
    rw [bind_of_ok hr]
    exact (hf a t hDue).mono fun n hn => List.mem_append_right _ hn
  | error e t =>
    rw [hr] at hDue
    rw [bind_of_error hr]
    cases e <;> exact hDue

theorem discard (hp : I.Timely known p) : I.Timely known (discard p) := by
  rw [discard_eq_bind]
  exact bind hp fun _ => pure ()

/-- The session that is read stands at a token. -/
theorem read {f : Session → Parse α}
    (h : ∀ s, I.Timely (s.token.line :: s.previous.line :: known) (f s)) :
    I.Timely known (get >>= f) := by
  refine fun s hs => (h s s hs.here).mono fun n hn => ?_
  exact List.mem_cons_of_mem _ (List.mem_cons_of_mem _ hn)

theorem ite (c : Prop) [Decidable c] (hp : I.Timely known p) (hq : I.Timely known q) :
    I.Timely known (if c then p else q) := by
  split
  · exact hp
  · exact hq

/-- Only one of the branches does something before both go on in the same way. -/
theorem when (c : Prop) [Decidable c] {p : Parse Unit} {f : Unit → Parse α} (hp : I.Timely known p)
    (hf : ∀ u, I.Timely known (f u)) : I.Timely known (if c then p >>= f else f ()) :=
  ite c (bind hp hf) (hf ())

/-- After a syntax error the second parser starts where the first stopped. -/
theorem recover (hp : I.Timely known p) (hq : I.Timely known q) : I.Timely known (p.recover q) := by
  intro s hs
  have hDue := hp s hs
  cases hr : p s with
  | ok a t =>
    rw [hr] at hDue
    rw [recover_of_ok hr]
    exact hDue
  | error e t =>
    rw [hr] at hDue
    cases e with
    | halt =>
      rw [recover_of_halt hr]
      exact hDue
    | badSyntax =>
      rw [recover_of_badSyntax hr]
      exact hq t hDue

/-- By induction on the rounds, each of which knows the lines of the value that it is given. -/
theorem rounds {f : α → Parse (Round α)} (h : ∀ a, I.Timely (lines a ++ known) (f a))
    (n : Nat) (a : α) (hs : I.Rests (lines a ++ known) s) : I.Due known (rounds f n a s) := by
  induction n generalizing a s with
  | zero => exact hs.tells
  | succ n ih =>
    have hDue := h a s hs
    have hKnown (b : α) : ∀ n ∈ lines b ++ known, n ∈ lines b ++ (lines a ++ known) := by
      intro n hn
      exact (List.mem_append.mp hn).elim (List.mem_append_left _) fun hOld =>
        List.mem_append_right _ (List.mem_append_right _ hOld)
    show I.Due known ((f a >>= _) s)
    cases hr : f a s with
    | ok r t =>
      rw [hr] at hDue
      rw [bind_of_ok hr]
      cases r with
      | done b => exact Rests.mono hDue (hKnown b)
      | again b => exact ih b (Rests.mono hDue (hKnown b))
    | error e t =>
      rw [hr] at hDue
      rw [bind_of_error hr]
      exact Due.mono (r := .error e t) (by cases e <;> exact hDue) fun n hn =>
        List.mem_append_right _ hn

/-- A loop may use the lines of its own state. -/
theorem loop {f : α → Parse (Round α)} (h : ∀ a, I.Timely (lines a ++ known) (f a)) (a : α)
    [ha : Covered known a] : I.Timely known (loop f a) := by
  refine fun s hs => rounds h s.budget a (hs.mono fun n hn => ?_)
  exact (List.mem_append.mp hn).elim (ha.mem n) id

/-- By induction on how often the parser contains itself. -/
theorem recursive {f : Parse α → Parse α}
    (h : ∀ p, (∀ known, I.Timely known p) → ∀ known, I.Timely known (f p)) :
    I.Timely known (recursive f) := by
  intro s hs
  show I.Due known (unfolded f s.budget s)
  suffices hAll : ∀ known, I.Timely known (unfolded f s.budget) from hAll known s hs
  induction s.budget with
  | zero => exact fun known t ht => ht.tells
  | succ n ih => exact h _ ih

/-! ## Changes around a parser -/

theorem alter {f : Session → Session} (h : ∀ s : Session, s.Unlogged (f s)) :
    I.Timely known (modify f) :=
  fun s hs => hs.unlogged (h s)

/-- What is done after the parser, whatever its outcome, is not logged. -/
theorem ensuring {after : Session → Session} (hAfter : ∀ s : Session, s.Unlogged (after s))
    (h : I.Timely known p) :
    I.Timely known (p.ensuring after) := by
  intro s hs
  have hDue := h s hs
  cases hr : p s with
  | ok a t =>
    rw [hr] at hDue
    rw [ensuring_of_ok hr]
    exact Rests.unlogged hDue (hAfter t)
  | error e t =>
    rw [hr] at hDue
    rw [ensuring_of_error hr]
    cases e with
    | badSyntax => exact Rests.unlogged hDue (hAfter t)
    | halt => exact Tells.unlogged hDue (hAfter t)

/-- Something that a log does not mention is changed before a parser and after it. -/
theorem around {before after : Session → Session} (hBefore : ∀ s : Session, s.Unlogged (before s))
    (hAfter : ∀ s : Session, s.Unlogged (after s)) (h : I.Timely known p) :
    I.Timely known (do modify before; p.ensuring after) :=
  bind (alter hBefore) fun _ => ensuring hAfter h

theorem clearingHint (h : I.Timely known p) : I.Timely known p.clearingHint :=
  ensuring (fun _ => .of_eq rfl) h

theorem withNoIn (noIn : Bool) (h : I.Timely known p) : I.Timely known (withNoIn noIn p) :=
  fun s hs =>
    have hAround :
        I.Timely known (do modify ({ · with noIn }); p.ensuring ({ · with noIn := s.noIn })) :=
      around (fun _ => .of_eq rfl) (fun _ => .of_eq rfl) h
    hAround s hs

theorem withFrame (kind : Scope.FrameKind) (h : I.Timely known p) :
    I.Timely known (Grammar.withFrame kind p) :=
  around (.enter · kind) .exit h

theorem insideLoop (h : I.Timely known p) : I.Timely known (Grammar.insideLoop p) :=
  around (fun _ => .of_eq rfl) (fun _ => .of_eq rfl) h

theorem openOverlay : I.Timely known Grammar.openOverlay :=
  alter fun _ => ⟨⟨rfl, rfl, rfl, rfl, rfl⟩, rfl, fun _ h => h.push, id, fun _ => id⟩

theorem tooDeep : I.Timely known (tooDeep : Parse α) := by
  intro s hs
  obtain ⟨t, hRun, ht⟩ := hs.tooDeep (α := α)
  rw [hRun]
  exact ht

theorem deeper (h : I.Timely known p) : I.Timely known p.deeper := by
  have hBelow : I.Timely known p.below := around (fun _ => .of_eq rfl) (fun _ => .of_eq rfl) h
  exact fun s hs => ite _ hBelow tooDeep s hs

/-! ## Findings -/

/-- The parser stays at the token and reports nothing that lies after the lines that are known. -/
theorem remain {p : Parse Unit} (hReports : ∀ line, (∀ n ∈ known, n ≤ line) → I.Recounts line p)
    (hPlaced : Resolves placed p) : I.Timely known p := by
  intro s hs
  have hRemains := hs.remain hReports hPlaced
  cases hr : p s with
  | ok a t =>
    rw [hr] at hRemains
    exact hRemains
  | error e t =>
    rw [hr] at hRemains
    cases e with
    | badSyntax => exact hRemains.elim
    | halt => exact Rests.tells hRemains

theorem warnAt (f : Finding) {line : Nat} (column : Nat) (hf : f.isOrdinary)
    [h : Known known line] : I.Timely known (warnAt f line column) :=
  remain (fun _ hKnown => .warnAt hf (hKnown line h.mem)) (placed_emit _)

theorem warn (f : Finding) (t : Token) (hf : f.isOrdinary) [h : Known known t.line] :
    I.Timely known (warn f t) :=
  warnAt f t.column hf

theorem warnHere (f : Finding) (hf : f.isOrdinary) : I.Timely known (warnHere f) :=
  read fun s => warn f s.token hf

theorem giveUp : I.Timely known (throw .badSyntax : Parse α) := fun _ hs => hs

theorem failAt (f : Finding) (t : Token) (hf : f.isOrdinary) [h : Known known t.line] :
    I.Timely known (failAt f t : Parse α) :=
  bind (warn f t hf) fun _ => giveUp

theorem failHere (f : Finding) (hf : f.isOrdinary) : I.Timely known (failHere f : Parse α) :=
  read fun s => failAt f s.token hf

theorem failExpected (expected : String) : I.Timely known (failExpected expected : Parse α) :=
  read fun _ => failHere _ rfl

theorem failIdentifier : I.Timely known (failIdentifier : Parse α) := read fun _ => failHere _ rfl

theorem warnUnless (setting : Setting) (f : Finding) {line : Nat} (column : Nat) (hf : f.isOrdinary)
    [h : Known known line] : I.Timely known (warnUnless setting f line column) :=
  read fun _ => ite _ (warnAt f column hf) (pure ())

theorem warnIf (setting : Setting) (f : Finding) {line : Nat} (column : Nat) (hf : f.isOrdinary)
    [h : Known known line] : I.Timely known (warnIf setting f line column) :=
  read fun _ => ite _ (warnAt f column hf) (pure ())

theorem flushScopes : I.Timely known flushScopes :=
  remain (fun _ _ => .flushScopes) (placed_of_standing standing_flushScopes)

/-! ## Functions and blocks -/

theorem insideBlock {opener : Token} (h : I.Timely known p) [hOpener : Known known opener.line] :
    I.Timely known (Grammar.insideBlock opener p) := by
  have hEnter : I.Timely known (Grammar.enterBlock opener) :=
    remain (fun _ hKnown => .enterBlock (hKnown _ hOpener.mem))
      (placed_of_standing (standing_enterBlock opener))
  exact bind hEnter fun _ => ensuring (fun _ => .of_eq rfl) (withFrame .block h)

/-- Closing a function reports at the place where it was opened, which is known. Where its parts
gave up, the session still stands at a token. -/
theorem insideFunction (kind : Grammar.FunctionKind) (name : Option String) {line : Nat}
    (column : Nat) (h : I.Timely known p) [hLine : Known known line] :
    I.Timely known (Grammar.insideFunction kind name line column p) := by
  have hClose {known' : List Nat} {t : Session} (ht : I.Rests known' t) (hLine' : line ∈ known') :
      Resolved (I.Rests known') (I.Rests known') (Grammar.closeFunction line column t) :=
    ht.remain (fun _ hKnown => .closeFunction (hKnown line hLine'))
      (placed_of_standing (standing_closeFunction line column))
  intro s hs
  have hDue := h _ (hs.unlogged (.withFunction s kind name line column))
  -- the function is closed in each of the three outcomes
  cases hr : p (Grammar.withFunction s kind name line column) with
  | ok a t =>
    rw [hr] at hDue
    rw [insideFunction_of_ok hr]
    have hClosed := hClose hDue (List.mem_append_right _ hLine.mem)
    cases hc : Grammar.closeFunction line column t with
    | ok u v =>
      rw [hc] at hClosed
      rw [bind_of_ok hc]
      exact hClosed
    | error e v =>
      rw [hc] at hClosed
      rw [bind_of_error hc]
      cases e with
      | badSyntax => exact hClosed.elim
      | halt => exact Rests.tells hClosed
  | error e t =>
    rw [hr] at hDue
    rw [insideFunction_of_error hr]
    cases e with
    -- after a syntax error the function's place is known, since it was known at its start
    | badSyntax => exact (hClose hDue hLine.mem).settles.left
    | halt => exact Tells.remain hDue line fun _ => .closeFunction

/-! ## Tokens -/

/-- Looking ahead changes the stream only. -/
theorem look {f : Session → α} {g : TokenStream → TokenStream} (hLines : ∀ s, lines (f s) = [])
    (hFrom : ∀ (stream : TokenStream) l, stream.From l → (g stream).From l ∨
    (g stream).From l.allowRegex)
    (hp : ∀ s, p s = .ok (f s) { s with stream := g s.stream }) : I.Timely known p := by
  intro s hs
  rw [hp s]
  show I.Rests (lines (f s) ++ known) _
  rw [hLines s]
  exact hs.look (hFrom s.stream)

/-- The line of a token that is peeked at is not known. -/
theorem peekThen (n : Nat) {f : Option Token → Parse α} (h : ∀ next, I.Timely known (f next)) :
    I.Timely known (peek n >>= f) :=
  fun _ hs => h _ _ (hs.look fun _ hl => .inl (TokenStream.from_peek n hl))

theorem peekIs (test : Token → Bool) : I.Timely known (peekIs test) := peekThen 0 fun _ => pure _

theorem peekArrowAfterNext : I.Timely known peekArrowAfterNext := peekThen 1 fun _ => pure _

theorem startsArrow : I.Timely known startsArrow :=
  look (fun _ => rfl) (fun _ _ hl => .inl (TokenStream.from_closesBeforeArrow hl)) fun _ => rfl

theorem allowRegex : I.Timely known allowRegex :=
  look (f := fun _ => ()) (fun _ => rfl) (fun _ _ => TokenStream.from_allowRegex) fun _ => rfl

theorem advance : I.Timely known advance := by
  intro s hs
  have hNext := hs.advance
  cases hr : Parse.advance s with
  | ok a t =>
    rw [hr] at hNext
    exact hNext
  | error e t =>
    rw [hr] at hNext
    cases e with
    | badSyntax => exact hNext.elim
    | halt => exact hNext

theorem advanceToStatement : I.Timely known advanceToStatement := bind allowRegex fun _ => advance

theorem current : I.Timely known current := read fun _ => pure _

/-- What the grammar sees of the current token mentions no line. -/
theorem observe {f : Session → Bool} : I.Timely known (do return f (← get)) := read fun _ => pure _

theorem sees (p : Punctuator) : I.Timely known (sees p) := observe

theorem seesWord (word : Keyword) : I.Timely known (seesWord word) := observe

theorem seesName (name : String) : I.Timely known (seesName name) := observe

theorem eat (p : Punctuator) : I.Timely known (eat p) :=
  bind (sees p) fun _ => ite _ (bind advance fun _ => pure true) (pure false)

theorem expect (p : Punctuator) : I.Timely known (expect p) :=
  bind (sees p) fun _ => ite _ advance (failExpected _)

theorem expectWord (word : Keyword) : I.Timely known (expectWord word) :=
  bind (seesWord word) fun _ => ite _ advance (failExpected _)

theorem expectClosing (p : Punctuator) (opener : Token) [h : Known known opener.line] :
    I.Timely known (expectClosing p opener) := by
  refine bind (sees p) fun _ => ite _ advance ?_
  exact bind current fun t => ite _ (failAt _ _ rfl) (failExpected _)

theorem expectStatementClosing (p : Punctuator) (opener : Token) [h : Known known opener.line] :
    I.Timely known (expectStatementClosing p opener) :=
  bind (sees p) fun _ => ite _ advanceToStatement (expectClosing p opener)

theorem expectIdentifier : I.Timely known expectIdentifier := by
  refine bind current fun t => ?_
  cases t.identifier? with
  | some name => exact bind advance fun _ => pure _
  | none => exact failIdentifier

theorem finishStatement (always : Bool) : I.Timely known (finishStatement always) := by
  refine bind (eat .semicolon) fun eaten => ite _ (read fun s => ?_) (pure ())
  exact ite _ (ite _ (warnUnless _ _ _ rfl) (pure ())) (warnAt _ _ rfl)

theorem consumeSemicolon : I.Timely known consumeSemicolon := finishStatement false

/-! ## Names and counts -/

theorem modifyScopes {f : Scope.Tracker → Setting.Layers → Scope.Tracker}
    (hCalm : ∀ t layers, t.Calm → (f t layers).Calm)
    (hWithin : ∀ line, (∀ n ∈ known, n ≤ line) → ∀ t layers, t.Within line →
    (f t layers).Within line) : I.Timely known (modifyScopes f) := by
  refine remain (fun line hKnown => .modifyScopes fun t layers hQuiet hLines => ?_)
    (placed_modifyScopes f)
  exact ⟨hCalm t layers hQuiet, hWithin line hKnown t layers hLines⟩

theorem checkCamelCase (name : String) {line : Nat} (column : Nat) [h : Known known line] :
    I.Timely known (checkCamelCase name line column) :=
  ite _ (warnIf _ _ _ rfl) (pure ())

theorem declare (name : String) (kind : Scope.BindingKind) {line : Nat} (column : Nat)
    [h : Known known line] : I.Timely known (declare name kind line column) := by
  refine when _ (checkCamelCase name column) fun _ => bind ?_ fun _ => flushScopes
  refine modifyScopes
    (fun t layers ht => ht.evolves (t.evolves_declare name line column kind layers)) ?_
  exact fun last hKnown t layers ht => ht.declare name kind (hKnown line h.mem) layers

theorem reference (name : String) {line : Nat} (column : Nat) [h : Known known line] :
    I.Timely known (reference name line column) := by
  refine bind ?_ fun _ => flushScopes
  refine modifyScopes (fun t layers ht => ht.evolves (t.evolves_reference name line column layers))
    ?_
  exact fun last hKnown t layers ht => ht.reference name layers (hKnown line h.mem)

theorem assign (name : String) {line : Nat} (column : Nat) [h : Known known line] :
    I.Timely known (assign name line column) := by
  refine bind ?_ fun _ => flushScopes
  refine modifyScopes (fun t layers ht => ht.evolves (t.evolves_assign name line column layers)) ?_
  exact fun last hKnown t layers ht => ht.assign name layers (hKnown line h.mem)

theorem referenceGuarded (name : String) (line : Nat) :
    I.Timely known (Parse.modifyScopes fun t _ => t.referenceGuarded name line) :=
  modifyScopes (fun t _ ht => ht.evolves (t.evolves_referenceGuarded name line))
    fun _ _ _ _ ht => ht.referenceGuarded name line

theorem addLabel (label : String) :
    I.Timely known (Parse.modifyScopes fun t _ => t.addLabel label) :=
  modifyScopes (fun _ _ ht => ht) fun _ _ _ _ ht => ht.addLabel label

theorem count (f : Metrics → Metrics) : I.Timely known (modifyMetrics f) :=
  alter fun _ => .of_eq rfl

theorem setHint (name : Option String) : I.Timely known (setHint name) := alter fun _ => .of_eq rfl

theorem makeStrict : I.Timely known Grammar.makeStrict := alter fun _ => .of_eq rfl

end Timely

end Input

end ScriptLint
