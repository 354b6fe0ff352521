import ScriptLint.Lint
import ScriptLint.Proofs.Grammar.Steady

/-!
# What is opened is closed

Frames, overlays, function contexts, counters and levels are opened and closed by parsers that
contain others. Every parser of the grammar leaves them as it found them, also when it gives up on
its statement and when the run stops within it.

- `Session.standing`: what is open in a session.
- `Session.place`: what is counted at the current place. A run that stops may leave it changed.
- `balance`: the contract to keep both.
- `balanced`: the congruence that makes it hold of the whole grammar. The parts of a function are
  the exception: they may leave one overlay open, and say so in the context of the function.
- `openings_balanced`: the contract in terms of the session, and what it means for whole runs.
-/

namespace ScriptLint

/-- What is open at a place of the program. -/
structure Standing where
  frames : Stack Scope.FrameId
  overlays : Nat
  /-- The contexts around the innermost one. -/
  contexts : List Context
  /-- The innermost function has its overlay open. -/
  overlayOpen : Bool
  /-- The functions being counted around the innermost one. -/
  functions : List OpenFunction
  nesting : Nat

/-- What is counted at a place of the program. -/
structure Place where
  noIn : Bool
  blocks : Nat
  loops : Nat

namespace Session

def standing (s : Session) : Standing where
  frames := s.scopes.active
  overlays := s.layers.depth
  contexts := s.contexts.below
  overlayOpen := s.context.overlayOpen
  functions := s.metrics.opened.below
  nesting := s.nesting

def place (s : Session) : Place where
  noIn := s.noIn
  blocks := s.metrics.depth
  loops := s.context.loopDepth

/-- What is open depends on parts of the session that are not disturbed. -/
theorem Undisturbed.standing {s t : Session} (h : s.Undisturbed t) : t.standing = s.standing := by
  simp only [Session.standing, h.scopes.active, h.overlays, h.contexts, h.overlayOpen, h.functions,
    h.nesting]

/-- So does the place within the open function. -/
theorem Undisturbed.place {s t : Session} (h : s.Undisturbed t) : t.place = s.place := by
  simp only [Session.place, h.noIn, h.blocks, h.loops]

end Session

/-- The contract to leave what is open as it was, and the counts too if the run goes on. -/
def balance : Contract where
  Goes s t := t.standing = s.standing ∧ t.place = s.place
  Stops s t := t.standing = s.standing
  refl _ := ⟨rfl, rfl⟩
  trans h h' := ⟨h'.1.trans h.1, h'.2.trans h.2⟩
  stop h h' := h'.trans h.1

/-- What disturbs nothing opens and closes nothing. -/
theorem balance_of_steady {α : Type} {p : Parse α} (h : steady.Keeps p) : balance.Keeps p :=
  h.imp (fun _ _ h => ⟨h.standing, h.place⟩) fun _ _ h => h.standing

/-! ## Frames, blocks, loops and levels -/

namespace Grammar

open Parse

variable {α : Type} {p : Parse α}

theorem balance_clearingHint (h : balance.Keeps p) : balance.Keeps p.clearingHint :=
  fun s => (h s).ensuring (fun _ => id) fun _ => id

/-- The flag for `in` is put back, whatever becomes of the parser. -/
theorem balance_withNoIn (noIn : Bool) (h : balance.Keeps p) :
    balance.Keeps (Parse.withNoIn noIn p) := by
  intro s
  refine (h { s with noIn }).ensuring (fun t ht => ⟨ht.1, ?_⟩) fun _ => id
  have hPlace := ht.2
  simp only [Session.place, Place.mk.injEq, true_and] at hPlace ⊢
  exact hPlace.2

/-- A frame is entered and left. -/
theorem balance_withFrame (kind : Scope.FrameKind) (h : balance.Keeps p) :
    balance.Keeps (Grammar.withFrame kind p) := by
  have hClosed (s t : Session)
      (ht : t.standing = { s.standing with frames := (s.scopes.enter kind).active }) :
      Session.standing { t with scopes := t.scopes.exit t.layers } = s.standing := by
    simp only [Session.standing, Standing.mk.injEq] at ht ⊢
    rw [Scope.Tracker.active_exit, ht.1]
    exact ⟨rfl, ht.2⟩
  refine Ends.around h (fun s t ht => ?_) fun s t ht => ?_
  · exact ⟨hClosed s t ht.1, ht.2⟩
  · exact hClosed s t ht

/-- A block is left as often as it is entered, also when the run stops before its first statement.
-/
theorem balance_insideBlock (opener : Token) (h : balance.Keeps p) :
    balance.Keeps (Grammar.insideBlock opener p) := by
  intro s
  obtain ⟨j, -, hEnter | hEnter⟩ := enterBlock_run opener s
  · unfold insideBlock
    rw [bind_of_ok hEnter]
    refine (balance_withFrame .block h _).ensuring (fun t ht => ⟨ht.1, ?_⟩) fun _ => id
    -- the place inside is one block deeper than the place outside
    have hPlace := ht.2
    simp only [Session.place, Place.mk.injEq] at hPlace ⊢
    refine ⟨hPlace.1, ?_, hPlace.2.2⟩
    show t.metrics.depth - 1 = s.metrics.depth
    rw [hPlace.2.1]
    rfl
  · unfold insideBlock
    rw [bind_of_error hEnter]
    rfl

/-- The loop is counted in the context of the function it is in. -/
theorem balance_insideLoop (h : balance.Keeps p) : balance.Keeps (Grammar.insideLoop p) := by
  refine Ends.around h (fun s t ht => ⟨ht.1, ?_⟩) fun _ _ => id
  have hPlace := ht.2
  simp only [Session.place, Place.mk.injEq] at hPlace ⊢
  refine ⟨hPlace.1, hPlace.2.1, ?_⟩
  show t.context.loopDepth - 1 = s.context.loopDepth
  rw [hPlace.2.2]
  rfl

theorem balance_below (h : balance.Keeps p) : balance.Keeps p.below := by
  have hClosed (s t : Session) (ht : t.standing = { s.standing with nesting := s.nesting + 1 }) :
      Session.standing { t with nesting := t.nesting - 1 } = s.standing := by
    simp only [Session.standing, Standing.mk.injEq] at ht ⊢
    obtain ⟨hFrames, hOverlays, hContexts, hOpen, hFunctions, hNesting⟩ := ht
    exact ⟨hFrames, hOverlays, hContexts, hOpen, hFunctions, by rw [hNesting, Nat.add_sub_cancel]⟩
  refine Ends.around h (fun s t ht => ?_) fun s t ht => ?_
  · exact ⟨hClosed s t ht.1, ht.2⟩
  · exact hClosed s t ht

theorem balance_tooDeep : balance.Keeps (tooDeep : Parse α) := fun _ => rfl

/-- A level is left again, or the run stops before it is entered. -/
theorem balance_deeper (h : balance.Keeps p) : balance.Keeps p.deeper :=
  balance.read fun _ => balance.ite _ (balance_below h) balance_tooDeep

/-! ## Functions -/

/-- What the parts of a function may do: leave an overlay open, with notice in the context. -/
def PartsStanding (s t : Session) : Prop :=
  s.context.overlayOpen = false →
    ∃ o : Bool, t.standing =
      { s.standing with overlays := s.layers.depth + o.toNat, overlayOpen := o }

/-- The contract of the parts of a function. -/
def BalancedParts (p : Parse α) : Prop :=
  p.Ends (fun s t => PartsStanding s t ∧ t.noIn = s.noIn) PartsStanding

/-- A function whose body has not started has opened no overlay yet. -/
theorem PartsStanding.of_standing {s t : Session} (h : t.standing = s.standing) :
    PartsStanding s t := by
  intro hClosed
  refine ⟨false, h.trans ?_⟩
  simp only [Session.standing, hClosed, Bool.toNat_false, Nat.add_zero]

/-- What balances after the overlay was opened keeps it open. -/
theorem PartsStanding.trans {s t u : Session} (h : PartsStanding s t)
    (h' : u.standing = t.standing) : PartsStanding s u :=
  fun hClosed => (h hClosed).imp fun _ ho => h'.trans ho

/-- What balances before the parts makes no difference to them. -/
theorem PartsStanding.after {s t u : Session} (h : t.standing = s.standing)
    (h' : PartsStanding t u) : PartsStanding s u := by
  intro hClosed
  simp only [Session.standing, Standing.mk.injEq] at h
  obtain ⟨hFrames, hOverlays, hContexts, hOpen, hFunctions, hNesting⟩ := h
  obtain ⟨o, ho⟩ := h' (hOpen.trans hClosed)
  refine ⟨o, ho.trans ?_⟩
  simp only [Session.standing, hFrames, hOverlays, hContexts, hFunctions, hNesting]

theorem noIn_of_place {s t : Session} (h : t.place = s.place) : t.noIn = s.noIn :=
  congrArg Place.noIn h

/-- A part that opens no overlay may stand before the body. -/
theorem balancedParts_of_balance (h : balance.Keeps p) : BalancedParts p :=
  h.imp (fun _ _ ht => ⟨.of_standing ht.1, noIn_of_place ht.2⟩) fun _ _ => .of_standing

/-- The overlay is opened in the second part. -/
theorem balancedParts_bind {β : Type} {f : α → Parse β} (hp : balance.Keeps p)
    (hf : ∀ a, BalancedParts (f a)) : BalancedParts (p >>= f) := by
  refine Ends.bind hp hf ?_ ?_ ?_ ?_
  · exact fun s t ht => ⟨.of_standing ht.1, noIn_of_place ht.2⟩
  · exact fun s t => .of_standing
  · exact fun s t u ht hu => ⟨.after ht.1 hu.1, hu.2.trans (noIn_of_place ht.2)⟩
  · exact fun s t u ht hu => .after ht.1 hu

/-- The overlay is opened in the first part and stays open in the second one. -/
theorem balancedParts_then {β : Type} {f : α → Parse β} (hp : BalancedParts p)
    (hf : ∀ a, balance.Keeps (f a)) : BalancedParts (p >>= f) := by
  refine Ends.bind hp hf (fun _ _ => id) (fun _ _ => id) ?_ ?_
  · exact fun s t u ht hu => ⟨ht.1.trans hu.1, (noIn_of_place hu.2).trans ht.2⟩
  · exact fun s t u ht hu => ht.1.trans hu

/-- The overlay of a function is opened where its body starts. -/
theorem balancedParts_openOverlay {f : Unit → Parse α} (hf : ∀ u, balance.Keeps (f u)) :
    BalancedParts (Grammar.openOverlay >>= f) := by
  intro s
  refine (hf () _).imp (fun t ht => ?_) fun t ht => ?_
  · exact ⟨fun _ => ⟨true, ht.1⟩, noIn_of_place ht.2⟩
  · exact fun _ => ⟨true, ht⟩

/-- What a function opened is closed, its overlay included. -/
theorem standing_withoutFunction {s t : Session} {kind : FunctionKind} {name : Option String}
    {line column : Nat} (h : PartsStanding (withFunction s kind name line column) t) :
    (withoutFunction t).standing = s.standing ∧
      (withoutFunction t).metrics.depth = s.metrics.depth ∧
      (withoutFunction t).context.loopDepth = s.context.loopDepth := by
  obtain ⟨o, ho⟩ := h rfl
  simp only [Session.standing, Standing.mk.injEq] at ho
  obtain ⟨hFrames, hOverlays, hContexts, hOpen, hFunctions, hNesting⟩ := ho
  have hScopes : (t.scopes.exit t.layers).active = s.scopes.active := by
    rw [Scope.Tracker.active_exit, hFrames]
    rfl
  have hContext : t.contexts.pop = s.contexts := Stack.pop_of_below hContexts
  have hMetrics : t.metrics.closeFunction.opened = s.metrics.opened := by
    unfold Metrics.closeFunction Metrics.innermost? Stack.isBottom
    rw [hFunctions]
    exact Stack.pop_of_below hFunctions
  have hLayers :
      (if t.context.overlayOpen then t.layers.pop else t.layers).depth = s.layers.depth := by
    rw [hOpen]
    cases o with
    | false => exact hOverlays
    | true => exact Stack.depth_pop_of_depth hOverlays
  refine ⟨?_, congrArg (·.top.depth) hMetrics, congrArg (·.top.loopDepth) hContext⟩
  simp only [Session.standing, withoutFunction, hScopes, hMetrics, hLayers, hNesting]
  rw [Session.context, hContext]
  rfl

/-- A function closes its overlay if its body has opened one, and its frame, its context and its
metrics in any case. -/
theorem balance_insideFunction (kind : FunctionKind) (name : Option String) (line column : Nat)
    (h : BalancedParts p) : balance.Keeps (Grammar.insideFunction kind name line column p) := by
  intro s
  refine (h (withFunction s kind name line column)).insideFunction ?_ ?_ fun _ => And.left
  -- the parts went on, so the place within the outer function is known as well
  · rintro t ⟨ht, hNoIn⟩
    obtain ⟨hStanding, hBlocks, hLoops⟩ := standing_withoutFunction ht
    have hPlace : (withoutFunction t).place = s.place := by
      rw [Session.place, hBlocks, hLoops]
      exact congrArg (Place.mk · _ _) hNoIn
    have hClosed (u : Session) (hu : (withoutFunction t).Steady u) : balance.Goes s u :=
      ⟨hu.standing.trans hStanding, hu.place.trans hPlace⟩
    exact (closeFunction_ends line column t).imp hClosed hClosed
  -- the run stopped within the parts, where blocks may be left open
  · intro t ht
    have hClosed (u : Session) (hu : (withoutFunction t).Steady u) : balance.Stops s u :=
      hu.standing.trans (standing_withoutFunction ht).1
    exact (closeFunction_ends line column t).imp hClosed hClosed

/-! ## The grammar -/

/-- Being balanced is respected by the grammar. -/
def balanced : Congruence where
  hides _ := False
  Rel p _ := balance.Keeps p
  Parts p _ := BalancedParts p
  pure := balance.pure
  bind := balance.bind
  read h := balance.read fun s => h s s (.refl _ s)
  warnAt _ line column h :=
    balance_of_steady (steady_passable.warnAt line column (Finding.isOrdinary_of_isLocal h))
  governs_ne := governs_ne_of_false
  quiet _ _ := False.elim
  loud _ _ := False.elim
  step h := balance_of_steady (steady_steps.step h)
  prologueRound := balance.prologueRound (balance_of_steady (steady_passable.peek 0))
  loop h := balance.loop (fun _ => rfl) h
  recursive h := balance.recursive (fun _ => rfl) fun p => h p p
  recover := balance.recover
  clearingHint := balance_clearingHint
  withNoIn := balance_withNoIn
  withFrame := balance_withFrame
  insideBlock := balance_insideBlock
  insideLoop := balance_insideLoop
  parts := balancedParts_of_balance
  bindParts := balancedParts_bind
  partsBind := balancedParts_then
  openOverlay := balancedParts_openOverlay
  insideFunction := balance_insideFunction

/-- Parsers that balance do so on the next level. -/
theorem balanced_deeper {parsers parsers' : Nested} (h : balanced.Nested parsers parsers') :
    balanced.Nested parsers.deeper parsers'.deeper where
  statement := balance_deeper h.statement
  expression power := balance_deeper (h.expression power)
  binding kind := balance_deeper (h.binding kind)
  construction := balance_deeper h.construction

/-- By induction on the levels: the parsers of each are made from those of the next. -/
theorem balanced_levels (n : Nat) : balanced.Nested (levels n) (levels n) := by
  induction n with
  | zero =>
    exact ⟨balance_tooDeep, fun _ => balance_tooDeep, fun _ => balance_tooDeep, balance_tooDeep⟩
  | succ n ih => exact balanced_deeper ih.forms

end Grammar

/-! ## Runs -/

namespace Parse

/-- A whole program closes what it opens, also when it stops. -/
theorem balance_program (problems : List Setting.Problem) : balance.Keeps (program problems) := by
  have hProblems := balance_of_steady (steady_passable.reportProblems problems 0 0)
  refine balance.bind hProblems fun _ => ?_
  refine balance.bind (balance_of_steady steady_passable.advance) fun _ => ?_
  refine balance.bind (Grammar.Congruence.Nested.prologue (K := Grammar.balanced)) fun _ => ?_
  exact Grammar.balanced.discard ((Grammar.balanced_levels maxNesting).statementList .program)

end Parse

namespace Session

/-- The same frames are active, and as many overlays, contexts, counted functions and levels
open. -/
structure SameOpen (s t : Session) : Prop where
  frames : t.scopes.active = s.scopes.active
  overlays : t.layers.depth = s.layers.depth
  contexts : t.contexts.depth = s.contexts.depth
  functions : t.metrics.opened.depth = s.metrics.opened.depth
  nesting : t.nesting = s.nesting

/-- The word `in` is allowed as before, within as many blocks and loops of the function. -/
structure SamePlace (s t : Session) : Prop where
  noIn : t.noIn = s.noIn
  blocks : t.metrics.depth = s.metrics.depth
  loops : t.context.loopDepth = s.context.loopDepth

/-- Nothing else is open if the standing is the same. -/
theorem SameOpen.of_standing {s t : Session} (h : t.standing = s.standing) : s.SameOpen t where
  frames := congrArg Standing.frames h
  overlays := congrArg Standing.overlays h
  contexts := congrArg (·.contexts.length + 1) h
  functions := congrArg (·.functions.length + 1) h
  nesting := congrArg Standing.nesting h

/-- The place tells the open blocks and loops and the flag for `in`. -/
theorem SamePlace.of_place {s t : Session} (h : t.place = s.place) : s.SamePlace t where
  noIn := congrArg Place.noIn h
  blocks := congrArg Place.blocks h
  loops := congrArg Place.loops h

/-- The options of a run open one overlay. -/
theorem start_overlays (source : String) (options : Options) (globals : Option Predefined.Globals) :
    (start source options globals).layers.depth = 1 := by
  have hFold (layers : Setting.Layers) (triggers : List Setting) :
      (triggers.foldl Setting.Layers.applyImplied layers).depth = layers.depth := by
    induction triggers generalizing layers with
    | nil => rfl
    | cons trigger rest ih => exact (ih _).trans (layers.depth_applyImplied trigger)
  exact hFold _ _

end Session

/-- Leaves what is open as it was, and the place too unless the run stops. -/
def Parse.Restores {α : Type} (p : Parse α) : Prop :=
  p.Ends (fun s t => s.SameOpen t ∧ s.SamePlace t) Session.SameOpen

/-- A parser that balances restores whatever was open, in all three outcomes. -/
theorem Parse.restores_of_balance {α : Type} {p : Parse α} (h : balance.Keeps p) : p.Restores :=
  h.imp (fun _ _ ht => ⟨.of_standing ht.1, .of_place ht.2⟩) fun _ _ => .of_standing

open Grammar in
/-- Statements, expressions, binding targets, `new` expressions and functions close what they open
whatever their outcome, so that every run reaches its end with only what is global open. -/
theorem openings_balanced :
    (∀ n, (levels n).statement.Restores ∧
      (∀ power, ((levels n).expression power).Restores) ∧
      (∀ kind, ((levels n).binding kind).Restores) ∧
      (levels n).construction.Restores ∧
      ∀ kind name line column, (function (levels n) kind name line column).Restores) ∧
    ∀ source options globals, ∃ s,
      Parse.run (Setting.Layers.ofOptions options).2 (.start source options globals) =
        Parse.finish s ∧
      s.scopes.active = ⟨0, []⟩ ∧ s.layers.depth = 1 ∧ s.contexts.depth = 1 ∧
      s.metrics.opened.depth = 1 ∧ s.nesting = 0 := by
  constructor
  · intro n
    have h := balanced_levels n
    refine ⟨Parse.restores_of_balance h.statement, fun power => ?_, fun kind => ?_, ?_, ?_⟩
    · exact Parse.restores_of_balance (h.expression power)
    · exact Parse.restores_of_balance (h.binding kind)
    · exact Parse.restores_of_balance h.construction
    · intro kind name line column
      exact Parse.restores_of_balance (h.function kind name line column)
  · intro source options globals
    let problems := (Setting.Layers.ofOptions options).2
    have hProgram := Parse.balance_program problems (.start source options globals)
    have hEnd : ∃ s, Parse.run problems (.start source options globals) = Parse.finish s ∧
        s.standing = (Session.start source options globals).standing := by
      cases hr : Parse.program problems (.start source options globals) with
      | ok u s =>
        rw [hr] at hProgram
        exact ⟨s, Parse.bind_of_ok (Parse.bind_of_ok (Parse.outcome_of_ok hr)), hProgram.1⟩
      | error e s =>
        rw [hr] at hProgram
        refine ⟨s, Parse.bind_of_ok (Parse.bind_of_ok (Parse.outcome_of_error hr)), ?_⟩
        cases e with
        | badSyntax => exact hProgram.1
        | halt => exact hProgram
    obtain ⟨s, hRun, hStanding⟩ := hEnd
    have hOpen := Session.SameOpen.of_standing hStanding
    refine ⟨s, hRun, hOpen.frames, ?_, hOpen.contexts, hOpen.functions, hOpen.nesting⟩
    exact hOpen.overlays.trans (Session.start_overlays source options globals)

end ScriptLint
