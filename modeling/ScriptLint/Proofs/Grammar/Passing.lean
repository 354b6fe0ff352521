import ScriptLint.Proofs.Grammar.Contract

/-!
# Moving through the tokens

Consuming a token checks it, passes comments on the way to the next one, carries out their
directives and checks the lines that end there. A contract is kept by all that if it allows the few
changes of the session that it is made of.

- `Journal.Grows`, `Journal.Ignores`: how the journal changes on the way.
- `Diagnostic.Ordinary`: where the diagnostics come from.
- `Contract.Attentive`: a contract that allows the checks of tokens and lines.
- `Contract.Passable`: a contract that allows all the changes.
- `Contract.Passable.advance`: consuming a token keeps such a contract.
- `Contract.Steppable`: a contract that every step of the grammar keeps.
-/

namespace ScriptLint

/-! ## Diagnostics -/

namespace Journal

/-- New diagnostics are not about unrecoverable errors. -/
def Grows (j k : Journal) : Prop := ∀ d ∈ k.kept, d ∈ j.kept ∨ d.code ≠ "E041"

namespace Grows

theorem refl (j : Journal) : j.Grows j := fun _ => .inl

/-- Growth is transitive. -/
theorem trans {j k l : Journal} (h : j.Grows k) (h' : k.Grows l) : j.Grows l :=
  fun d hd => (h' d hd).elim (h d) .inr

/-- A journal with one ordinary diagnostic more has grown. -/
theorem cons {j k : Journal} {d : Diagnostic} (h : d.code ≠ "E041") (hk : k.kept = d :: j.kept) :
    j.Grows k := by
  intro e he
  rw [hk] at he
  rcases List.mem_cons.mp he with rfl | he
  · exact .inr h
  · exact .inl he

/-- A diagnostic that is recorded is the only one added. -/
theorem record (j : Journal) {d : Diagnostic} (h : d.code ≠ "E041") : j.Grows (j.record d) := by
  unfold Journal.record
  split
  · exact cons h rfl
  · exact refl j

/-- A run that halts adds its last diagnostic. -/
theorem halt (j : Journal) {d : Diagnostic} (h : d.code ≠ "E041") : j.Grows (j.halt d) := by
  unfold Journal.halt
  split
  · exact refl j
  · exact cons h rfl

end Grows

/-- Something is ignored from here on: diagnostics may be dropped, none is added. -/
structure Ignores (j k : Journal) : Prop where
  kept : ∀ d ∈ k.kept, d ∈ j.kept
  halted : k.halted = j.halted

namespace Ignores

/-- Ignoring only takes away. -/
theorem grows {j k : Journal} (h : j.Ignores k) : j.Grows k := fun d hd => .inl (h.kept d hd)

theorem ignoreCode (j : Journal) (code : String) :
    j.Ignores (j.ignoreCode code) := ⟨fun _ => id, rfl⟩

theorem ignoreLine (j : Journal) (line : Nat) : j.Ignores (j.ignoreLine line) :=
  ⟨fun _ hd => (List.mem_filter.mp hd).1, rfl⟩

/-- Starting a region drops what was found on its first line, at most. -/
theorem startRegion (j : Journal) (line : Nat) : j.Ignores (j.startRegion line) := by
  unfold Journal.startRegion
  split
  · exact ⟨fun _ => id, rfl⟩
  · exact ⟨fun _ hd => (List.mem_filter.mp hd).1, rfl⟩

/-- Ending a region ignores its lines. -/
theorem endRegion (j : Journal) (line : Nat) : j.Ignores (j.endRegion line) := by
  unfold Journal.endRegion
  split
  · exact ⟨fun _ => id, rfl⟩
  · exact ⟨fun _ => id, rfl⟩

end Ignores

theorem halted_halt (j : Journal) (last : Diagnostic) : (j.halt last).halted := by
  unfold halt
  split
  · assumption
  · rfl

/-- A journal that was halted takes nothing more. -/
theorem record_of_halted {j : Journal} (h : j.halted) (d : Diagnostic) : j.record d = j := by
  rw [record, keeps, h]
  rfl

end Journal

/-- No ordinary finding is the unrecoverable error. -/
theorem Finding.code_ne_of_isOrdinary {f : Finding} (h : f.isOrdinary) : f.code ≠ "E041" := by
  cases f with
  | unrecoverable _ | stopping _ => cases h
  | _ => exact ne_of_beq_false rfl

theorem LexProblem.code_ne (p : LexProblem) : p.code ≠ "E041" := by
  cases p <;> exact ne_of_beq_false rfl

theorem Setting.Problem.code_ne (p : Setting.Problem) : p.code ≠ "E041" := by
  cases p <;> exact ne_of_beq_false rfl

/-- Nor is it the stop at the first finding. -/
theorem Finding.code_ne_stopping {f : Finding} (h : f.isOrdinary) : f.code ≠ "E042" := by
  cases f with
  | unrecoverable _ | stopping _ => cases h
  | _ => exact ne_of_beq_false rfl

theorem LexProblem.code_ne_stopping (p : LexProblem) : p.code ≠ "E042" := by
  cases p <;> exact ne_of_beq_false rfl

theorem Setting.Problem.code_ne_stopping (p : Setting.Problem) : p.code ≠ "E042" := by
  cases p <;> exact ne_of_beq_false rfl

/-- Where a diagnostic comes from while a run goes on: a finding, a rejected option or a lexing
error. -/
inductive Diagnostic.Ordinary : Diagnostic → Prop
  | finding {f : Finding} (line column : Nat) (h : f.isOrdinary) :
    Ordinary (f.diagnostic line column)
  | option (problem : Setting.Problem) (line column : Nat) :
    Ordinary ⟨line, column, problem.code, problem.message, .configuration⟩
  | lexing (problem : LexProblem) (line column : Nat) :
    Ordinary ⟨line, column, problem.code, problem.message, .lexical⟩

namespace Diagnostic.Ordinary

variable {d : Diagnostic}

/-- No ordinary diagnostic is the unrecoverable error. -/
theorem code_ne (h : d.Ordinary) : d.code ≠ "E041" := by
  cases h with
  | finding line column h => exact Finding.code_ne_of_isOrdinary h
  | option problem line column => exact problem.code_ne
  | lexing problem line column => exact problem.code_ne

/-- Nor is it the stop at the first finding. -/
theorem code_ne_stopping (h : d.Ordinary) : d.code ≠ "E042" := by
  cases h with
  | finding line column h => exact Finding.code_ne_stopping h
  | option problem line column => exact problem.code_ne_stopping
  | lexing problem line column => exact problem.code_ne_stopping

end Diagnostic.Ordinary

/-! ## Settings -/

namespace Setting.Layers

variable (layers : Layers)

/-- An implied setting opens no layer. -/
theorem depth_applyImplied (trigger : Setting) :
    (layers.applyImplied trigger).depth = layers.depth := by
  unfold applyImplied
  split
  · split
    · rfl
    · rfl
  · rfl

/-- A setting opens no layer. -/
theorem depth_of_set {layers : Layers} {s : Setting} {value : Value} {atGlobal : Bool}
    {changed : Layers}
    (h : layers.set s value atGlobal = .ok changed) : changed.depth = layers.depth := by
  unfold set at h
  split at h
  · cases h
  · split at h
    · cases h
    · obtain rfl := Except.ok.inj h
      split
      · exact depth_applyImplied _ _
      · rfl

end Setting.Layers

/-! ## Lines and settings -/

namespace Parse

/-- Reports the lines of `lengths` that are too long, if their length is limited. -/
def limitLines (line : Nat) (lengths : List Nat) : Option Nat → Parse Unit
  | some limit => warnLongLines limit line lengths
  | none => pure ()

/-- The lines before the given one that have not been checked are checked. -/
theorem checkLinesBefore_apply (line : Nat) (s : Session) :
    checkLinesBefore line s =
      let checked := s.uncheckedLines.splitAt (line - 1 - s.checkedLines)
      limitLines (s.checkedLines + 1) checked.1 (s.layers.limit? .maxlen)
        { s with checkedLines := s.checkedLines + checked.1.length, uncheckedLines := checked.2 } :=
  rfl

/-- Predefines the names of the environment that a setting stands for, if its value turns it on. -/
def predefine (setting : Setting) (value : Setting.Value) : Parse Unit :=
  if value.isOn then
    match Predefined.environment? setting with
    | some names => modifyScopes fun t _ => t.addGlobals names
    | none => pure ()
  else pure ()

theorem get_bind_apply {α : Type} (f : Session → Parse α) (s : Session) :
    (get >>= f) s = f s s := rfl

variable {setting : Setting} {value : Setting.Value} {atGlobal : Bool} {s : Session}

/-- An accepted setting changes the layers, and may predefine globals. -/
theorem applyEntry_of_ok {layers : Setting.Layers}
    (h : s.layers.set setting value atGlobal = .ok layers) (line column : Nat) :
    applyEntry (.setOption setting value) atGlobal line column s =
      predefine setting value { s with layers } := by
  rw [applyEntry, get_bind_apply, h]
  rfl

/-- A refused setting is reported and changes nothing. -/
theorem applyEntry_of_error {problem : Setting.Problem}
    (h : s.layers.set setting value atGlobal = .error problem) (line column : Nat) :
    applyEntry (.setOption setting value) atGlobal line column s =
      reportProblem problem line column s := by
  rw [applyEntry, get_bind_apply, h]

/-- A report leaves the contexts alone. -/
theorem contexts_emit {d : Diagnostic} {t : Session} (h : emit d s = .ok () t) :
    t.contexts = s.contexts := by
  unfold emit at h
  dsimp only at h
  split at h
  · cases h
  · exact (EStateM.Result.ok.inj h).2 ▸ rfl

/-- So do predefined globals. -/
theorem contexts_predefine {t : Session} (setting : Setting) (value : Setting.Value)
    (h : predefine setting value s = .ok () t) : t.contexts = s.contexts := by
  by_cases hOn : value.isOn
  · rw [predefine, if_pos hOn] at h
    cases hNames : Predefined.environment? setting with
    | none =>
      rw [hNames] at h
      exact (EStateM.Result.ok.inj h).2 ▸ rfl
    | some names =>
      rw [hNames] at h
      exact (EStateM.Result.ok.inj h).2 ▸ rfl
  · rw [predefine, if_neg hOn] at h
    exact (EStateM.Result.ok.inj h).2 ▸ rfl

/-- An item of a directive opens and closes no function. -/
theorem inGlobalCode_applyEntry {entry : Directive.Entry} {line column : Nat} {t : Session}
    (h : applyEntry entry atGlobal line column s = .ok () t) : t.inGlobalCode = s.inGlobalCode := by
  refine congrArg Stack.isBottom ?_
  cases entry with
  | setOption setting value =>
    cases hSet : s.layers.set setting value atGlobal with
    | ok layers =>
      rw [applyEntry_of_ok hSet] at h
      exact contexts_predefine (s := { s with layers }) setting value h
    | error problem =>
      rw [applyEntry_of_error hSet] at h
      exact contexts_emit h
  | ignore change => cases change <;> exact (EStateM.Result.ok.inj h).2 ▸ rfl
  | _ => exact (EStateM.Result.ok.inj h).2 ▸ rfl

end Parse

/-! ## Consuming tokens -/

/-- Only what was checked is noted. -/
def Session.Noted (s t : Session) : Prop :=
  ∃ checkedLines uncheckedLines firstQuote, t = { s with checkedLines, uncheckedLines, firstQuote }

/-- Only the place of the parser in the source changes. -/
def Session.Moved (s t : Session) : Prop :=
  ∃ stream token previous consumed checkedLines uncheckedLines firstQuote,
    t = { s with stream, token, previous, consumed, checkedLines, uncheckedLines, firstQuote }

namespace Contract

open Parse

/-- A contract that allows the checks of tokens and lines. -/
structure Attentive (C : Contract) : Prop where
  warnAt {f : Finding} (line column : Nat) (hf : f.isOrdinary) : C.Keeps (warnAt f line column)
  noted {s t : Session} (h : s.Noted t) : C.Goes s t

namespace Attentive

variable {C : Contract} (h : C.Attentive)
include h

theorem failAt {α : Type} {f : Finding} (t : Token) (hf : f.isOrdinary) :
    C.Keeps (failAt f t : Parse α) :=
  C.bind (h.warnAt _ _ hf) fun _ => C.giveUp

theorem warnUnless (s : Setting) {f : Finding} (line column : Nat) (hf : f.isOrdinary) :
    C.Keeps (warnUnless s f line column) :=
  C.read fun _ => C.ite _ (h.warnAt line column hf) (C.pure ())

/-- The check of quotes only warns. -/
theorem checkQuote (quote : Char) (line column : Nat) : C.Keeps (checkQuote quote line column) := by
  refine C.readAt fun s => ?_
  cases s.layers.quotePolicy with
  | off => exact C.pure () s
  | single => exact C.ite _ (h.warnAt _ _ rfl) (C.pure ()) s
  | double => exact C.ite _ (h.warnAt _ _ rfl) (C.pure ()) s
  | consistent =>
    cases s.firstQuote with
    | none => exact h.noted ⟨_, _, some quote, rfl⟩
    | some first => exact C.ite _ (h.warnAt _ _ rfl) (C.pure ()) s

/-- The checks of a consumed token only warn. -/
theorem checkConsumed : C.Keeps checkConsumed := by
  have hUnless (c : Prop) [Decidable c] {f g : Parse Unit} (hf : C.Keeps f) (hg : C.Keeps g) :
      C.Keeps (if c then f >>= fun _ => g else g) :=
    C.ite _ (C.bind hf fun _ => hg) hg
  refine C.read fun s => ?_
  dsimp only
  split
  · refine C.bind (h.checkQuote _ _ _) fun _ => ?_
    refine hUnless _ (h.warnAt _ _ rfl) (hUnless _ (h.warnUnless _ _ _ rfl) ?_)
    exact C.ite _ (h.warnUnless _ _ _ rfl) (C.pure ())
  · exact C.ite _ (h.warnAt _ _ rfl) (C.pure ())
  · exact C.pure ()

/-- By induction on the lines left. -/
theorem warnLongLines (limit line : Nat) (lengths : List Nat) :
    C.Keeps (warnLongLines limit line lengths) := by
  induction lengths generalizing line with
  | nil => exact C.pure ()
  | cons length rest ih =>
    exact C.ite _ (C.bind (h.warnAt _ _ rfl) fun _ => ih (line + 1)) (ih (line + 1))

/-- The check of lines only warns. -/
theorem checkLinesBefore (line : Nat) : C.Keeps (checkLinesBefore line) := by
  refine C.readAt fun s => C.setAt (h.noted ⟨_, _, _, rfl⟩) ?_
  split
  · exact h.warnLongLines _ _ _
  · exact C.pure ()

end Attentive

/-- A contract that allows what is done on the way from one token to the next. -/
structure Passable (C : Contract) : Prop where
  emit {d : Diagnostic} (h : d.Ordinary) : C.Keeps (emit d)
  moved {s t : Session} (h : s.Moved t) : C.Goes s t
  layers {s : Session} {setting : Setting} {value : Setting.Value} {layers : Setting.Layers}
    (h : s.layers.set setting value s.inGlobalCode = .ok layers) : C.Goes s { s with layers }
  scopes {s : Session} {scopes : Scope.Tracker} (h : s.scopes.Evolves scopes) :
    C.Goes s { s with scopes }
  ignores {s : Session} {journal : Journal} (h : s.journal.Ignores journal) :
    C.Goes s { s with journal }

namespace Passable

variable {C : Contract} (h : C.Passable)
include h

theorem warnAt {f : Finding} (line column : Nat) (hf : f.isOrdinary) :
    C.Keeps (warnAt f line column) :=
  h.emit (.finding line column hf)

/-- What lets the steps of a parser pass attends to what they report. -/
theorem attentive : C.Attentive where
  warnAt := h.warnAt
  noted := by
    rintro s t ⟨_, _, _, rfl⟩
    exact h.moved ⟨_, _, _, _, _, _, _, rfl⟩

theorem failAt {α : Type} {f : Finding} (t : Token) (hf : f.isOrdinary) :
    C.Keeps (failAt f t : Parse α) :=
  h.attentive.failAt t hf

theorem modifyScopes {f : Scope.Tracker → Setting.Layers → Scope.Tracker}
    (hf : ∀ (t : Scope.Tracker) (layers : Setting.Layers), t.Evolves (f t layers)) :
    C.Keeps (modifyScopes f) :=
  C.modify fun s => h.scopes (hf s.scopes s.layers)

theorem checkQuote (quote : Char) (line column : Nat) : C.Keeps (checkQuote quote line column) :=
  h.attentive.checkQuote quote line column

theorem checkLinesBefore (line : Nat) : C.Keeps (checkLinesBefore line) :=
  h.attentive.checkLinesBefore line

theorem reportProblem (p : Setting.Problem) (line column : Nat) :
    C.Keeps (reportProblem p line column) :=
  h.emit (.option p line column)

theorem reportProblems (ps : List Setting.Problem) (line column : Nat) :
    C.Keeps (reportProblems ps line column) :=
  C.forM fun p _ => h.reportProblem p line column

/-- One case for each item of a directive. -/
theorem applyEntry (entry : Directive.Entry) (atGlobal : Bool) (line column : Nat) {s : Session}
    (hLayers : ∀ setting value layers, s.layers.set setting value atGlobal = .ok layers →
      C.Goes s { s with layers }) :
    Settles (C.Goes s) (C.Stops s) (Parse.applyEntry entry atGlobal line column s) := by
  cases entry with
  | setOption setting value =>
    cases hSet : s.layers.set setting value atGlobal with
    | ok layers =>
      have hPredefine : C.Keeps (predefine setting value) := by
        refine C.ite _ ?_ (C.pure ())
        split
        · exact h.modifyScopes fun _ _ => .silent rfl
        · exact C.pure ()
      rw [applyEntry_of_ok hSet]
      exact C.setAt (hLayers _ _ _ hSet) hPredefine
    | error problem =>
      rw [applyEntry_of_error hSet]
      exact h.reportProblem problem line column s
  | ignoreCode code => exact h.ignores (.ignoreCode s.journal code)
  | ignore change =>
    cases change with
    | start => exact h.ignores (.startRegion s.journal line)
    | stop => exact h.ignores (.endRegion s.journal line)
    | line => exact h.ignores (.ignoreLine s.journal line)
  | declareGlobal name writable => exact h.scopes (.silent rfl)
  | removeGlobal name => exact h.scopes (.silent rfl)
  | exportName name => exact h.scopes (.silent rfl)

/-- By induction on the items: each is carried out in the context of the directive. -/
theorem applyEntries (entries : List Directive.Entry) (line column : Nat) (s : Session) :
    Settles (C.Goes s) (C.Stops s)
      ((entries.forM fun entry => Parse.applyEntry entry s.inGlobalCode line column) s) := by
  induction entries generalizing s with
  | nil => exact C.pure () s
  | cons entry entries ih =>
    show Settles _ _
      ((Parse.applyEntry entry s.inGlobalCode line column >>= fun _ => entries.forM _) s)
    have hFirst := h.applyEntry entry s.inGlobalCode line column fun _ _ _ => h.layers
    cases hEntry : Parse.applyEntry entry s.inGlobalCode line column s with
    | error e t =>
      rw [hEntry] at hFirst
      rw [bind_of_error hEntry]
      exact hFirst
    | ok _ t =>
      rw [hEntry] at hFirst
      rw [bind_of_ok hEntry, ← inGlobalCode_applyEntry hEntry]
      exact (ih t).imp (fun _ => C.trans hFirst) fun _ => C.stop hFirst

/-- A noted result is passed on. -/
theorem note (result : Lexer.Result) : C.Keeps (note result) := by
  unfold Parse.note
  split
  · split
    · refine C.bind (h.reportProblems _ _ _) fun _ => C.readAt fun s => ?_
      exact h.applyEntries _ _ _ s
    · exact C.pure ()
  · exact h.emit (.lexing _ _ _)

/-- So is everything up to the next significant token. -/
theorem nextSignificant : C.Keeps nextSignificant := by
  refine C.readAt fun s => C.setAt (h.moved ⟨_, _, _, _, _, _, _, rfl⟩) ?_
  exact C.bind (C.forM fun result _ => h.note result) fun _ => C.pure _

/-- Consuming a token keeps the contract. -/
theorem advance : C.Keeps advance := by
  refine C.bind h.attentive.checkConsumed fun _ => ?_
  refine C.bind (C.modify fun _ => h.moved ⟨_, _, _, _, _, _, _, rfl⟩) fun _ => ?_
  refine C.bind h.nextSignificant fun next => ?_
  refine C.bind (C.modify fun _ => h.moved ⟨_, _, _, _, _, _, _, rfl⟩) fun _ => ?_
  exact h.checkLinesBefore next.line

/-- Looking ahead moves the stream only. -/
theorem peek (n : Nat) : C.Keeps (peek n) := fun _ => h.moved ⟨_, _, _, _, _, _, _, rfl⟩

theorem peekIs (test : Token → Bool) : C.Keeps (peekIs test) :=
  C.bind (h.peek 0) fun _ => C.pure _

end Passable

end Contract

/-! ## Steps -/

namespace Grammar

/-- A name that is used or declared lets the scopes evolve. -/
theorem evolves_nameStep {f : Scope.Tracker → Setting.Layers → Scope.Tracker} (h : NameStep f)
    (t : Scope.Tracker) (layers : Setting.Layers) : t.Evolves (f t layers) := by
  cases h with
  | declare name kind line column => exact t.evolves_declare name line column kind layers
  | reference name line column => exact t.evolves_reference name line column layers
  | assign name line column => exact t.evolves_assign name line column layers
  | referenceGuarded name line => exact t.evolves_referenceGuarded name line
  | addLabel label => exact .silent rfl

theorem isLocal_of_givesUp {f : Finding} (h : f.givesUp) : f.isLocal := by
  cases f <;> first | rfl | cases h

/-- Errors that give up are ordinary. -/
theorem isOrdinary_of_givesUp {f : Finding} (h : f.givesUp) : f.isOrdinary :=
  Finding.isOrdinary_of_isLocal (isLocal_of_givesUp h)

end Grammar

namespace Contract

open Grammar

/-- A contract that besides allows what the other steps of the grammar do. -/
structure Steppable (C : Contract) : Prop extends C.Passable where
  flushScopes : C.Keeps Parse.flushScopes
  count (f : FunctionMetrics → FunctionMetrics) : C.Keeps (Parse.modifyMetrics (·.count f))
  setHint (name : Option String) : C.Keeps (Parse.setHint name)
  makeStrict : C.Keeps makeStrict

/-- A contract that asks for less is such a contract too. -/
theorem Steppable.imp {C D : Contract} (hC : C.Steppable) (hGoes : ∀ s t, C.Goes s t → D.Goes s t)
    (hStops : ∀ s t, C.Stops s t → D.Stops s t) : D.Steppable where
  emit h := (hC.emit h).imp hGoes hStops
  moved h := hGoes _ _ (hC.moved h)
  layers h := hGoes _ _ (hC.layers h)
  scopes h := hGoes _ _ (hC.scopes h)
  ignores h := hGoes _ _ (hC.ignores h)
  flushScopes := hC.flushScopes.imp hGoes hStops
  count f := (hC.count f).imp hGoes hStops
  setHint name := (hC.setHint name).imp hGoes hStops
  makeStrict := hC.makeStrict.imp hGoes hStops

/-- Every step of the grammar keeps such a contract. -/
theorem Steppable.step {C : Contract} (hC : C.Steppable) {α : Type} {p : Parse α} (h : Step p) :
    C.Keeps p := by
  cases h with
  | warnAt f line column h => exact hC.warnAt line column (Finding.isOrdinary_of_isLocal h)
  | failAt f t h => exact hC.failAt t (isOrdinary_of_givesUp h)
  | advance => exact hC.advance
  | advanceToStatement =>
    exact C.bind (C.modify fun _ => hC.moved ⟨_, _, _, _, _, _, _, rfl⟩) fun _ => hC.advance
  | peekIs test _ => exact hC.peekIs test
  | peekArrowAfterNext => exact C.bind (hC.peek 1) fun _ => C.pure _
  | startsArrow => exact fun _ => hC.moved ⟨_, _, _, _, _, _, _, rfl⟩
  | count f => exact hC.count f
  | names h => exact hC.modifyScopes (evolves_nameStep h)
  | flushScopes => exact hC.flushScopes
  | setHint name => exact hC.setHint name
  | makeStrict => exact hC.makeStrict
  | checkFiltered t =>
    have hStarts : C.Keeps bodyStartsWithIf :=
      C.read fun _ => C.ite _ (C.pure _) (C.ite _ (hC.peekIs _) (C.pure _))
    refine C.read fun _ => C.ite _ (C.bind hStarts fun _ => ?_) (C.pure ())
    exact C.ite _ (hC.warnAt _ _ rfl) (C.pure ())

end Contract

end ScriptLint
