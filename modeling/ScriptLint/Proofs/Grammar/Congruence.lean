import ScriptLint.Grammar.Statement
import ScriptLint.Proofs.Scope.Evolution

/-!
# Relations that the grammar respects

The grammar builds its parsers from a few steps and a few ways to combine parsers. A relation
between parsers that holds of each step with itself and is kept by each combination therefore holds
of every parser of the grammar, once it holds of the parsers one level deeper.

- `Setting.governs`: the codes that a setting decides about.
- `Session.Resembles`: sessions between which the grammar makes no difference but in the settings
  that are hidden from it.
- `Step`: the steps that open nothing: findings, tokens, names, counts.
- `Coherence`: a relation that reading and reporting respect. Reporting what a hidden setting
  governs is related to doing nothing.
- `Congruence`: besides, the steps and the combinations respect it. What stands between the name of
  a function and the end of its body is related by `Parts`, because the overlay opened there is
  closed with the function.
- The lemmas after each of the two are the derived rules: branches and findings, then expected
  tokens and names.

The productions are walked through for congruences in `Grammar.Operands` and `Grammar.Statements`.
A few properties hold of no step with itself, as they depend on what the parser was given or where
it ends. They are walked through on their own, with lemmas that have the names of the productions:
what a parser needs to know about its first token (`Composition`), that it consumes one
(`Progress`), that it reports at lines it has seen (`Log`), that it ends at a place
(`Division`), or how many brackets are open behind it (`Heads`).
-/

namespace ScriptLint

/-- A finding that makes the parser give up on a statement. -/
def Finding.givesUp : Finding → Bool
  | unmatched _ | expectedToken _ _ | expectedIdentifier _ | badAssignment => true
  | _ => false

/-- The codes that a setting decides about. -/
def Setting.governs : Setting → List String
  | bitwise | plusplus => ["W016"]
  | camelcase => ["W106"]
  | curly => ["W116"]
  | eqeqeq | eqnull => ["W116", "W041"]
  | forin => ["W089"]
  | newcap => ["W055", "W064"]
  | noarg => ["W059"]
  | noempty => ["W035"]
  | nonew => ["W031"]
  | quotmark => ["W108", "W109", "W110"]
  | strict => ["E007"]
  | globalstrict => ["W097", "E007"]
  | undef => ["W117"]
  | unused => ["W098"]
  | latedef => ["W003"]
  | asi | lastsemic => ["W033"]
  | boss => ["W084", "W093"]
  | debug => ["W087"]
  | evil => ["W054", "W061", "W066"]
  | expr => ["W030"]
  | funcscope => ["W038"]
  | loopfunc => ["W083"]
  | multistr => ["W043"]
  | proto => ["W103"]
  | scripturl => ["W050", "W107"]
  | shadow => ["W004", "W079", "W123"]
  | sub => ["W069"]
  | supernew => ["W057"]
  | validthis => ["W040"]
  | withstmt => ["W085"]
  | maxlen => ["W101"]
  | maxparams => ["W072"]
  | maxdepth => ["W073"]
  | maxstatements => ["W071"]
  | maxcomplexity => ["W074"]
  | passfail | browser | devel | jquery | node | nonstandard | worker => []

/-- The setting decides about the finding, wherever it is made. -/
def Setting.decides (s : Setting) (f : Finding) : Bool := s.governs.contains f.code && f.isLocal

/-- A setting that decides on a finding governs its code. -/
theorem Setting.governs_of_decides {s : Setting} {f : Finding} (h : s.decides f) :
    s.governs.contains f.code :=
  (Bool.and_eq_true_iff.mp h).1

theorem Setting.isLocal_of_decides {s : Setting} {f : Finding} (h : s.decides f) : f.isLocal :=
  (Bool.and_eq_true_iff.mp h).2

namespace Session

/-- What the grammar does not look at itself. -/
structure Unseen where
  stream : TokenStream
  sourceLength : Nat
  uncheckedLines : List Nat
  journal : Journal
  layers : Setting.Layers
  firstQuote : Option Char
  pending : OrderedMap String (List Scope.Pending)
  unused : List Scope.UnusedBinding
  findings : List PlacedFinding

/-- The session with another part that the grammar does not look at. -/
def withUnseen (s : Session) (u : Unseen) : Session :=
  { s with
    stream := u.stream
    sourceLength := u.sourceLength
    uncheckedLines := u.uncheckedLines
    journal := u.journal
    layers := u.layers
    firstQuote := u.firstQuote
    scopes := { s.scopes with pending := u.pending, unused := u.unused, findings := u.findings } }

/-- The grammar sees the same in both sessions, the hidden settings apart. -/
def Resembles (hides : Setting → Prop) (s s' : Session) : Prop :=
  ∃ u, s' = s.withUnseen u ∧ ∀ setting, ¬hides setting → u.layers.resolve setting =
    s.layers.resolve setting

theorem Resembles.refl (hides : Setting → Prop) (s : Session) : s.Resembles hides s :=
  ⟨⟨_, _, _, _, _, _, _, _, _⟩, rfl, fun _ _ => rfl⟩

end Session

/-- Discarding a value is going on without it. -/
theorem Parse.discard_eq_bind {α : Type} (p : Parse α) : discard p = p >>= fun _ => pure () := by
  rw [Functor.discard, LawfulFunctor.map_const, bind_pure_comp]
  rfl

namespace Grammar

open Parse

/-- A test that neither a semicolon nor a division passes on the line of the token before it. -/
def PassesOver (test : Token → Bool) : Prop :=
  ∀ t : Token, t.newlineBefore = false → t.kind = .punctuator .semicolon ∨ t.kind =
    .punctuator .divide → test t = false

/-- The ways in which the grammar changes the scopes within a frame. -/
inductive NameStep : (Scope.Tracker → Setting.Layers → Scope.Tracker) → Prop
  | declare (name : String) (kind : Scope.BindingKind) (line column : Nat) :
    NameStep fun t layers => t.declare name kind line column layers
  | reference (name : String) (line column : Nat) :
    NameStep fun t layers => t.reference name line column layers
  | assign (name : String) (line column : Nat) :
    NameStep fun t layers => t.assign name line column layers
  | referenceGuarded (name : String) (line : Nat) :
    NameStep fun t _ => t.referenceGuarded name line
  | addLabel (label : String) : NameStep fun t _ => t.addLabel label

/-- The steps of the grammar that open nothing. -/
inductive Step : {α : Type} → Parse α → Prop
  | warnAt (f : Finding) (line column : Nat) (h : f.isLocal) : Step (warnAt f line column)
  | failAt {α : Type} (f : Finding) (t : Token) (h : f.givesUp) : Step (failAt f t : Parse α)
  | advance : Step advance
  | advanceToStatement : Step advanceToStatement
  | peekIs (test : Token → Bool) (h : PassesOver test) : Step (peekIs test)
  | peekArrowAfterNext : Step peekArrowAfterNext
  | startsArrow : Step startsArrow
  | count (f : FunctionMetrics → FunctionMetrics) : Step (modifyMetrics (·.count f))
  | names {f : Scope.Tracker → Setting.Layers → Scope.Tracker} (h : NameStep f) :
    Step (modifyScopes f)
  | flushScopes : Step flushScopes
  | setHint (name : Option String) : Step (setHint name)
  | makeStrict : Step makeStrict
  | checkFiltered (t : Token) : Step (checkFiltered t)

/-- Where nothing is hidden, every hidden setting decides about something. -/
theorem governs_ne_of_false {s : Setting} (h : False) : s.governs ≠ [] :=
  h.elim

/-- A relation between parsers that respects reading the session and reporting. -/
structure Coherence where
  /-- The settings that may differ between the two sides. -/
  hides : Setting → Prop
  Rel {α : Type} : Parse α → Parse α → Prop
  pure {α : Type} (a : α) : Rel (pure a) (pure a)
  bind {α β : Type} {p q : Parse α} {f g : α → Parse β} :
    Rel p q → (∀ a, Rel (f a) (g a)) → Rel (p >>= f) (q >>= g)
  read {α : Type} {f g : Session → Parse α} :
    (∀ s s', s.Resembles hides s' → Rel (f s) (g s')) → Rel (get >>= f) (get >>= g)
  warnAt (f : Finding) (line column : Nat) :
    f.isLocal → Rel (warnAt f line column) (warnAt f line column)
  /-- What decides about no code is not hidden. -/
  governs_ne {s : Setting} : hides s → s.governs ≠ []
  /-- Only the right side reports what a hidden setting governs. -/
  quiet {s : Setting} {f : Finding} (line column : Nat) : hides s → s.governs.contains f.code →
    Rel (Pure.pure ()) (Parse.warnAt f line column)
  /-- Only the left side reports what a hidden setting governs. -/
  loud {s : Setting} {f : Finding} (line column : Nat) : hides s → s.governs.contains f.code →
    Rel (Parse.warnAt f line column) (Pure.pure ())

namespace Coherence

variable (K : Coherence) {α β : Type} {p q p' q' : Parse α}

/-! ## Branches -/

/-- The same branch is taken in both runs. -/
theorem ite (c : Prop) [Decidable c] (h : K.Rel p q) (h' : K.Rel p' q') :
    K.Rel (if c then p else p') (if c then q else q') := by
  split
  · exact h
  · exact h'

/-- Both branches go on in the same way; only one of them does something before. -/
theorem when (c : Prop) [Decidable c] {p q : Parse Unit} {f g : Unit → Parse α} (h : K.Rel p q)
    (hf : ∀ u, K.Rel (f u) (g u)) :
    K.Rel (if c then p >>= f else f ()) (if c then q >>= g else g ()) :=
  K.ite c (K.bind h hf) (hf ())

/-- Values that are discarded need not be compared. -/
theorem discard (h : K.Rel p q) : K.Rel (discard p) (discard q) := by
  rw [discard_eq_bind, discard_eq_bind]
  exact K.bind h fun _ => K.pure ()

/-- What the grammar sees in a session can be asked for. -/
theorem observe {f : Session → α} (h : ∀ (s : Session) (u : Session.Unseen),
    f s = f (s.withUnseen u)) : K.Rel (do return f (← get)) (do return f (← get)) := by
  refine K.read fun s _ ⟨u, hs, _⟩ => ?_
  rw [hs, ← h s u]
  exact K.pure _

/-- The current token is the same in both runs. -/
theorem current : K.Rel current current := K.observe fun _ _ => rfl

theorem sees (p : Punctuator) : K.Rel (sees p) (sees p) := K.observe fun _ _ => rfl

theorem seesWord (word : Keyword) : K.Rel (seesWord word) (seesWord word) :=
  K.observe fun _ _ => rfl

theorem seesName (name : String) : K.Rel (seesName name) (seesName name) := K.observe fun _ _ => rfl

/-! ## Findings -/

theorem warn (f : Finding) (t : Token) (h : f.isLocal) : K.Rel (warn f t) (warn f t) :=
  K.warnAt f t.line t.column h

/-- A local finding is reported in both runs. -/
theorem warnHere (f : Finding) (h : f.isLocal) : K.Rel (warnHere f) (warnHere f) := by
  refine K.read fun s _ ⟨_, hs, _⟩ => ?_
  subst hs
  exact K.warn f s.token h

/-- What is done only under a condition on the setting: if the setting is hidden, doing it is
related to doing nothing. -/
structure Optional (s : Setting) (q : Parse Unit) : Prop where
  same : K.Rel q q
  quiet : K.hides s → K.Rel (Pure.pure ()) q
  loud : K.hides s → K.Rel q (Pure.pure ())

/-- A finding that a setting decides on may be left out. -/
theorem optional_warnAt {s : Setting} {f : Finding} (line column : Nat) (h : s.decides f) :
    K.Optional s (Parse.warnAt f line column) where
  same := K.warnAt f line column (Setting.isLocal_of_decides h)
  quiet hs := K.quiet line column hs (Setting.governs_of_decides h)
  loud hs := K.loud line column hs (Setting.governs_of_decides h)

theorem optional_pure (s : Setting) : K.Optional s (Pure.pure ()) :=
  ⟨K.pure (), fun _ => K.pure (), fun _ => K.pure ()⟩

/-- Only what is done depends on the session, not whether it may be left out. -/
theorem optional_read {s : Setting} {f : Session → Parse Unit}
    (same : K.Rel (get >>= f) (get >>= f))
    (h : ∀ t, K.Optional s (f t)) : K.Optional s (get >>= f) where
  same
  quiet hs := by
    show K.Rel (get >>= fun _ => Pure.pure ()) (get >>= f)
    exact K.read fun _ t _ => (h t).quiet hs
  loud hs := by
    show K.Rel (get >>= f) (get >>= fun _ => Pure.pure ())
    exact K.read fun t _ _ => (h t).loud hs

theorem optional_warnHere {s : Setting} {f : Finding} (h : s.decides f) :
    K.Optional s (Parse.warnHere f) :=
  K.optional_read (K.warnHere f (Setting.isLocal_of_decides h)) fun t =>
    K.optional_warnAt t.token.line t.token.column h

variable {K} in
/-- The condition is the same on both sides unless the setting is hidden. -/
theorem Optional.gate {s : Setting} {q : Parse Unit} (h : K.Optional s q) {c c' : Prop}
    [Decidable c] [Decidable c'] (hc : ¬K.hides s → (c ↔ c')) :
    K.Rel (if c then q else Pure.pure ()) (if c' then q else Pure.pure ()) := by
  by_cases hs : K.hides s
  · split <;> split
    · exact h.same
    · exact h.loud hs
    · exact h.quiet hs
    · exact K.pure ()
  · simp only [hc hs]
    exact K.ite c' h.same (K.pure ())

variable {K} in
/-- Both sides go on in the same way after what is done under a condition. -/
theorem Optional.gateThen {s : Setting} {q : Parse Unit} (h : K.Optional s q) {c c' : Prop}
    [Decidable c] [Decidable c'] {f g : Unit → Parse α} (hc : ¬K.hides s → (c ↔ c'))
    (hf : ∀ u, K.Rel (f u) (g u)) :
    K.Rel (if c then q >>= f else f ()) (if c' then q >>= g else g ()) := by
  have hLeft : (if c then q >>= f else f ()) = (if c then q else Pure.pure ()) >>= f := by
    split <;> rfl
  have hRight : (if c' then q >>= g else g ()) = (if c' then q else Pure.pure ()) >>= g := by
    split <;> rfl
  rw [hLeft, hRight]
  exact K.bind (h.gate hc) hf

/-- A finding that depends on whether the setting is on. -/
theorem gated {s : Setting} {f : Finding} (test : Bool → Bool) (line column : Nat)
    (h : s.decides f) : K.Rel (do if test (← Parse.enabled s) then Parse.warnAt f line column)
      (do if test (← Parse.enabled s) then Parse.warnAt f line column) := by
  refine K.read fun t _ ⟨u, ht, hu⟩ => ?_
  subst ht
  refine (K.optional_warnAt line column h).gate fun hs => ?_
  rw [Session.withUnseen, Setting.Layers.enabled, Setting.Layers.enabled, hu s hs]

/-- A finding reported where a setting is on may be left out in one run. -/
theorem warnIf (s : Setting) (f : Finding) (line column : Nat) (h : s.decides f) :
    K.Rel (warnIf s f line column) (warnIf s f line column) :=
  K.gated id line column h

/-- A finding reported where a setting is off may be left out in one run. -/
theorem warnUnless (s : Setting) (f : Finding) (line column : Nat) (h : s.decides f) :
    K.Rel (warnUnless s f line column) (warnUnless s f line column) :=
  K.gated not line column h

/-- A finding about which two settings decide. -/
theorem optional_warnUnless {s : Setting} (s' : Setting) {f : Finding} (line column : Nat)
    (h : s.decides f) (h' : s'.decides f) :
    K.Optional s (Parse.warnUnless s' f line column) := by
  refine K.optional_read (K.warnUnless s' f line column h') fun t => ?_
  show K.Optional s (if !(t.layers.enabled s') then Parse.warnAt f line column else Pure.pure ())
  split
  · exact K.optional_warnAt line column h
  · exact K.optional_pure s

theorem checkCamelCase (name : String) (line column : Nat) :
    K.Rel (checkCamelCase name line column) (checkCamelCase name line column) :=
  K.ite _ (K.warnIf _ _ _ _ rfl) (K.pure ())

end Coherence

/-- A relation between parsers that the steps and the combinations of the grammar respect. -/
structure Congruence extends Coherence where
  /-- Relates what a function is made of. -/
  Parts {α : Type} : Parse α → Parse α → Prop
  step {α : Type} {p : Parse α} : Step p → Rel p p
  prologueRound : (∀ t, Rel (prologueStatement t) (prologueStatement t)) →
    Rel (prologueRound ()) (prologueRound ())
  loop {α : Type} {f g : α → Parse (Round α)} :
    (∀ a, Rel (f a) (g a)) → ∀ a, Rel (Parse.loop f a) (Parse.loop g a)
  recursive {α : Type} {f g : Parse α → Parse α} :
    (∀ p q, Rel p q → Rel (f p) (g q)) → Rel (Parse.recursive f) (Parse.recursive g)
  recover {α : Type} {p q p' q' : Parse α} :
    Rel p q → Rel p' q' → Rel (p.recover p') (q.recover q')
  clearingHint {α : Type} {p q : Parse α} : Rel p q → Rel p.clearingHint q.clearingHint
  withNoIn {α : Type} {p q : Parse α} (noIn : Bool) :
    Rel p q → Rel (Parse.withNoIn noIn p) (Parse.withNoIn noIn q)
  withFrame {α : Type} {p q : Parse α} (kind : Scope.FrameKind) :
    Rel p q → Rel (Grammar.withFrame kind p) (Grammar.withFrame kind q)
  insideBlock {α : Type} {p q : Parse α} (opener : Token) :
    Rel p q → Rel (Grammar.insideBlock opener p) (Grammar.insideBlock opener q)
  insideLoop {α : Type} {p q : Parse α} :
    Rel p q → Rel (Grammar.insideLoop p) (Grammar.insideLoop q)
  parts {α : Type} {p q : Parse α} : Rel p q → Parts p q
  bindParts {α β : Type} {p q : Parse α} {f g : α → Parse β} :
    Rel p q → (∀ a, Parts (f a) (g a)) → Parts (p >>= f) (q >>= g)
  partsBind {α β : Type} {p q : Parse α} {f g : α → Parse β} :
    Parts p q → (∀ a, Rel (f a) (g a)) → Parts (p >>= f) (q >>= g)
  openOverlay {α : Type} {f g : Unit → Parse α} :
    (∀ u, Rel (f u) (g u)) → Parts (Grammar.openOverlay >>= f) (Grammar.openOverlay >>= g)
  insideFunction {α : Type} {p q : Parse α} (kind : FunctionKind) (name : Option String)
    (line column : Nat) : Parts p q →
      Rel (Grammar.insideFunction kind name line column p)
        (Grammar.insideFunction kind name line column q)

namespace Congruence

variable (K : Congruence) {α β : Type} {p q p' q' : Parse α}

/-- Relates the parsers one level deeper. -/
structure Nested (inner inner' : ScriptLint.Nested) : Prop where
  statement : K.Rel inner.statement inner'.statement
  expression (power : Nat) : K.Rel (inner.expression power) (inner'.expression power)
  binding (kind : Scope.BindingKind) : K.Rel (inner.binding kind) (inner'.binding kind)
  construction : K.Rel inner.construction inner'.construction

/-! ## Giving up -/

/-- An error that gives up is reported in both runs. -/
theorem failAt (f : Finding) (t : Token) (h : f.givesUp) :
    K.Rel (failAt f t : Parse α) (failAt f t) :=
  K.step (.failAt f t h)

theorem failHere (f : Finding) (h : f.givesUp) :
    K.Rel (failHere f : Parse α) (failHere f) := by
  refine K.read fun s _ ⟨_, hs, _⟩ => ?_
  subst hs
  exact K.failAt f s.token h

/-- Both runs expect the same token. -/
theorem failExpected (expected : String) :
    K.Rel (failExpected expected : Parse α) (failExpected expected) := by
  refine K.read fun s _ ⟨_, hs, _⟩ => ?_
  subst hs
  exact K.failHere _ rfl

theorem failIdentifier : K.Rel (failIdentifier : Parse α) failIdentifier := by
  refine K.read fun s _ ⟨_, hs, _⟩ => ?_
  subst hs
  exact K.failHere _ rfl

/-! ## Tokens -/

/-- Both runs consume a token. -/
theorem advance : K.Rel advance advance := K.step .advance

/-- Both runs see the same next token. -/
theorem peekIs {test : Token → Bool} (h : PassesOver test) : K.Rel (peekIs test) (peekIs test) :=
  K.step (.peekIs test h)

theorem eat (p : Punctuator) : K.Rel (eat p) (eat p) :=
  K.bind (K.sees p) fun _ => K.ite _ (K.bind K.advance fun _ => K.pure true) (K.pure false)

theorem expect (p : Punctuator) : K.Rel (expect p) (expect p) :=
  K.bind (K.sees p) fun _ => K.ite _ K.advance (K.failExpected _)

theorem expectWord (word : Keyword) : K.Rel (expectWord word) (expectWord word) :=
  K.bind (K.seesWord word) fun _ => K.ite _ K.advance (K.failExpected _)

theorem expectClosing (p : Punctuator) (opener : Token) :
    K.Rel (expectClosing p opener) (expectClosing p opener) := by
  refine K.bind (K.sees p) fun _ => K.ite _ K.advance ?_
  exact K.bind K.current fun t => K.ite _ (K.failAt _ _ rfl) (K.failExpected _)

theorem expectStatementClosing (p : Punctuator) (opener : Token) :
    K.Rel (expectStatementClosing p opener) (expectStatementClosing p opener) :=
  K.bind (K.sees p) fun _ => K.ite _ (K.step .advanceToStatement) (K.expectClosing p opener)

/-- Both runs expect a name. -/
theorem expectIdentifier : K.Rel expectIdentifier expectIdentifier := by
  refine K.bind K.current fun t => ?_
  cases t.identifier? with
  | some name => exact K.bind K.advance fun _ => K.pure _
  | none => exact K.failIdentifier

/-- Both statements end alike. -/
theorem finishStatement (always : Bool) :
    K.Rel (finishStatement always) (finishStatement always) := by
  refine K.bind (K.eat .semicolon) fun eaten => K.ite _ ?_ (K.pure ())
  refine K.read fun s _ ⟨u, hs, hu⟩ => ?_
  subst hs
  refine K.ite _ ?_ (K.warnAt _ _ _ rfl)
  refine (K.optional_warnUnless (s := .lastsemic) .asi (f := .missingSemicolon) _ _ rfl rfl).gate
    fun hs => ?_
  rw [Session.withUnseen, Setting.Layers.enabled, Setting.Layers.enabled, hu .lastsemic hs]

theorem consumeSemicolon : K.Rel consumeSemicolon consumeSemicolon := K.finishStatement false

/-! ## Names and counts -/

theorem declare (name : String) (kind : Scope.BindingKind) (line column : Nat) :
    K.Rel (declare name kind line column) (declare name kind line column) :=
  K.when _ (K.checkCamelCase name line column) fun _ =>
    K.bind (K.step (.names (.declare name kind line column))) fun _ => K.step .flushScopes

theorem reference (name : String) (line column : Nat) :
    K.Rel (reference name line column) (reference name line column) :=
  K.bind (K.step (.names (.reference name line column))) fun _ => K.step .flushScopes

theorem assign (name : String) (line column : Nat) :
    K.Rel (assign name line column) (assign name line column) :=
  K.bind (K.step (.names (.assign name line column))) fun _ => K.step .flushScopes

theorem flushScopes : K.Rel flushScopes flushScopes := K.step .flushScopes

theorem addStatement :
    K.Rel (modifyMetrics Metrics.addStatement) (modifyMetrics Metrics.addStatement) :=
  K.step (.count _)

theorem addBranch : K.Rel (modifyMetrics Metrics.addBranch) (modifyMetrics Metrics.addBranch) :=
  K.step (.count _)

/-! ## Parsers one level deeper -/

variable {K} {inner inner' : ScriptLint.Nested}

theorem Nested.wholeExpression (h : K.Nested inner inner') :
    K.Rel inner.wholeExpression inner'.wholeExpression := h.expression 0

theorem Nested.assignment (h : K.Nested inner inner') :
    K.Rel inner.assignment inner'.assignment := h.expression Power.assignment

theorem Nested.defaultValue (h : K.Nested inner inner') :
    K.Rel inner.defaultValue inner'.defaultValue :=
  K.bind (K.eat .assign) fun _ => K.ite _ (K.discard h.assignment) (K.pure ())

end Congruence

end Grammar

end ScriptLint
