import ScriptLint.Proofs.Progress.Sessions

/-!
# Parsers that consume a token

A parser that succeeds has come further on in the source, provided that it started at a token of the
right kind or that its value says so: `eat` consumes a token if it returns `true`, a statement
whenever it does not start at the end of input, and a round of a loop if it asks for another one.

- `Parse.Consumes`: such a parser.
- `Consumes.bind`, `Consumes.later`, `Consumes.still`, `Consumes.choose`: of two parsers in a row,
  one consumes a token.
- `Grammar.Consuming`: statements, expressions and `new` expressions consume a token.
- `Grammar.consuming_levels`: the parsers of all levels do.
-/

namespace ScriptLint

/-! ## Tokens before the end of input -/

namespace Token

variable {t : Token}

/-- The token is not the end of input. -/
def Proper (t : Token) : Prop := t.isEnd = false

/-- A token of any other kind is proper. -/
theorem proper_of_kind {kind : TokenKind} (h : t.kind = kind) (hKind : kind ≠ .endOfInput) :
    t.Proper := by
  unfold Proper isEnd
  split
  · exact absurd (h.symm.trans ‹_›) hKind
  · rfl

theorem proper_of_isPunctuator {p : Punctuator} (h : t.isPunctuator p) : t.Proper := by
  unfold isPunctuator at h
  split at h
  · exact proper_of_kind ‹_› (by nofun)
  · cases h

theorem proper_of_isKeyword {word : Keyword} (h : t.isKeyword word) : t.Proper := by
  unfold isKeyword at h
  split at h
  · exact proper_of_kind ‹_› (by nofun)
  · cases h

theorem proper_of_identifier {name : String} (h : t.identifier? = some name) : t.Proper := by
  unfold identifier? at h
  split at h
  · exact proper_of_kind ‹_› (by nofun)
  · cases h

end Token

namespace Parse

variable {α β : Type} {T T' : Token → Prop} {P P' : α → Prop} {Q : β → Prop} {p q : Parse α}
  {f : α → Parse β}

/-- A run does not go back. If it starts at a token of which `T` holds and succeeds with a value of
which `P` holds, it comes further on. -/
structure Consumes (T : Token → Prop) (P : α → Prop) (p : Parse α) : Prop where
  keeps : advancing.Keeps p
  gains {s t : Session} {a : α} :
    s.Aligned → T s.token → p s = .ok a t → P a → s.token.offset < t.token.offset

/-- The parser always consumes a token unless it starts at the end of input. -/
abbrev AlwaysConsumes (p : Parse α) : Prop := Consumes Token.Proper (fun _ => True) p

/-- The round asks for another one. -/
def Round.Continues : Round α → Prop
  | again _ => True
  | done _ => False

/-- A parser that consumes proceeds. -/
theorem Consumes.proceeds {s t : Session} {a : α} (h : Consumes T P p) (hs : s.Aligned)
    (ht : p s = .ok a t) : s.Proceeds t := by
  have hKept := h.keeps s
  rw [ht] at hKept
  exact hKept hs

/-- Consuming is kept by narrower tests. -/
theorem Consumes.imp (h : Consumes T P p) (hT : ∀ t, T' t → T t) (hP : ∀ a, P' a → P a) :
    Consumes T' P' p :=
  ⟨h.keeps, fun hs hStart ht ha => h.gains hs (hT _ hStart) ht (hP _ ha)⟩

/-- A parser that always consumes a token does so whatever its value. -/
theorem Consumes.whatever (h : Consumes T (fun _ => True) p) : Consumes T P p :=
  h.imp (fun _ => id) fun _ _ => trivial

/-! ## One after the other -/

/-- Either the value of the first parser says that it has consumed a token, or the second one does.
A parser that starts at the end of input may go on to any token. -/
theorem Consumes.choose (h : Consumes T P p) (hT : ∀ t u, T t → t.isEnd → T u)
    (hKeeps : ∀ a, P a → advancing.Keeps (f a)) (hf : ∀ a, ¬P a → Consumes T Q (f a)) :
    Consumes T Q (p >>= f) where
  keeps := by
    refine advancing.bind h.keeps fun a => ?_
    by_cases ha : P a
    · exact hKeeps a ha
    · exact (hf a ha).keeps
  gains {s u b} hs hStart hu hb := by
    obtain ⟨a, t, ht, hRest⟩ := exists_of_bind hu
    have hFirst := h.proceeds hs ht
    by_cases ha : P a
    · have hSecond := hKeeps a ha t
      rw [hRest] at hSecond
      exact Nat.lt_of_lt_of_le (h.gains hs hStart ht ha) (hSecond hFirst.aligned).offset_le
    · have hNotBack := ((hf a ha).proceeds hFirst.aligned hRest).offset_le
      -- unless the first parser has come further on, the second one starts at a token of which `T`
      -- holds
      rcases hFirst.token with hSame | hFurther | ⟨hEnd, hLess⟩
      · rw [← hSame] at hStart ⊢
        exact (hf a ha).gains hFirst.aligned hStart hRest hb
      · exact Nat.lt_of_lt_of_le hFurther hNotBack
      · have hGain := (hf a ha).gains hFirst.aligned (hT _ _ hStart hEnd) hRest hb
        exact Nat.lt_of_le_of_lt hLess hGain

/-- The first parser consumes a token. -/
theorem Consumes.bind (h : Consumes T (fun _ => True) p) (hf : ∀ a, advancing.Keeps (f a)) :
    Consumes T Q (p >>= f) where
  keeps := advancing.bind h.keeps hf
  gains {s u b} hs hStart hu _ := by
    obtain ⟨a, t, ht, hRest⟩ := exists_of_bind hu
    have hSecond := hf a t
    rw [hRest] at hSecond
    exact Nat.lt_of_lt_of_le (h.gains hs hStart ht trivial)
      (hSecond (h.proceeds hs ht).aligned).offset_le

/-- Nothing is known of the values of a parser that does not go back. -/
theorem consumes_never (h : advancing.Keeps p) : Consumes T (fun _ => False) p := ⟨h, nofun⟩

/-- The second parser consumes a token wherever it starts. -/
theorem Consumes.later (h : advancing.Keeps p) (hf : ∀ a, Consumes (fun _ => True) Q (f a)) :
    Consumes T Q (p >>= f) := by
  have hAnywhere : Consumes (fun _ => True) Q (p >>= f) :=
    (consumes_never h).choose (fun _ _ _ _ => trivial) (fun _ => False.elim) fun a _ => hf a
  exact hAnywhere.imp (fun _ _ => trivial) fun _ => id

/-- The second parser consumes a token if it starts where the first one does. -/
theorem Consumes.still (hT : ∀ t, T t → t.Proper) (h : advancing.Keeps p)
    (hf : ∀ a, Consumes T Q (f a)) : Consumes T Q (p >>= f) := by
  refine (consumes_never h).choose (fun t u ht hEnd => ?_) (fun _ => False.elim) fun a _ => hf a
  rw [hT t ht] at hEnd
  cases hEnd

/-! ## Basic parsers -/

theorem consumes_pure {a : α} (h : ¬P a) : Consumes T P (pure a) := by
  refine ⟨advancing.pure a, fun _ _ ht ha => absurd ?_ h⟩
  obtain ⟨rfl, -⟩ := EStateM.Result.ok.inj ht
  exact ha

/-- Advancing over a proper token consumes it. -/
theorem consumes_advance (hT : ∀ t, T t → t.Proper) : Consumes T (fun _ => True) advance := by
  refine ⟨advancing_advance, fun {s t a} hs hStart ht _ => ?_⟩
  have hGains := advance_gains hs
  rw [ht] at hGains
  exact hGains.2 (hT _ hStart)

theorem consumes_throw (e : Abort) : Consumes T P (throw e : Parse α) := by
  refine ⟨fun s => ?_, fun _ _ ht => by cases ht⟩
  cases e with
  | badSyntax => exact fun hs => .refl hs
  | halt => trivial

theorem consumes_failAt (f : Finding) (t : Token) : Consumes T P (failAt f t : Parse α) :=
  .later (advancing_emit _) fun _ => consumes_throw _

/-- A choice consumes if both sides do. -/
theorem Consumes.ite (c : Prop) [Decidable c] (hp : c → Consumes T P p) (hq : ¬c → Consumes T P q) :
    Consumes T P (if c then p else q) := by
  split
  · exact hp ‹_›
  · exact hq ‹_›

/-- The current session is known. -/
theorem Consumes.read {g : Session → Parse β}
    (h : ∀ s : Session, Consumes (fun t => t = s.token ∧ T t) Q (g s)) : Consumes T Q (get >>= g) :=
  ⟨advancing.read fun s => (h s).keeps, fun {s _ _} hs hStart ht => (h s).gains hs ⟨rfl, hStart⟩ ht⟩

theorem consumes_failHere (f : Finding) : Consumes T P (failHere f : Parse α) :=
  .read fun _ => consumes_failAt _ _

theorem consumes_failExpected (expected : String) :
    Consumes T P (failExpected expected : Parse α) :=
  .read fun _ => consumes_failHere _

theorem consumes_failIdentifier : Consumes T P (failIdentifier : Parse α) :=
  .read fun _ => consumes_failHere _

/-- The current token is known. -/
theorem Consumes.ask {g : Token → Parse β} (h : ∀ t, Consumes (· = t) Q (g t)) :
    Consumes T Q (current >>= g) :=
  .read fun s => (h s.token).imp (fun _ => And.left) fun _ => id

/-- The current token is the one that was asked for before. -/
theorem Consumes.known {g : Token → Parse β} {t : Token} (hKeeps : ∀ u, advancing.Keeps (g u))
    (h : Consumes (· = t) Q (g t)) : Consumes (· = t) Q (current >>= g) where
  keeps := advancing.read fun s => hKeeps s.token
  gains {s u b} hs hStart hu hb := by
    replace hu : g s.token s = .ok b u := hu
    rw [hStart] at hu
    exact h.gains hs hStart hu hb

/-- What is done depends on whether the current token is the punctuator. -/
theorem Consumes.sees {g : Bool → Parse β} {p : Punctuator}
    (h : Consumes (fun t => t.isPunctuator p) Q (g true)) (h' : Consumes T Q (g false)) :
    Consumes T Q (sees p >>= g) := by
  refine .read fun s => ?_
  show Consumes _ Q (g (s.token.isPunctuator p))
  cases hToken : s.token.isPunctuator p with
  | true => exact h.imp (fun _ ht => ht.1 ▸ hToken) fun _ => id
  | false => exact h'.imp (fun _ => And.right) fun _ => id

/-- What is done depends on whether the current token is the reserved word. -/
theorem Consumes.seesWord {g : Bool → Parse β} {word : Keyword}
    (h : Consumes (fun t => t.isKeyword word) Q (g true)) (h' : Consumes T Q (g false)) :
    Consumes T Q (seesWord word >>= g) := by
  refine .read fun s => ?_
  show Consumes _ Q (g (s.token.isKeyword word))
  cases hToken : s.token.isKeyword word with
  | true => exact h.imp (fun _ ht => ht.1 ▸ hToken) fun _ => id
  | false => exact h'.imp (fun _ => And.right) fun _ => id

/-- Only one of the branches does something before both go on in the same way. -/
theorem Consumes.when (c : Prop) [Decidable c] {p : Parse Unit} {g : Unit → Parse β}
    (hT : ∀ t, T t → t.Proper) (h : advancing.Keeps p) (hg : ∀ u, Consumes T Q (g u)) :
    Consumes T Q (if c then p >>= g else g ()) :=
  .ite _ (fun _ => .still hT h hg) fun _ => hg ()

/-- The current token is known not to be the end of input. -/
theorem Consumes.here {t : Token} (h : Consumes Token.Proper P p) (ht : t.Proper) :
    Consumes (· = t) P p :=
  h.imp (fun _ hu => hu ▸ ht) fun _ => id

/-! ## Expected tokens -/

/-- What was eaten was consumed. -/
theorem consumes_eat (p : Punctuator) : Consumes T (· = true) (eat p) := by
  refine .sees ?_ (consumes_pure Bool.false_ne_true)
  exact (consumes_advance fun _ => Token.proper_of_isPunctuator).bind fun _ => advancing.pure _

/-- So was what was expected. -/
theorem consumes_expect (p : Punctuator) : Consumes T (fun _ => True) (expect p) :=
  .sees (consumes_advance fun _ => Token.proper_of_isPunctuator) (consumes_failExpected _)

theorem consumes_expectWord (word : Keyword) : Consumes T (fun _ => True) (expectWord word) :=
  .seesWord (consumes_advance fun _ => Token.proper_of_isKeyword) (consumes_failExpected _)

theorem consumes_expectIdentifier : Consumes T (fun _ => True) expectIdentifier := by
  refine .ask fun t => ?_
  cases hName : t.identifier? with
  | some name =>
    refine (consumes_advance fun u hu => ?_).bind fun _ => advancing.pure _
    rw [hu]
    exact Token.proper_of_identifier hName
  | none => exact consumes_failIdentifier

/-- The punctuator, if it is there, is consumed before the first way to go on. -/
theorem Consumes.eat {a b : Parse β} {p : Punctuator} (ha : advancing.Keeps a)
    (hb : Consumes (fun _ => True) Q b) : Consumes T Q (do if ← eat p then a else b) := by
  have hAnywhere : Consumes (fun _ => True) Q (do if ← Parse.eat p then a else b) := by
    refine (consumes_eat p).choose (fun _ _ _ _ => trivial) (fun eaten h => ?_) fun eaten h => ?_
    · rw [if_pos h]
      exact ha
    · rw [if_neg h]
      exact hb
  exact hAnywhere.imp (fun _ _ => trivial) fun _ => id

theorem Consumes.discard (h : Consumes T (fun _ => True) p) :
    Consumes T (fun _ => True) (discard p) := by
  rw [discard_eq_bind]
  exact h.bind fun _ => advancing.pure ()

/-- A round whose last token is a comma asks for another one. -/
theorem consumes_comma {a b : α} :
    Consumes T Round.Continues (do if ← eat .comma then return .again a else return .done b) :=
  .eat (advancing.pure _) (consumes_pure id)

/-! ## Combinations -/

/-- Something else is changed before a parser and after it. -/
theorem Consumes.around {before after : Session → Session} (h : Consumes T P p)
    (hBefore : ∀ s : Session, s.Placed (before s)) (hAfter : ∀ s : Session, s.Placed (after s)) :
    Consumes T P (do modify before; p.ensuring after) where
  keeps := Grammar.advancing_around hBefore hAfter h.keeps
  gains {s u a} hs hStart hu ha := by
    replace hu : p.ensuring after (before s) = .ok a u := hu
    cases ht : p (before s) with
    | ok b t =>
      rw [ensuring_of_ok ht] at hu
      obtain ⟨rfl, rfl⟩ := EStateM.Result.ok.inj hu
      rw [(hAfter t).token, ← (hBefore s).token]
      rw [← (hBefore s).token] at hStart
      exact h.gains (hs.placed (hBefore s)) hStart ht ha
    | error e t =>
      rw [ensuring_of_error ht] at hu
      cases hu

/-- One level deeper the same is consumed. -/
theorem Consumes.deeper (h : Consumes T P p) : Consumes T P p.deeper := by
  refine .read fun s => .ite _ (fun _ => ?_) fun _ =>
    ⟨Grammar.advancing_tooDeep, fun _ _ ht => by cases ht⟩
  have hInside : Consumes (fun t => t = s.token ∧ T t) P p := h.imp (fun _ => And.right) fun _ => id
  exact hInside.around (fun _ => ⟨rfl, rfl, rfl, rfl, rfl⟩) fun _ => ⟨rfl, rfl, rfl, rfl, rfl⟩

/-- The parts of a function consume a token. -/
theorem Consumes.insideFunction {kind : Grammar.FunctionKind} {name : Option String}
    {line column : Nat}
    (h : Consumes T P p) : Consumes T P (Grammar.insideFunction kind name line column p) where
  keeps := Grammar.advancing_insideFunction kind name line column h.keeps
  gains {s u a} hs hStart hu ha := by
    have hEntered : (Grammar.withFunction s kind name line column).Aligned :=
      hs.placed ⟨rfl, rfl, rfl, rfl, rfl⟩
    cases ht : p (Grammar.withFunction s kind name line column) with
    | ok b t =>
      rw [insideFunction_of_ok ht] at hu
      obtain ⟨_, v, hv, hRest⟩ := exists_of_bind hu
      obtain ⟨rfl, rfl⟩ := EStateM.Result.ok.inj hRest
      have hClosed := Grammar.closeFunction_placed line column t
      rw [hv] at hClosed
      rw [hClosed.token]
      exact h.gains (s := Grammar.withFunction s kind name line column) hEntered hStart ht ha
    | error e t =>
      rw [insideFunction_of_error ht] at hu
      cases hu

/-- If a parser gives up where it started, the other one consumes a token. -/
theorem Consumes.recover (hT : ∀ t, T t → t.Proper) (hp : Consumes T P p) (hq : Consumes T P q) :
    Consumes T P (p.recover q) where
  keeps := advancing.recover hp.keeps hq.keeps
  gains {s u a} hs hStart hu ha := by
    cases ht : p s with
    | ok b t =>
      rw [recover_of_ok ht] at hu
      obtain ⟨rfl, rfl⟩ := EStateM.Result.ok.inj hu
      exact hp.gains hs hStart ht ha
    | error e t =>
      cases e with
      | halt =>
        rw [recover_of_halt ht] at hu
        cases hu
      | badSyntax =>
        rw [recover_of_badSyntax ht] at hu
        have hFirst := hp.keeps s
        rw [ht] at hFirst
        obtain ⟨hAligned, -, hToken⟩ := hFirst hs
        rcases hToken with hSame | hFurther | ⟨hEnd, -⟩
        · rw [← hSame] at hStart ⊢
          exact hq.gains hAligned hStart hu ha
        · exact Nat.lt_of_lt_of_le hFurther (hq.proceeds hAligned hu).offset_le
        · rw [hT _ hStart] at hEnd
          cases hEnd

/-- A loop consumes a token if its first round does, whatever comes of that. -/
theorem Consumes.loop {step : α → Parse (Round α)} {a : α} (hKeeps : ∀ a, advancing.Keeps (step a))
    (h : Consumes T (fun _ => True) (step a)) : Consumes T P (loop step a) := by
  refine .read fun s => ?_
  cases s.budget with
  | zero => exact consumes_throw _
  | succ n =>
    refine (h.imp (fun _ => And.right) fun _ => id).bind fun r => ?_
    cases r with
    | again b => exact advancing.rounds (fun _ => trivial) hKeeps n b
    | done b => exact advancing.pure b

/-- A parser that contains itself consumes a token if it does so before it starts over. -/
theorem Consumes.recursive {form : Parse α → Parse α}
    (h : ∀ p, advancing.Keeps p → Consumes T P (form p)) : Consumes T P (recursive form) := by
  refine .read fun s => ?_
  have hUnfolded (n : Nat) : Consumes T P (unfolded form n) := by
    induction n with
    | zero => exact consumes_throw _
    | succ n ih => exact h _ ih.keeps
  exact (hUnfolded s.budget).imp (fun _ => And.right) fun _ => id

end Parse

/-! ## The grammar -/

namespace Grammar

open Parse

variable {inner : Nested} {T : Token → Prop}

/-- No parser for what is nested goes back. -/
abbrev Proceeding (inner : Nested) : Prop := proceeding.Nested inner inner

/-- The current token is consumed first. -/
theorem consumes_first {α : Type} {p : Parse α} (h : advancing.Keeps p) :
    AlwaysConsumes (do advance; p) :=
  (consumes_advance fun _ => id).bind fun _ => h

/-- The current token is looked at, and consumed first of all. -/
theorem consumes_opener {α : Type} {f : Token → Parse α} (h : ∀ t, advancing.Keeps (f t)) :
    AlwaysConsumes (do let t ← current; advance; f t) :=
  .still (fun _ => id) proceeding.current fun t => consumes_first (h t)

/-- The parsers for what is nested consume a token. -/
structure Consuming (inner : Nested) : Prop extends Proceeding inner where
  statements : AlwaysConsumes inner.statement
  expressions (power : Nat) : AlwaysConsumes (inner.expression power)
  constructions : AlwaysConsumes inner.construction

section Functions

theorem consumes_parameters (h : Proceeding inner) (kind : FunctionKind) :
    Consumes T (fun _ => True) (parameters inner kind) := by
  refine .later (proceeding.sees _) fun _ => .ite _ (fun _ => ?_) fun _ => ?_
  · refine consumes_expectIdentifier.bind fun name => ?_
    exact advancing.bind (proceeding.declare _ _ _ _) fun _ => advancing.pure _
  · refine .later proceeding.current fun opener => (consumes_expect _).bind fun _ => ?_
    refine advancing.bind (proceeding.loop h.parameter 0) fun _ => ?_
    exact advancing.bind (proceeding.expectClosing _ _) fun _ => advancing.pure _

theorem consumes_functionParts (h : Proceeding inner) (kind : FunctionKind) (name : Option String)
    (line column : Nat) :
    Consumes T (fun _ => True) (functionParts inner kind name line column) := by
  have hRest (T : Token → Prop) : Consumes T (fun _ => True) (do
      let count ← parameters inner kind
      modifyMetrics (·.setParameters count)
      functionTail inner kind) := by
    refine (consumes_parameters h kind).bind fun count => ?_
    exact advancing.bind (advancing_step (.count _)) fun _ => h.functionTail kind
  unfold functionParts
  split
  · exact .later (proceeding.declare _ _ _ _) fun _ => hRest _
  · exact hRest T

theorem consumes_function (h : Proceeding inner) (kind : FunctionKind) (name : Option String)
    (line column : Nat) : Consumes T (fun _ => True) (function inner kind name line column) := by
  have hRest (T : Token → Prop) : Consumes T (fun _ => True) (do
      let braced ← insideFunction kind name line column (functionParts inner kind name line column)
      if braced then closingBrace kind) := by
    refine (consumes_functionParts h kind name line column).insideFunction.bind fun braced => ?_
    exact advancing.ite _ (Congruence.Nested.closingBrace (K := proceeding) kind)
      (advancing.pure ())
  refine .read fun s => .ite _ (fun _ => ?_) fun _ => hRest _
  exact .later (proceeding.warnUnless _ _ _ _ rfl) fun _ => hRest _

theorem consumes_arrowFunction (h : Proceeding inner) (t : Token) :
    Consumes T (fun _ => True) (arrowFunction inner t) :=
  (consumes_function h _ _ _ _).bind fun _ => advancing.pure _

theorem consumes_functionExpression (h : Proceeding inner) :
    Consumes T (fun _ => True) (functionExpression inner) := by
  refine .later proceeding.current fun t => (consumes_expectWord _).bind fun _ => ?_
  refine advancing.bind (advancing.discard (proceeding.eat _)) fun _ => advancing.read fun s => ?_
  refine advancing.bind (advancing_step (.setHint none)) fun _ =>
    advancing.bind proceeding.current fun next => ?_
  cases next.identifier? with
  | some name =>
    exact advancing.bind proceeding.advance fun _ => advancing.bind (h.function _ _ _ _) fun _ =>
      advancing.pure _
  | none => exact advancing.bind (h.function _ _ _ _) fun _ => advancing.pure _

theorem consumes_functionDeclaration (h : Proceeding inner) :
    Consumes T (fun _ => True) (functionDeclaration inner) := by
  refine .later proceeding.current fun t => (consumes_expectWord _).bind fun _ => ?_
  refine advancing.bind (advancing.discard (proceeding.eat _)) fun _ => ?_
  refine advancing.bind proceeding.expectIdentifier fun place => ?_
  exact advancing.bind (proceeding.declare _ _ _ _) fun _ => h.function _ _ _ _

/-- A class consumes its keyword. -/
theorem consumes_classForm (h : Proceeding inner) {heritage : Parse Unit}
    (hh : advancing.Keeps heritage)
    (declaration : Bool) : Consumes T (fun _ => True) (classForm inner heritage declaration) := by
  -- behind the keyword nothing need be consumed
  have hRest : advancing.Keeps (do
      let opener ← current
      expect .leftBrace
      loop (classElement inner) ()
      if declaration then
        expectStatementClosing .rightBrace opener else expectClosing .rightBrace opener) := by
    refine advancing.bind proceeding.current fun opener =>
      advancing.bind (proceeding.expect _) fun _ => ?_
    refine advancing.bind (proceeding.loop h.classElement ()) fun _ => ?_
    exact advancing.ite _ (proceeding.expectStatementClosing _ _) (proceeding.expectClosing _ _)
  refine (consumes_expectWord _).bind fun _ => ?_
  refine advancing.bind (Congruence.Nested.className (K := proceeding) declaration) fun _ => ?_
  refine advancing.bind (proceeding.seesWord _) fun _ => advancing.ite _ ?_ hRest
  exact advancing.bind proceeding.advance fun _ => advancing.bind hh fun _ => hRest

end Functions

section Operands

/-- A use of a name consumes it. -/
theorem consumes_nameUse (name : String) (t : Token) : AlwaysConsumes (nameUse name t) := by
  refine consumes_first (advancing.read fun s => ?_)
  have hRest (_ : Unit) : advancing.Keeps (do
      if s.token.isPunctuator .assign then
        assign name t.line t.column else reference name t.line t.column
      return Summary.startingAt t (.name name)) := by
    refine advancing.ite _ ?_ ?_
    · exact advancing.bind (proceeding.assign _ _ _) fun _ => advancing.pure _
    · exact advancing.bind (proceeding.reference _ _ _) fun _ => advancing.pure _
  exact advancing.when _ (advancing_emit _) hRest

/-- What the word `async` starts is consumed if it starts something. -/
theorem consumes_asyncForm (h : Proceeding inner) (t : Token) :
    Consumes Token.Proper (fun e => e.isSome) (asyncForm inner t) := by
  have hPeek (test : Token → Bool) : advancing.Keeps (peekIs test) :=
    advancing_of_holding (holding_peekIs test)
  refine .still (fun _ => id) (hPeek _) fun _ => .ite _ (fun _ => consumes_pure nofun) fun _ => ?_
  refine .still (fun _ => id) (hPeek _) fun _ => .ite _ (fun _ => ?_) fun _ => ?_
  · refine (consumes_first ?_).whatever
    exact advancing.bind h.functionExpression fun _ => advancing.pure _
  refine .still (fun _ => id) (hPeek _) fun _ => .ite _ (fun _ => ?_) fun _ => ?_
  · refine .still (fun _ => id) (advancing_step .peekArrowAfterNext) fun _ =>
      .ite _ (fun _ => ?_) fun _ => consumes_pure nofun
    exact (consumes_first (advancing.bind (h.arrowFunction t) fun _ => advancing.pure _)).whatever
  refine .still (fun _ => id) (hPeek _) fun _ => .ite _ (fun _ => ?_) fun _ => consumes_pure nofun
  refine (consumes_first ?_).whatever
  refine advancing.bind (advancing_step .startsArrow) fun _ => advancing.ite _ ?_ ?_
  · exact advancing.bind (h.arrowFunction t) fun _ => advancing.pure _
  · exact advancing.bind (proceeding.reference _ _ _) fun _ => advancing.pure _

/-- With an arrow, as a name or as `async`: a token is consumed. -/
theorem consumes_identifierForm (h : Proceeding inner) (name : String) (t : Token) :
    AlwaysConsumes (identifierForm inner name t) := by
  refine .still (fun _ => id) (advancing_of_holding (holding_peekIs _)) fun _ => ?_
  refine .ite _ (fun _ => consumes_arrowFunction h t) fun _ => ?_
  refine .ite _ (fun _ => ?_) fun _ => consumes_nameUse name t
  refine (consumes_asyncForm h t).choose (fun u _ hu hEnd => ?_) (fun e he => ?_) fun e he => ?_
  · rw [hu] at hEnd
    cases hEnd
  · obtain ⟨form, rfl⟩ := Option.isSome_iff_exists.mp he
    exact advancing.pure form
  · rw [Option.not_isSome_iff_eq_none] at he
    rw [he]
    exact consumes_nameUse name t

theorem consumes_parenthesized (h : Proceeding inner) : AlwaysConsumes (parenthesized inner) := by
  refine consumes_opener fun opener => advancing.bind
    (proceeding.withNoIn _ h.wholeExpression) fun e => ?_
  exact advancing.bind (proceeding.expectClosing _ _) fun _ => advancing.pure _

theorem consumes_arrayLiteral (h : Proceeding inner) : AlwaysConsumes (arrayLiteral inner) := by
  refine consumes_opener fun opener => ?_
  refine advancing.bind (proceeding.withNoIn _ (proceeding.loop h.arrayElement ())) fun _ => ?_
  exact advancing.bind (proceeding.expectClosing _ _) fun _ => advancing.pure _

theorem consumes_objectLiteral (h : Proceeding inner) : AlwaysConsumes (objectLiteral inner) := by
  refine consumes_opener fun opener => ?_
  refine advancing.bind (proceeding.withNoIn _ (proceeding.loop h.objectElement ())) fun _ => ?_
  exact advancing.bind (proceeding.expectClosing _ _) fun _ => advancing.pure _

theorem consumes_template (h : Proceeding inner) : AlwaysConsumes (template inner) :=
  consumes_first (proceeding.loop h.substitution ())

/-- One case for each kind of operand. -/
theorem consumes_simpleOperand (h : Consuming inner) : AlwaysConsumes (simpleOperand inner) := by
  have hNested := h.toNested
  have literal (e : Summary) : AlwaysConsumes (do advance; return e) :=
    consumes_first (advancing.pure e)
  refine .still (fun _ => id) proceeding.current fun t => ?_
  split
  · exact consumes_identifierForm hNested _ t
  · exact .still (fun _ => id) (Congruence.Nested.checkThis (K := proceeding) t) fun _ => literal _
  · exact literal _
  · exact consumes_functionExpression hNested
  · exact h.constructions
  · exact literal _
  · exact literal _
  · exact literal _
  · exact literal _
  · exact literal _
  · exact literal _
  · exact literal _
  · exact (consumes_template hNested).bind fun _ => advancing.pure _
  · exact literal _
  · refine .still (fun _ => id) (advancing_step .startsArrow) fun _ => ?_
    exact .ite _ (fun _ => consumes_arrowFunction hNested t) fun _ => consumes_parenthesized hNested
  · exact consumes_arrayLiteral hNested
  · exact consumes_objectLiteral hNested
  · exact consumes_failIdentifier

/-- An operand consumes a token before it starts over. -/
theorem consumes_operandForm (h : Consuming inner) {operand : Parse Summary}
    (ho : advancing.Keeps operand) : AlwaysConsumes (operandForm inner operand) := by
  have hNested := h.toNested
  have hHeritage : proceeding.Rel (heritageOf inner operand) (heritageOf inner operand) :=
    hNested.heritageOf ho
  refine .still (fun _ => id) proceeding.current fun t => .ite _ (fun _ => ?_) fun _ =>
    consumes_simpleOperand h
  exact (consumes_classForm hNested hHeritage false).bind fun _ => advancing.pure _

/-- An operand consumes a token. -/
theorem consumes_operand (h : Consuming inner) : AlwaysConsumes (operand inner) :=
  .recursive fun _ => consumes_operandForm h

/-- A construction consumes its `new`. -/
theorem consumes_construction (h : Proceeding inner) : AlwaysConsumes (construction inner) := by
  refine consumes_opener fun newToken => advancing.bind (proceeding.eat _) fun _ =>
    advancing.ite _ ?_ ?_
  · exact advancing.bind (advancing.discard proceeding.expectIdentifier) fun _ => advancing.pure _
  -- a construction may end right after its callee
  have hRest (_ : Unit) : advancing.Keeps (do
      if ← sees .leftParen then Functor.discard (arguments inner)
      return Summary.startingAt newToken .construction) :=
    advancing.bind (proceeding.sees _) fun _ =>
      advancing.when _ (advancing.discard h.arguments) fun _ => advancing.pure _
  refine advancing.bind proceeding.current fun callee => ?_
  refine advancing.when _ (proceeding.warnUnless .supernew .weirdNew _ _ rfl) fun _ => ?_
  refine advancing.bind h.operand fun base => advancing.bind (h.chain false base) fun e => ?_
  split
  · exact advancing.bind (Congruence.Nested.checkConstructor (K := proceeding) _ _ _) hRest
  · exact hRest ()

end Operands

section Operators

theorem consumes_signed (h : Proceeding inner) (t : Token) : AlwaysConsumes (signed inner t) :=
  consumes_first (advancing.bind (h.expression _) fun _ => advancing.pure _)

theorem consumes_updated (h : Proceeding inner) (op : Punctuator) (t : Token) :
    AlwaysConsumes (updated inner op t) := by
  refine consumes_first (advancing.bind (h.expression _) fun e => ?_)
  exact advancing.bind (Congruence.Nested.checkUpdate (K := proceeding) e op t) fun _ =>
    advancing.pure _

theorem consumes_deletion (h : Proceeding inner) (t : Token) :
    AlwaysConsumes (deletion inner t) := by
  refine consumes_first (advancing.bind (h.expression _) fun e => ?_)
  split
  · exact advancing.bind (advancing_emit _) fun _ => advancing.pure _
  · exact advancing.pure _

theorem consumes_awaiting (h : Proceeding inner) (power : Nat) (t : Token) :
    AlwaysConsumes (awaiting inner power t) := by
  refine .still (fun _ => id) (advancing_of_holding (holding_peekIs _)) fun _ => consumes_first ?_
  refine advancing.ite _ ?_ (advancing.pure _)
  refine advancing.bind (advancing.discard (proceeding.eat _)) fun _ => ?_
  exact advancing.bind (advancing.discard (h.expression power)) fun _ => advancing.pure _

/-- A unary expression consumes its operator or its operand. -/
theorem consumes_unary (h : Consuming inner) : AlwaysConsumes (unary inner) := by
  have hNested := h.toNested
  refine .still (fun _ => id) proceeding.current fun t => ?_
  -- the operators consume themselves, an operand without one consumes its first token
  split
  · exact consumes_signed hNested t
  · exact consumes_signed hNested t
  · exact consumes_signed hNested t
  · exact consumes_signed hNested t
  · exact .still (fun _ => id) (Congruence.Nested.checkBitwise (K := proceeding) _ t) fun _ =>
      consumes_signed hNested t
  · exact consumes_updated hNested _ t
  · exact consumes_updated hNested _ t
  · exact consumes_first (advancing.bind hNested.typeofOperand fun _ => advancing.pure _)
  · exact consumes_deletion hNested t
  · exact consumes_awaiting hNested _ t
  · exact consumes_awaiting hNested _ t
  · exact (consumes_operand h).bind fun base => hNested.chain true base

/-- So does a row of operators. -/
theorem consumes_operators (h : Consuming inner) (least : Nat) :
    AlwaysConsumes (operators inner least) :=
  (consumes_unary h).bind fun left => proceeding.loop (h.operatorRound least) left

end Operators

section Statements

theorem consumes_block (h : Proceeding inner) : AlwaysConsumes (block inner) := by
  refine consumes_opener fun opener => ?_
  refine advancing.bind (proceeding.insideBlock opener (h.statementList _)) fun count => ?_
  refine advancing.bind proceeding.flushScopes fun _ => ?_
  exact advancing.when _ (proceeding.warnIf _ _ _ _ rfl) fun _ =>
    proceeding.expectStatementClosing _ _

theorem consumes_variableStatement (h : Proceeding inner) (kind : Scope.BindingKind) :
    AlwaysConsumes (variableStatement inner kind) := by
  have hDeclarations : AlwaysConsumes (declarations inner kind) :=
    consumes_first (proceeding.loop (h.declaration kind) ())
  exact hDeclarations.bind fun _ => proceeding.consumeSemicolon

theorem consumes_ifStatement (h : Proceeding inner) : AlwaysConsumes (ifStatement inner) := by
  have hFirst : AlwaysConsumes (ifRound inner ()) := by
    refine consumes_first ?_
    refine advancing.bind proceeding.addBranch fun _ => advancing.bind h.condition fun _ => ?_
    refine advancing.bind h.body fun _ => advancing.bind (proceeding.seesWord _) fun _ => ?_
    refine advancing.ite _ (advancing.pure _) (advancing.bind proceeding.advance fun _ => ?_)
    refine advancing.bind (proceeding.seesWord _) fun _ => advancing.ite _ ?_ ?_
    · exact advancing.bind proceeding.addStatement fun _ => advancing.pure _
    · exact advancing.bind h.body fun _ => advancing.pure _
  exact .loop h.ifRound hFirst

theorem consumes_forStatement (h : Proceeding inner) : AlwaysConsumes (forStatement inner) := by
  refine consumes_opener fun t => advancing.bind proceeding.addBranch fun _ => ?_
  refine advancing.bind proceeding.current fun opener =>
    advancing.bind (proceeding.expect _) fun _ => ?_
  refine advancing.bind proceeding.current fun _ => advancing.ite _ ?_ ?_
  · exact advancing.bind (advancing_withFrame _ (h.forRest t opener)) fun _ =>
      proceeding.flushScopes
  · exact advancing.bind (h.forRest t opener) fun _ => proceeding.flushScopes

theorem consumes_whileStatement (h : Proceeding inner) : AlwaysConsumes (whileStatement inner) := by
  refine consumes_first (advancing.bind proceeding.addBranch fun _ => ?_)
  exact advancing.bind h.condition fun _ => h.loopBody

theorem consumes_doStatement (h : Proceeding inner) : AlwaysConsumes (doStatement inner) := by
  refine consumes_first (advancing.bind proceeding.addBranch fun _ =>
    advancing.bind h.loopBody fun _ => ?_)
  refine advancing.bind (proceeding.expectWord _) fun _ => advancing.bind h.condition fun _ => ?_
  exact proceeding.finishStatement true

theorem consumes_switchStatement (h : Proceeding inner) :
    AlwaysConsumes (switchStatement inner) := by
  refine consumes_first (advancing.bind proceeding.current fun _ => ?_)
  refine advancing.bind (proceeding.expect _) fun _ => ?_
  refine advancing.bind (advancing.discard h.wholeExpression) fun _ => ?_
  refine advancing.bind (proceeding.expectClosing _ _) fun _ =>
    advancing.bind proceeding.current fun _ => ?_
  refine advancing.bind (proceeding.expect _) fun _ => ?_
  exact advancing.bind (proceeding.loop h.switchRound ()) fun _ =>
    proceeding.expectStatementClosing _ _

theorem consumes_tryStatement (h : Proceeding inner) : AlwaysConsumes (tryStatement inner) := by
  refine consumes_first (advancing.bind h.expectBlock fun _ =>
    advancing.bind h.catchPart fun _ => ?_)
  refine advancing.bind h.finallyPart fun _ => ?_
  exact advancing.ite _ (proceeding.failExpected _) (advancing.pure ())

theorem consumes_withStatement (h : Proceeding inner) : AlwaysConsumes (withStatement inner) := by
  refine .still (fun _ => id) proceeding.current fun t => ?_
  refine .still (fun _ => id) (proceeding.warnUnless _ _ _ _ rfl) fun _ => consumes_first ?_
  refine advancing.bind proceeding.current fun opener =>
    advancing.bind (proceeding.expect _) fun _ => ?_
  refine advancing.bind (advancing.discard h.wholeExpression) fun _ => ?_
  exact advancing.bind (proceeding.expectStatementClosing _ _) fun _ => h.body

theorem consumes_debuggerStatement : AlwaysConsumes debuggerStatement := by
  refine .still (fun _ => id) proceeding.current fun t => ?_
  refine .still (fun _ => id) (proceeding.warnUnless _ _ _ _ rfl) fun _ => ?_
  exact consumes_first proceeding.consumeSemicolon

/-- A statement consumes its expression. -/
theorem consumes_expressionStatement (h : Consuming inner) :
    AlwaysConsumes (expressionStatement inner) := by
  refine (h.expressions 0).bind fun e => ?_
  exact advancing.bind (Congruence.Nested.checkExpressionStatement (K := proceeding) e) fun _ =>
    proceeding.consumeSemicolon

theorem consumes_identifierStatement (h : Consuming inner) (name : String) :
    AlwaysConsumes (identifierStatement inner name) := by
  have hExpression := consumes_expressionStatement h
  refine .ite _ (fun _ => ?_) fun _ => hExpression
  refine .still (fun _ => id) (advancing_of_holding (holding_peekIs _)) fun _ => ?_
  exact .ite _ (fun _ => consumes_first h.functionDeclaration) fun _ => hExpression

/-- One case for each kind of statement. -/
theorem consumes_plainStatement (h : Consuming inner) (t : Token) :
    AlwaysConsumes (plainStatement inner t) := by
  have hNested := h.toNested
  unfold plainStatement
  split
  · exact consumes_block hNested
  · exact .still (fun _ => id) (proceeding.warnHere _ rfl) fun _ => consumes_advance fun _ => id
  · exact consumes_identifierStatement h _
  · exact consumes_variableStatement hNested _
  · exact consumes_variableStatement hNested _
  · exact consumes_variableStatement hNested _
  · exact consumes_functionDeclaration hNested
  · exact consumes_classForm hNested hNested.heritage true
  · exact consumes_ifStatement hNested
  · exact consumes_forStatement hNested
  · exact consumes_whileStatement hNested
  · exact consumes_doStatement hNested
  · exact consumes_switchStatement hNested
  · exact consumes_tryStatement hNested
  · exact consumes_withStatement hNested
  · exact consumes_debuggerStatement
  · exact consumes_expressionStatement h

theorem consumes_returnStatement (h : Proceeding inner) :
    AlwaysConsumes (returnStatement inner) := by
  refine consumes_first (advancing.bind proceeding.current fun t => ?_)
  refine advancing.ite _ ?_ proceeding.consumeSemicolon
  refine advancing.bind h.wholeExpression fun value => ?_
  exact advancing.when _ (proceeding.warnUnless _ _ _ _ rfl) fun _ => proceeding.consumeSemicolon

theorem consumes_throwStatement (h : Proceeding inner) : AlwaysConsumes (throwStatement inner) :=
  consumes_first (advancing.bind (advancing.discard h.wholeExpression) fun _ =>
    proceeding.consumeSemicolon)

theorem consumes_jumpStatement : AlwaysConsumes jumpStatement :=
  consumes_first (advancing.bind (Congruence.Nested.jumpLabel (K := proceeding)) fun _ =>
    proceeding.consumeSemicolon)

/-- Each kind of statement consumes its keyword. -/
theorem consumes_unlabeledStatement (h : Consuming inner) (t : Token) :
    AlwaysConsumes (unlabeledStatement inner t) := by
  refine .still (fun _ => id) proceeding.addStatement fun _ => ?_
  split
  · exact (consumes_returnStatement h.toNested).bind fun _ => advancing.pure _
  · exact (consumes_throwStatement h.toNested).bind fun _ => advancing.pure _
  · exact consumes_jumpStatement.bind fun _ => advancing.pure _
  · exact consumes_jumpStatement.bind fun _ => advancing.pure _
  · exact (consumes_plainStatement h t).bind fun _ => advancing.pure _

theorem consumes_labeledStatement (h : Proceeding inner) :
    Consumes T (fun _ => True) (labeledStatement inner) := by
  refine consumes_expectIdentifier.bind fun label =>
    advancing.bind (proceeding.expect _) fun _ => ?_
  refine advancing.bind (advancing_withFrame _ ?_) fun _ => proceeding.flushScopes
  exact advancing.bind (advancing_step (.names (.addLabel _))) fun _ =>
    advancing.discard h.statement

/-- So does a statement with its labels. -/
theorem consumes_statement (h : Consuming inner) : AlwaysConsumes (statement inner) := by
  refine .still (fun _ => id) proceeding.current fun t => ?_
  refine .ite _ (fun _ => ?_) fun _ => consumes_unlabeledStatement h t
  refine .still (fun _ => id) (advancing_of_holding (holding_peekIs _)) fun _ => ?_
  refine .ite _ (fun _ => ?_) fun _ => consumes_unlabeledStatement h t
  exact (consumes_labeledStatement h.toNested).bind fun _ => advancing.pure _

end Statements

/-- By induction on the levels: statements, expressions and `new` expressions consume a token. -/
theorem consuming_levels (n : Nat) : Consuming (levels n) := by
  induction n with
  | zero =>
    have hNever {α : Type} : AlwaysConsumes (tooDeep : Parse α) :=
      ⟨advancing_tooDeep, fun _ _ ht => by cases ht⟩
    exact ⟨proceeding_levels 0, hNever, fun _ => hNever, hNever⟩
  | succ n ih =>
    exact {
      toNested := proceeding_levels (n + 1)
      statements := (consumes_statement ih).deeper
      expressions power := (consumes_operators ih power).deeper
      constructions := (consumes_construction ih.toNested).deeper }

end Grammar

end ScriptLint
