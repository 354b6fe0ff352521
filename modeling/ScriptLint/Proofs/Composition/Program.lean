import ScriptLint.Proofs.Composition.Basic

/-!
# How the grammar is composed

One definition for each parser, in the order of the grammar, up to `Composition.program`. The
derived ways come first: expected tokens, conditional findings, names. Then each parser is composed
of its parts, given how the parsers one level deeper are composed. What a parser needs to know about
the token that it starts at is a hypothesis on that token. The parsers beyond the last level stop
the run.
-/

namespace ScriptLint.Grammar.Composition

open Parse

section Ways

variable {L : Likeness} {α β : Type} {T T' : Token → Prop} {Q : α → Token → Prop}
  {p p' q q' : Parse α}

/-- More is known about the current token. -/
def under (c : Composition L T p p' Q) (h : ∀ t, T' t → T t) : Composition L T' p p' Q :=
  .weaken h c fun _ _ => id

def anywhere (c : Composition L (fun _ => True) p p' Q) :
    Composition L T p p' Q := c.under fun _ _ => trivial

/-- What is known about the token after the parser does not matter. -/
def forget (c : Composition L T p p' Q) : Composition L T p p' Anywhere :=
  .weaken (fun _ => id) c fun _ _ _ => trivial

/-- Less is known about the token than before, but not because of the parser. -/
def pass (c : Composition L T p p' fun _ => T) (h : ∀ t, T t → T' t) :
    Composition L T p p' fun _ => T' :=
  .weaken (fun _ => id) c fun _ => h

def done (a : α) : Composed L T (Pure.pure a : Parse α) := .pure a fun _ _ => trivial

def discard (c : Composition L T p p' Anywhere) :
    Composition L T (Functor.discard p) (Functor.discard p') Anywhere :=
  let d : Composition L T (p >>= fun _ => Pure.pure ()) (p' >>= fun _ => Pure.pure ()) Anywhere :=
    .bind c fun _ => .done ()
  d

/-- Only one of the branches does something before both go on in the same way. -/
def when (c : Prop) [Decidable c] {p p' : Parse Unit} {f f' : Unit → Parse α}
    (d : Composition L T p p' fun _ => T) (e : ∀ u, Composition L T (f u) (f' u) Q) :
    Composition L T (if c then p >>= f else f ()) (if c then p' >>= f' else f' ()) Q :=
  .ite c (fun _ => .bind d e) fun _ => e ()

/-- Both go on in the same way, wherever they are. -/
def whenever (c : Prop) [Decidable c] {p p' : Parse Unit} {f f' : Unit → Parse α}
    (d : Composition L T p p' Anywhere) (e : ∀ u, Composition L (fun _ => True) (f u) (f' u) Q) :
    Composition L T (if c then p >>= f else f ()) (if c then p' >>= f' else f' ()) Q :=
  .ite c (fun _ => .bind d e) fun _ => (e ()).anywhere

/-- A loop about whose current token nothing is known. -/
def cycle {f : α → Parse (Round α)} (h : ∀ a, RoundConsumes (f a))
    (c : ∀ a, Composed L (fun _ => True) (f a)) (a : α) : Composed L T (Parse.loop f a) :=
  anywhere (.loop a h fun b => .weaken (fun _ => id) (c b) fun r _ _ => by cases r <;> trivial)

/-! ### Looking -/

def current {f f' : Token → Parse α}
    (c : ∀ t w, L.Like t w → Composition L (fun u => u = t ∧ T u) (f t) (f' (t.reworded w)) Q) :
    Composition L T (Parse.current >>= f) (Parse.current >>= f') Q :=
  .read fun s x h => c s.token x.token h.token

def sees (p : Punctuator) :
    Composition L T (sees p) (sees p) fun b t => t.isPunctuator p = b ∧ T t :=
  .read fun s _ _ => .pure (s.token.isPunctuator p) fun _ ⟨h, hT⟩ => ⟨h ▸ rfl, hT⟩

def seesWord (word : Keyword) :
    Composition L T (seesWord word) (seesWord word) fun b t => t.isKeyword word = b ∧ T t :=
  .read fun s _ _ => .pure (s.token.isKeyword word) fun _ ⟨h, hT⟩ => ⟨h ▸ rfl, hT⟩

def seesName (name : String) :
    Composition L T (seesName name) (seesName name) fun b t =>
      (t.identifier? == some name) = b ∧ T t :=
  .read fun s _ _ => .pure (s.token.identifier? == some name) fun _ ⟨h, hT⟩ => ⟨h ▸ rfl, hT⟩

def peekIs (test : Token → Bool) (h : ∀ t w, test (Token.reworded t w) = test t) :
    Composition L T (peekIs test) (peekIs test) fun _ => T :=
  .peek 0 (·.any test) fun t w _ => h t w

def peekArrowAfterNext : Composition L T peekArrowAfterNext peekArrowAfterNext fun _ => T :=
  .peek 1 (·.any (·.isPunctuator .arrow)) fun _ _ _ => rfl

def enabled (s : Setting) : Composition L T (enabled s) (enabled s) fun _ => T :=
  .read fun t _ _ => .pure (t.layers.enabled s) fun _ h => h.2

/-! ### Findings -/

section Findings

variable {f f' : Finding} (line column : Nat)

def warnToken (t : Token) (w : Wording) (hCode : f'.code = f.code) (hPhase : f'.phase = f.phase)
    (h : f.isPlain) : Composition L T (Parse.warn f t) (Parse.warn f' (t.reworded w)) fun _ => T :=
  .warn t.line t.column hCode hPhase h

def warnHere (hCode : f'.code = f.code) (hPhase : f'.phase = f.phase) (h : f.isPlain) :
    Composition L T (warnHere f) (warnHere f') fun _ => T :=
  .read fun s x _ => (warnToken s.token x.token hCode hPhase h).pass fun _ => And.right

def warnIf (s : Setting) (hCode : f'.code = f.code) (hPhase : f'.phase = f.phase) (h : f.isPlain) :
    Composition L T (warnIf s f line column) (warnIf s f' line column) fun _ => T :=
  .bind (enabled s) fun on => .ite (on = true) (fun _ => .warn line column hCode hPhase h) fun _ =>
    .pure () fun _ => id

def warnUnless (s : Setting) (h : f.isPlain) :
    Composition L T (warnUnless s f line column) (warnUnless s f line column) fun _ => T :=
  .bind (enabled s) fun on => .ite ((!on) = true) (fun _ => .warn line column rfl rfl h) fun _ =>
    .pure () fun _ => id

def failHere (hCode : f'.code = f.code) (hPhase : f'.phase = f.phase) (h : f.givesUp) :
    Composition L T (failHere f : Parse α) (failHere f') Q :=
  .read fun _ _ _ => .fail hCode hPhase h rfl

def failExpected (expected : String) :
    Composition L T (failExpected expected : Parse α) (failExpected expected) Q :=
  .read fun _ _ _ => failHere rfl rfl rfl

def failIdentifier : Composition L T (failIdentifier : Parse α) failIdentifier Q :=
  .read fun _ _ _ => failHere rfl rfl rfl

/-- What would come after it does not matter. -/
def failIdentifierBefore {k k' : α → Parse β} {R : β → Token → Prop} :
    Composition L T (Parse.failIdentifier >>= k) (Parse.failIdentifier >>= k') R :=
  let d : Composition L T
      (get >>= fun s => get >>= fun u =>
        (failAt (.expectedIdentifier s.token.describe) u.token : Parse α) >>= k)
      (get >>= fun s => get >>= fun u => failAt (.expectedIdentifier s.token.describe)
        u.token >>= k') R :=
    .read fun _ _ _ => .read fun _ _ _ => .failBefore (.fail rfl rfl rfl rfl)
  d

end Findings

/-! ### Tokens -/

/-- Consumes a token by its role. -/
def consume (h : ∀ t, T t → t.decides = false) :
    Composed L T Parse.advance := .advance .plain fun _ => h

theorem decides_of_first {p : Punctuator} (hp : [Punctuator.and, .or, .question].contains p = false)
    (t : Token)
    (h : t.isPunctuator p ∧ T t) : t.decides = false := (Token.decides_of_isPunctuator h.1).trans hp

theorem decides_of_word {word : Keyword}
    (hWord : [Keyword.ifWord, .forWord, .whileWord, .caseWord].contains word = false) (t : Token)
    (h : t.isKeyword word ∧ T t) : t.decides = false := (Token.decides_of_isKeyword h.1).trans hWord

def eat (p : Punctuator) (hp : [Punctuator.and, .or, .question].contains p = false := by rfl) :
    Composition L T (eat p) (eat p) fun b t => b = false → T t :=
  .bind (sees p) fun b => .ite (b = true)
    (fun h => .bind (consume fun t ht => decides_of_first hp t (h ▸ ht)) fun _ =>
      .pure true fun _ _ => nofun)
    fun _ => .pure false fun _ ht _ => ht.2

def expect (p : Punctuator) (hp : [Punctuator.and, .or, .question].contains p = false := by rfl) :
    Composed L T (expect p) :=
  .bind (sees p) fun b =>
    .ite (b = true) (fun h => consume fun t ht => decides_of_first hp t (h ▸ ht))
    fun _ => failExpected _

def expectWord (word : Keyword)
    (hWord : [Keyword.ifWord, .forWord, .whileWord, .caseWord].contains word = false := by rfl) :
    Composed L T (expectWord word) :=
  .bind (seesWord word) fun b => .ite (b = true)
    (fun h => consume fun t ht => decides_of_word hWord t (h ▸ ht)) fun _ => failExpected _

def expectClosing (p : Punctuator) (opener : Token) (w : Wording)
    (hp : [Punctuator.and, .or, .question].contains p = false := by rfl) :
    Composition L T (expectClosing p opener) (expectClosing p (opener.reworded w)) Anywhere :=
  .bind (sees p) fun b =>
    .ite (b = true) (fun h => consume fun t ht => decides_of_first hp t (h ▸ ht))
    fun _ => current fun t _ _ => .ite (t.isEnd = true) (fun _ => .fail rfl rfl rfl rfl) fun _ =>
      failExpected _

def expectStatementClosing (p : Punctuator) (opener : Token) (w : Wording)
    (hp : [Punctuator.and, .or, .question].contains p = false := by rfl) :
    Composition L T (expectStatementClosing p opener)
      (expectStatementClosing p (opener.reworded w)) Anywhere :=
  .bind (sees p) fun b => .ite (b = true)
    (fun h => .bind .allowRegex fun _ => consume fun t ht => decides_of_first hp t (h ▸ ht))
    fun _ => expectClosing p opener w hp

def finishStatement (always : Bool) : Composed L T (finishStatement always) :=
  .bind (eat .semicolon).forget fun eaten => .ite ((!eaten) = true)
    (fun _ => .read fun s _ _ => .ite _
      (fun _ => .ite _ (fun _ => forget (warnUnless _ _ .asi rfl)) fun _ => .done ())
      fun _ => forget (.warn _ _ rfl rfl rfl))
    fun _ => .done ()

def consumeSemicolon : Composed L T consumeSemicolon := finishStatement false

/-! ### Names, counts and surroundings -/

def names {f : Scope.Tracker → Setting.Layers → Scope.Tracker} (h : NameStep f) :
    Composition L T (modifyScopes f) (modifyScopes f) fun _ => T :=
  .change _ {
    rendered := fun _ _ => rfl
    rendering := fun _ => rfl
    kind := fun _ => rfl
    complexities := fun _ => rfl
    calm := fun s hs => hs.evolves (evolves_nameStep h s.scopes s.layers) }

def count (f : FunctionMetrics → FunctionMetrics) (h : ∀ m, (f m).complexity = m.complexity) :
    Composition L T (modifyMetrics (·.count f)) (modifyMetrics (·.count f)) fun _ => T :=
  .change _ {
    rendered := fun _ _ => rfl
    rendering := fun _ => rfl
    kind := fun _ => rfl
    complexities := fun s => by
      simp [Metrics.complexities, Metrics.count, Stack.modifyTop, Stack.toList, h]
    calm := fun _ => id }

def addStatement :
    Composition L T (modifyMetrics Metrics.addStatement) (modifyMetrics Metrics.addStatement)
    fun _ => T :=
  count _ fun _ => rfl

def setHint (name : Option String) : Composition L T (setHint name) (setHint name) fun _ => T :=
  .change _ (.of_surroundings (fun _ _ => rfl) fun _ => rfl)

def clearingHint (c : Composition L T p p' Q) : Composition L T p.clearingHint p'.clearingHint Q :=
  .ensuring _ (.of_surroundings (fun _ _ => rfl) fun _ => rfl) c

def withNoIn (noIn : Bool) (c : Composition L T p p' Q) :
    Composition L T (withNoIn noIn p) (withNoIn noIn p') Q :=
  .read fun _ _ _ => .bind (.change _ (.of_surroundings (fun _ _ => rfl) fun _ => rfl)) fun _ =>
    .ensuring _ (.of_surroundings (fun _ _ => rfl) fun _ => rfl) (c.under fun _ => And.right)

def checkCamelCase (name : String) (line column : Nat) :
    Composition L T (checkCamelCase name line column) (checkCamelCase name line column)
      fun _ => T :=
  .ite _ (fun _ => warnIf line column .camelcase rfl rfl rfl) fun _ => .pure () fun _ => id

def declare (name : String) (kind : Scope.BindingKind) (line column : Nat) :
    Composition L T (declare name kind line column) (declare name kind line column) fun _ => T :=
  .when _ (checkCamelCase name line column) fun _ =>
    .bind (names (.declare name kind line column)) fun _ => .flush

def reference (name : String) (line column : Nat) :
    Composition L T (reference name line column) (reference name line column) fun _ => T :=
  .bind (names (.reference name line column)) fun _ => .flush

def assign (name : String) (line column : Nat) :
    Composition L T (assign name line column) (assign name line column) fun _ => T :=
  .bind (names (.assign name line column)) fun _ => .flush

/-- Identifiers are returned with their tokens. -/
def expectIdentifier {f f' : String × Token → Parse α}
    (c : ∀ name t w, L.Like t w → Composition L (fun _ => True) (f (name, t))
    (f' (name, t.reworded w)) Q) :
    Composition L T (Parse.expectIdentifier >>= f) (Parse.expectIdentifier >>= f') Q :=
  let found (t : Token) : Parse (String × Token) :=
    match t.identifier? with
    | some name => do
      Parse.advance
      return (name, t)
    | none => Parse.failIdentifier
  let d :
      Composition L T (Parse.current >>= fun t => found t >>= f)
      (Parse.current >>= fun t => found t >>= f') Q :=
    current fun t w h => by
      dsimp only [found, Token.identifier?, Token.reworded]
      split
      · next name hName =>
        refine .assoc (.bind (consume fun u hu => ?_) fun _ => c name t w h)
        exact Token.decides_of_identifier (hu.1 ▸ hName)
      · exact failIdentifierBefore
  d

end Ways

/-! ## Levels -/

/-- The parsers one level deeper are composed in some way. -/
structure Nested (L : Likeness) (inner : ScriptLint.Nested) where
  consuming : Consuming inner
  statement {T : Token → Prop} : Composed L T inner.statement
  expression {T : Token → Prop} (power : Nat) : Composed L T (inner.expression power)
  binding {T : Token → Prop} (kind : Scope.BindingKind) : Composed L T (inner.binding kind)
  construction {T : Token → Prop} (h : ∀ t, T t → t.isKeyword .newWord) :
    Composed L T inner.construction

noncomputable section

variable {L : Likeness} {inner : ScriptLint.Nested} {T : Token → Prop} {α β : Type}

/-- The comma after an element of a list. -/
def comma (a b : α) : Composed L T (do if ← Parse.eat .comma then return a else return b) :=
  .bind (eat .comma).forget fun _ => .ite _ (fun _ => .done a) fun _ => .done b

/-- A token of the kind decides nothing. -/
theorem decides_at {t : Token} {kind : TokenKind} (hKind : t.kind = kind)
    (h : ∀ u : Token, u.kind = kind → u.decides = false) (u : Token) (hu : u = t ∧ T u) :
    u.decides = false :=
  h u (hu.1 ▸ hKind)

theorem isPunctuator_at {t : Token} {p : Punctuator} (hKind : t.kind = .punctuator p) (u : Token)
    (hu : u = t ∧ T u) : u.isPunctuator p := by
  obtain ⟨rfl, -⟩ := hu
  simp [Token.isPunctuator, hKind]

theorem isKeyword_at {t : Token} {word : Keyword} (hKind : t.kind = .keyword word) (u : Token)
    (hu : u = t ∧ T u) : u.isKeyword word := by
  obtain ⟨rfl, -⟩ := hu
  simp [Token.isKeyword, hKind]

theorem identifier_at {t : Token} {name : String} (hKind : t.kind = .identifier name) (u : Token)
    (hu : u = t ∧ T u) : u.identifier? = some name := by
  obtain ⟨rfl, -⟩ := hu
  simp [Token.identifier?, hKind]

/-- Consumes the punctuator that the token is. -/
def consumePunctuator (p : Punctuator) (h : ∀ t, T t → t.isPunctuator p)
    (hp : [Punctuator.and, .or, .question].contains p = false := by rfl) :
    Composed L T Parse.advance :=
  consume fun t ht => (Token.decides_of_isPunctuator (h t ht)).trans hp

/-- Consumes the reserved word that the token is. -/
def consumeWord (word : Keyword) (h : ∀ t, T t → t.isKeyword word)
    (hWord : [Keyword.ifWord, .forWord, .whileWord, .caseWord].contains word = false := by rfl) :
    Composed L T Parse.advance :=
  consume fun t ht => (Token.decides_of_isKeyword (h t ht)).trans hWord

def consumeIdentifier (h : ∀ t, T t → ∃ name, t.identifier? = some name) :
    Composed L T Parse.advance :=
  consume fun t ht => (h t ht).elim fun _ => Token.decides_of_identifier

def consumeName : Composed L T Parse.advance := .advance .any nofun

namespace Nested

def wholeExpression (h : Nested L inner) : Composed L T inner.wholeExpression := h.expression 0

def assignment (h : Nested L inner) : Composed L T inner.assignment := h.expression Power.assignment

def defaultValue (h : Nested L inner) : Composed L T inner.defaultValue :=
  .bind (eat .assign).forget fun _ => .ite _ (fun _ => discard h.assignment) fun _ => .done ()

/-! ## Patterns -/

def arrayPatternElement (h : Nested L inner) (kind : Scope.BindingKind) (u : Unit) :
    Composed L T (arrayPatternElement inner kind u) := by
  refine .bind (sees _).forget fun _ => .ite _ (fun _ => .done _) fun _ => ?_
  refine .bind (eat _).forget fun _ => .ite _ (fun _ => .done _) fun _ => ?_
  refine .bind (discard (eat _).forget) fun _ => .bind (h.binding kind) fun _ => ?_
  exact .bind h.defaultValue fun _ => comma _ _

def arrayPattern (h : Nested L inner) (kind : Scope.BindingKind)
    (hT : ∀ t, T t → t.isPunctuator .leftBracket) : Composed L T (arrayPattern inner kind) := by
  refine current fun opener w _ =>
    .bind (consumePunctuator .leftBracket fun t ht => hT t ht.2) fun _ => ?_
  refine .bind (cycle ?_ (h.arrayPatternElement kind) ()) fun _ => expectClosing _ opener w
  exact (Iteration.arrayPattern kind).consumes h.consuming

def patternKey (h : Nested L inner) : Composed L T (patternKey inner) := by
  refine current fun key w _ => ?_
  dsimp only [Token.reworded]
  split
  · exact consumeName
  · exact consumeName
  · exact consumeName
  · exact consumeName
  · next hKind =>
    refine .bind (consumePunctuator .leftBracket (isPunctuator_at hKind)) fun _ => ?_
    exact .bind (discard h.assignment) fun _ => expectClosing _ key w
  · exact failIdentifier

def patternProperty (h : Nested L inner) (kind : Scope.BindingKind) :
    Composed L T (patternProperty inner kind) := by
  refine current fun key w _ => .bind h.patternKey fun _ => ?_
  refine .bind (eat _).forget fun _ => .ite _ (fun _ => h.binding kind) fun _ => ?_
  dsimp only [Token.identifier?, Token.reworded]
  split
  · exact (declare _ _ _ _).forget
  · exact failExpected _

def objectPatternElement (h : Nested L inner) (kind : Scope.BindingKind) (u : Unit) :
    Composed L T (objectPatternElement inner kind u) := by
  refine .bind (sees _).forget fun _ => .ite _ (fun _ => .done _) fun _ => ?_
  refine .bind (eat _).forget fun _ => .ite _ (fun _ => ?_) fun _ => ?_
  · exact .bind (h.binding kind) fun _ => .bind h.defaultValue fun _ => comma _ _
  · exact .bind (h.patternProperty kind) fun _ => .bind h.defaultValue fun _ => comma _ _

def objectPattern (h : Nested L inner) (kind : Scope.BindingKind)
    (hT : ∀ t, T t → t.isPunctuator .leftBrace) : Composed L T (objectPattern inner kind) := by
  refine current fun opener w _ =>
    .bind (consumePunctuator .leftBrace fun t ht => hT t ht.2) fun _ => ?_
  refine .bind (cycle ?_ (h.objectPatternElement kind) ()) fun _ => expectClosing _ opener w
  exact (Iteration.objectPattern kind).consumes h.consuming

def bindingTarget (h : Nested L inner) (kind : Scope.BindingKind) :
    Composed L T (bindingTarget inner kind) := by
  refine current fun t w _ => ?_
  dsimp only [Token.reworded]
  split
  · next hKind =>
    refine .bind (consumeIdentifier fun u hu => ⟨_, identifier_at hKind u hu⟩) fun _ => ?_
    exact (declare _ _ _ _).forget
  · next hKind => exact h.arrayPattern kind (isPunctuator_at hKind)
  · next hKind => exact h.objectPattern kind (isPunctuator_at hKind)
  · exact failIdentifier

/-! ## Lists of statements -/

def skipToken (moved : Bool) : Composed L T (skipToken moved) := by
  refine current fun t w _ => .ite _ (fun _ => .done _) fun _ => .ite _ (fun _ => ?_) fun _ =>
    .ite _ (fun _ => .done _) fun _ => ?_
  · exact .bind (.advance .any nofun) fun _ => .done _
  · exact .bind (.advance .any nofun) fun _ => .done _

def skipping (moved : Bool) : Composed L T (Parse.loop Grammar.skipToken moved) :=
  cycle round_skipToken skipToken moved

def checkReachable (state : ListState) :
    Composition L T (checkReachable state) (checkReachable state) fun _ => T := by
  refine current fun t w _ => ?_
  split
  · refine .ite _ (fun _ => ?_) fun _ => .pure _ fun _ => And.right
    exact .bind (warnHere rfl rfl rfl) fun _ => .pure _ fun _ => And.right
  · exact .pure _ fun _ => And.right

def listStatement (h : Nested L inner) (state : ListState) :
    Composed L T (listStatement inner state) := by
  refine .bind (checkReachable state) fun state => current fun t w hLike => ?_
  refine .bind (.entry hLike h.statement skipping) fun flow => ?_
  cases flow with
  | normal => exact .done _
  | jump j => exact .done _

def listRound (h : Nested L inner) (stop : ListEnd) (state : ListState) :
    Composed L T (listRound inner stop state) := by
  refine current fun t w _ => .ite _ (fun _ => .done _) fun _ =>
    .ite _ (fun hBrace => ?_) fun _ => ?_
  · refine .bind (warnHere rfl rfl rfl) fun _ => ?_
    rw [Bool.and_eq_true] at hBrace
    exact .bind (consumePunctuator .rightBrace fun u hu => hu.1 ▸ hBrace.2) fun _ => .done _
  · exact .bind (h.listStatement state) fun _ => .done _

def statementList (h : Nested L inner) (stop : ListEnd) : Composed L T (statementList inner stop) :=
  .bind (cycle ((Iteration.statements stop).consumes h.consuming) (h.listRound stop) _)
    fun _ => .done _

/-! ## Functions -/

def makeStrict : Composition L T makeStrict makeStrict fun _ => T :=
  .change _ (.of_surroundings (fun _ _ => rfl) fun _ => rfl)

def enterStrict : Composition L T enterStrict enterStrict fun _ => T := by
  refine pass (T := fun t => T t) (.read fun s x _ => .ite _ (fun _ => ?_) fun _ => ?_) fun _ => id
  · exact (warnHere rfl rfl rfl).pass fun _ => And.right
  · refine .bind makeStrict fun _ => .ite _ (fun _ => ?_) fun _ => .pure () fun _ => And.right
    exact (warnHere rfl rfl rfl).pass fun _ => And.right

def prologueStatement {t : Token} {w : Wording} (h : L.Like t w)
    (hT : ∀ u, T u → u.decides = false) :
    Composition L T (prologueStatement t) (prologueStatement (t.reworded w)) Anywhere := by
  unfold Grammar.prologueStatement
  rw [L.useStrict h]
  refine .bind addStatement fun _ => .when _ enterStrict fun _ => ?_
  exact .bind (consume hT) fun _ => consumeSemicolon

theorem decides_of_isString {t : Token} (h : isString t) : t.decides = false := by
  unfold isString at h
  unfold Token.decides
  split at h
  · next hKind => rw [hKind]
  · cases h

def prologueRound (u : Unit) : Composed L T (prologueRound u) := by
  refine current fun t w h => .ite _ (fun _ => .done _) fun hString => ?_
  rw [Bool.not_eq_true', Bool.not_eq_false] at hString
  let strings (t : Token) (ends : Bool) : Parse (Round Unit) :=
    if !ends then return .done () else do
      Grammar.prologueStatement t
      return .again ()
  let d : Composition L (fun u => u = t ∧ T u)
      ((do return (← Parse.peek 0).all endsPrologueString) >>= strings t)
      ((do return (← Parse.peek 0).all endsPrologueString) >>= strings (t.reworded w))
        Anywhere := by
    refine .bind (.peek 0 (·.all endsPrologueString) fun _ _ _ => rfl) fun ends =>
      .ite _ (fun _ => .done _) fun _ => ?_
    refine .bind (prologueStatement h fun u hu => ?_) fun _ => .done _
    exact decides_of_isString (hu.1 ▸ hString)
  exact d

def prologue : Composed L T prologue := cycle (fun _ => round_prologue) prologueRound ()

def parameter (h : Nested L inner) (count : Nat) : Composed L T (parameter inner count) := by
  refine .bind (sees _).forget fun _ => .ite _ (fun _ => .done _) fun _ => ?_
  refine .bind (discard (eat _).forget) fun _ => .bind (h.binding _) fun _ => ?_
  exact .bind h.defaultValue fun _ => comma _ _

def parameterList (h : Nested L inner) : Composed L T (parameterList inner) := by
  refine current fun opener w _ => .bind (expect _) fun _ => ?_
  refine .bind (cycle (Iteration.parameters.consumes h.consuming) h.parameter 0) fun count => ?_
  exact .bind (expectClosing _ opener w) fun _ => .done _

def parameters (h : Nested L inner) (kind : FunctionKind) :
    Composed L T (parameters inner kind) := by
  refine .bind (sees _).forget fun _ => .ite _ (fun _ => ?_) fun _ => h.parameterList
  exact expectIdentifier fun name t w _ => .bind (declare _ _ _ _).forget fun _ => .done _

def openOverlay : Composition L T openOverlay openOverlay fun _ => T :=
  .change _ (.of_surroundings (fun _ _ => rfl) (fun _ => rfl) fun _ => .inr rfl)

def functionBody (h : Nested L inner) (kind : FunctionKind) :
    Composed L T (functionBody inner kind) :=
  .bind prologue fun _ => .read fun _ _ _ => .whenever _ (warnHere rfl rfl rfl).forget fun _ =>
    discard (h.statementList _)

def bracedBody (h : Nested L inner) (kind : FunctionKind) :
    Composed L T (bracedBody inner kind) := by
  refine .bind (sees _) fun brace => .ite _ (fun hBrace => ?_) fun _ => failExpected _
  refine .bind openOverlay fun _ =>
    .bind (consumePunctuator .leftBrace fun t ht => hBrace ▸ ht.1) fun _ => ?_
  exact withNoIn _ (h.functionBody kind)

def functionTail (h : Nested L inner) (kind : FunctionKind) :
    Composed L T (functionTail inner kind) := by
  refine whenever _ (expect .arrow) fun _ => .bind (sees _).forget fun _ => ?_
  refine .ite _ (fun _ => ?_) fun _ => ?_
  · exact .bind openOverlay fun _ => .bind (discard (withNoIn _ h.assignment)) fun _ => .done _
  · exact .bind (h.bracedBody kind) fun _ => .done _

def functionParts (h : Nested L inner) (kind : FunctionKind) (name : Option String)
    (line column : Nat) : Composed L T (functionParts inner kind name line column) := by
  have rest : Composed L (fun _ => True) (do
      let count ← Grammar.parameters inner kind
      modifyMetrics (·.setParameters count)
      Grammar.functionTail inner kind) :=
    .bind (h.parameters kind) fun _ => .bind (count _ fun _ => rfl) fun _ => h.functionTail kind
  unfold Grammar.functionParts
  split
  · exact .bind (declare _ _ _ _).forget fun _ => rest
  · exact rest.anywhere

def closingBrace (kind : FunctionKind) : Composed L T (closingBrace kind) := by
  refine .bind (sees _) fun brace => .ite _ (fun hBrace => ?_) fun _ => expect _
  rw [Bool.and_eq_true] at hBrace
  exact .bind .allowRegex fun _ => consumePunctuator .rightBrace fun t ht => ht.1.trans hBrace.2

def function (h : Nested L inner) (kind : FunctionKind) (name : Option String) (line column : Nat) :
    Composed L T (function inner kind name line column) := by
  refine .read fun s x _ => .whenever _ (warnUnless _ _ _ rfl).forget fun _ => ?_
  refine .bind (.insideFunction kind name line column (h.functionParts kind name line column))
    fun braced => ?_
  exact .ite _ (fun _ => closingBrace kind) fun _ => .done ()

/-! ## Properties, arguments and calls -/

def checkProperty (object : Summary) (key : String) {place : Token} {w : Wording} :
    Composition L T (checkProperty object key place) (checkProperty object key (place.reworded w))
      Anywhere := by
  unfold Grammar.checkProperty
  refine whenever _ (warnUnless _ _ .proto rfl).forget fun _ => ?_
  dsimp only
  split
  · exact .ite _ (fun _ => (warnIf _ _ _ rfl rfl rfl).forget) fun _ => .done ()
  · exact .done ()

def checkSubscript (key : String) (subscript : Summary) :
    Composed L T (checkSubscript key subscript) :=
  .ite _ (fun _ => (warnUnless _ _ _ rfl).forget) fun _ => .done ()

def checkImpliedEval (first : Option Summary) : Composed L T (checkImpliedEval first) := by
  unfold Grammar.checkImpliedEval
  split
  · split
    · exact (warnUnless _ _ _ rfl).forget
    · exact .done ()
  · exact .done ()

def checkNamedCall (name : String) (callee : Summary) (first : Option Summary) :
    Composed L T (checkNamedCall name callee first) := by
  refine .ite _ (fun _ => (warnUnless _ _ _ rfl).forget) fun _ =>
    .ite _ (fun _ => checkImpliedEval first) fun _ => ?_
  refine .ite _ (fun _ => (Composition.warn _ _ rfl rfl rfl).forget) fun _ => ?_
  exact .ite _ (fun _ => (warnIf _ _ _ rfl rfl rfl).forget) fun _ => .done ()

def checkCall (callee : Summary) (first : Option Summary) :
    Composed L T (checkCall callee first) := by
  unfold Grammar.checkCall
  split
  · exact checkNamedCall _ callee first
  · exact checkImpliedEval first
  · exact checkImpliedEval first
  · exact .done ()

def argument (h : Nested L inner) (first : Option Summary) :
    Composed L T (argument inner first) := by
  refine .bind (sees _).forget fun _ => .ite _ (fun _ => .done _) fun _ => ?_
  exact .bind (discard (eat _).forget) fun _ => .bind h.assignment fun value => comma _ _

def arguments (h : Nested L inner) (hT : ∀ t, T t → t.isPunctuator .leftParen) :
    Composed L T (arguments inner) := by
  refine current fun opener w _ =>
    .bind (consumePunctuator .leftParen fun t ht => hT t ht.2) fun _ => ?_
  refine .bind (withNoIn _ (cycle (Iteration.arguments.consumes h.consuming) h.argument none))
    fun first => ?_
  exact .bind (expectClosing _ opener w) fun _ => .done _

theorem decides_of_template {t : Token} {part : TemplatePart} {cooked : String}
    (h : t.kind = .template part cooked) : t.decides = false := by
  rw [Token.decides, h]

def substitution (h : Nested L inner) (u : Unit) : Composed L T (substitution inner u) := by
  refine .bind (discard (withNoIn _ h.wholeExpression)) fun _ => current fun t w _ => ?_
  dsimp only [Token.reworded]
  split
  · next hKind =>
    exact .bind (consume (decides_at hKind fun _ => decides_of_template)) fun _ => .done _
  · next hKind =>
    exact .bind (consume (decides_at hKind fun _ => decides_of_template)) fun _ => .done _
  · exact failExpected _

def template (h : Nested L inner) (hT : ∀ t, T t → t.decides = false) :
    Composed L T (template inner) :=
  .bind (consume hT) fun _ => cycle (Iteration.template.consumes h.consuming) h.substitution ()

def dottedProperty (left : Summary) (optional : Bool) (hT : ∀ t, T t → t.decides = false) :
    Composed L T (dottedProperty left optional) := by
  refine .bind (consume hT) fun _ => current fun property w _ =>
    .ite _ (fun _ => .done _) fun _ => ?_
  dsimp only [Token.propertyName?, Token.reworded]
  split
  · exact .bind consumeName fun _ => .bind (checkProperty _ _ (w := w)) fun _ => .done _
  · exact failIdentifier

def subscript (h : Nested L inner) (left : Summary) (hT : ∀ t, T t → t.isPunctuator .leftBracket) :
    Composed L T (subscript inner left) := by
  refine current fun opener w _ =>
    .bind (consumePunctuator .leftBracket fun t ht => hT t ht.2) fun _ => ?_
  refine .bind (withNoIn _ h.wholeExpression) fun key =>
    .bind (expectClosing _ opener w) fun _ => ?_
  split
  · exact .bind (checkSubscript _ _) fun _ => .bind (checkProperty _ _ (w := w)) fun _ => .done _
  · exact .done _

def chainLink (h : Nested L inner) (allowCall : Bool) (left : Summary) :
    Composed L T (chainLink inner allowCall left) := by
  have consumes {u : Token} {p : Punctuator} (hKind : u.kind = .punctuator p)
      (hp : [Punctuator.and, .or, .question].contains p = false) (t : Token) (ht : t = u ∧ T t) :
        t.decides = false :=
    (Token.decides_of_isPunctuator (isPunctuator_at hKind t ht)).trans hp
  refine current fun t w _ => ?_
  dsimp only [Token.reworded]
  split
  · next hKind => exact .bind (dottedProperty _ _ (consumes hKind rfl)) fun _ => .done _
  · next hKind => exact .bind (dottedProperty _ _ (consumes hKind rfl)) fun _ => .done _
  · next hKind => exact .bind (h.subscript left (isPunctuator_at hKind)) fun _ => .done _
  · next hKind =>
    refine .ite _ (fun _ => .bind (h.arguments (isPunctuator_at hKind)) fun first => ?_)
      fun _ => .done _
    exact .bind (checkCall left first) fun _ => .done _
  · next hKind =>
    exact .bind (h.template (decides_at hKind fun _ => decides_of_template)) fun _ => .done _
  · next hKind =>
    exact .bind (consume (decides_at hKind fun _ => decides_of_template)) fun _ => .done _
  · exact .done _

def chain (h : Nested L inner) (allowCall : Bool) (left : Summary) :
    Composed L T (chain inner allowCall left) :=
  cycle ((Iteration.chain allowCall).consumes h.consuming) (h.chainLink allowCall) left

/-! ## Array and object literals, classes -/

def arrayElement (h : Nested L inner) (u : Unit) : Composed L T (arrayElement inner u) := by
  refine .bind (sees _).forget fun _ => .ite _ (fun _ => .done _) fun _ => ?_
  refine .bind (eat _).forget fun _ => .ite _ (fun _ => .done _) fun _ => ?_
  exact .bind (discard (eat _).forget) fun _ => .bind (discard h.assignment) fun _ => comma _ _

def arrayLiteral (h : Nested L inner) (hT : ∀ t, T t → t.isPunctuator .leftBracket) :
    Composed L T (arrayLiteral inner) := by
  refine current fun opener w _ =>
    .bind (consumePunctuator .leftBracket fun t ht => hT t ht.2) fun _ => ?_
  refine .bind (withNoIn _ (cycle (Iteration.array.consumes h.consuming) h.arrayElement ()))
    fun _ => ?_
  exact .bind (expectClosing _ opener w) fun _ => .done _

theorem decides_of_isModifier {t : Token} (h : isModifier t) : t.decides = false := by
  unfold isModifier at h
  split at h
  · next hName => exact Token.decides_of_identifier hName
  · cases h

def keyModifier (u : Unit) : Composed L T (keyModifier u) := by
  refine .bind (eat _).forget fun _ => .ite _ (fun _ => .done _) fun _ => ?_
  refine current fun t w _ => .ite _ (fun _ => .done _) fun hModifier => ?_
  rw [Bool.not_eq_true', Bool.not_eq_false] at hModifier
  refine .bind (peekIs _ fun _ _ => rfl) fun _ => .ite _ (fun _ => ?_) fun _ => .done _
  exact .bind (consume fun u hu => decides_of_isModifier (hu.1 ▸ hModifier)) fun _ => .done _

def propertyKey (h : Nested L inner) : Composed L T (propertyKey inner) := by
  refine .bind (cycle (fun _ => round_keyModifier) keyModifier ()) fun _ =>
    current fun t w hLike => ?_
  dsimp only [Token.reworded]
  split
  · exact .bind consumeName fun _ => .done _
  · exact .bind consumeName fun _ => .done _
  · exact .bind consumeName fun _ => .done _
  · next hKind =>
    rw [L.number hLike hKind]
    exact .bind consumeName fun _ => .done _
  · next hKind =>
    refine .bind (consumePunctuator .leftBracket (isPunctuator_at hKind)) fun _ => ?_
    exact .bind (discard h.assignment) fun _ => .bind (expectClosing _ t w) fun _ => .done _
  · exact failIdentifier

def propertyValue (h : Nested L inner) (key : Option String) :
    Composed L T (propertyValue inner key) :=
  .bind (seesWord _).forget fun _ => .whenever _ (setHint key).forget fun _ =>
    discard (clearingHint h.assignment)

def objectProperty (h : Nested L inner) : Composed L T (objectProperty inner) := by
  refine current fun start w hStart => .bind h.propertyKey fun key => .read fun s x hx => ?_
  have hBare : ((s.rendered x).previous.offset == (start.reworded w).offset) =
      (s.previous.offset == start.offset) := by
    rw [Bool.eq_iff_iff, beq_iff_eq, beq_iff_eq]
    exact L.offset hx.previous hStart
  dsimp only
  rw [hBare]
  refine .bind (sees _).forget fun _ => .ite _ (fun _ => h.function _ _ _ _) fun _ => ?_
  refine .bind (eat _).forget fun _ => .ite _ (fun _ => h.propertyValue key) fun _ => ?_
  dsimp only [Token.identifier?, Token.reworded]
  split
  · exact .bind (reference _ _ _).forget fun _ => h.defaultValue
  · exact failExpected _

def objectElement (h : Nested L inner) (u : Unit) : Composed L T (objectElement inner u) := by
  refine .bind (sees _).forget fun _ => .ite _ (fun _ => .done _) fun _ => ?_
  refine .bind (eat _).forget fun _ => .ite _ (fun _ => ?_) fun _ => ?_
  · exact .bind (discard h.assignment) fun _ => comma _ _
  · exact .bind h.objectProperty fun _ => comma _ _

def objectLiteral (h : Nested L inner) (hT : ∀ t, T t → t.isPunctuator .leftBrace) :
    Composed L T (objectLiteral inner) := by
  refine current fun opener w _ =>
    .bind (consumePunctuator .leftBrace fun t ht => hT t ht.2) fun _ => ?_
  refine .bind (withNoIn _ (cycle (Iteration.object.consumes h.consuming) h.objectElement ()))
    fun _ => ?_
  exact .bind (expectClosing _ opener w) fun _ => .done _

def classMember (h : Nested L inner) : Composed L T (classMember inner) := by
  refine current fun start w _ => .bind h.propertyKey fun key => ?_
  refine .bind (sees _).forget fun _ => .ite _ (fun _ => h.function _ _ _ _) fun _ => ?_
  exact .bind h.defaultValue fun _ => consumeSemicolon

def classElement (h : Nested L inner) (u : Unit) : Composed L T (classElement inner u) := by
  refine current fun t w _ => .ite _ (fun _ => .done _) fun _ => ?_
  refine .bind (eat _).forget fun _ => .ite _ (fun _ => .done _) fun _ => ?_
  have rest : Composed L (fun _ => True) (do Grammar.classMember inner; return Round.again ()) :=
    .bind h.classMember fun _ => .done _
  refine .bind (seesName _) fun isStatic => .ite _ (fun hStatic => ?_) fun _ => rest.anywhere
  refine .bind (peekIs _ fun _ _ => rfl) fun _ =>
    .whenever _ (consumeIdentifier fun u hu => ?_) fun _ => rest
  exact ⟨_, eq_of_beq (hu.1.trans hStatic)⟩

def className (declaration : Bool) : Composed L T (className declaration) := by
  refine current fun t w _ => ?_
  dsimp only [Token.identifier?, Token.reworded]
  split
  · next name hKind =>
    refine .bind (consumeIdentifier fun u hu => ⟨name, ?_⟩) fun _ =>
      .ite _ (fun _ => ?_) fun _ => .done ()
    · exact hu.1 ▸ hKind
    · exact (declare _ _ _ _).forget
  · exact .ite _ (fun _ => failIdentifier) fun _ => .done ()

def classForm (h : Nested L inner) {heritage : Parse Unit}
    (hh : Composed L (fun _ => True) heritage)
    (declaration : Bool) : Composed L T (classForm inner heritage declaration) := by
  refine .bind (expectWord _) fun _ => .bind (className _) fun _ => ?_
  have rest : Composed L (fun _ => True) (do
      let opener ← Parse.current
      Parse.expect .leftBrace
      Parse.loop (Grammar.classElement inner) ()
      if declaration then Parse.expectStatementClosing .rightBrace opener
      else Parse.expectClosing .rightBrace opener) := by
    refine current fun opener w _ => .bind (expect _) fun _ => ?_
    refine .bind (cycle (Iteration.classBody.consumes h.consuming) h.classElement ()) fun _ => ?_
    exact .ite _ (fun _ => expectStatementClosing _ opener w) fun _ => expectClosing _ opener w
  refine .bind (seesWord _) fun extending => .ite _ (fun hExtends => ?_) fun _ => rest.anywhere
  refine .bind (consumeWord .extendsWord fun t ht => ht.1.trans hExtends) fun _ =>
    .bind hh.anywhere fun _ => ?_
  exact rest.anywhere

/-! ## Operands -/

def nameUse (name : String) (t : Token) (w : Wording) (hT : ∀ u, T u → u.decides = false) :
    Composition L T (nameUse name t) (nameUse name (t.reworded w)) Anywhere := by
  refine .bind (consume hT) fun _ => .read fun s x _ => ?_
  refine .whenever _ (warnToken t w rfl rfl rfl).forget fun _ => .ite _ (fun _ => ?_) fun _ => ?_
  · exact .bind (assign _ _ _).forget fun _ => .done _
  · exact .bind (reference _ _ _).forget fun _ => .done _

def arrowFunction (h : Nested L inner) (t : Token) (w : Wording) :
    Composition L T (arrowFunction inner t) (arrowFunction inner (t.reworded w)) Anywhere :=
  .bind (h.function _ _ _ _) fun _ => .done _

def functionExpression (h : Nested L inner) : Composed L T (functionExpression inner) := by
  refine current fun t w _ => .bind (expectWord _) fun _ => ?_
  refine .bind (discard (eat _).forget) fun _ => .read fun s x _ => ?_
  refine .bind (setHint none) fun _ => current fun next v _ => ?_
  dsimp only [Token.identifier?, Token.reworded]
  split
  · next name hKind =>
    refine .bind (consumeIdentifier fun u hu => ⟨name, ?_⟩) fun _ =>
      .bind (h.function _ _ _ _) fun _ => .done _
    exact hu.1 ▸ hKind
  · exact .bind (h.function _ _ _ _) fun _ => .done _

/-- If it is none of the forms, nothing was consumed. -/
def asyncForm (h : Nested L inner) (t : Token) (w : Wording) (hT : ∀ u, T u → u.decides = false) :
    Composition L T (asyncForm inner t) (asyncForm inner (t.reworded w)) fun e u => e =
      none → T u := by
  have found {T' : Token → Prop} (e : Summary) :
      Composition L T' (Pure.pure (some e) : Parse (Option Summary))
      (Pure.pure (some e)) fun e u => e = none → T u := .pure (some e) fun _ _ => nofun
  have missed :
      Composition L T (Pure.pure none : Parse (Option Summary)) (Pure.pure none) fun e u => e =
      none → T u :=
    .pure none fun _ hu _ => hu
  refine .bind (peekIs _ fun _ _ => rfl) fun _ => .ite _ (fun _ => missed) fun _ => ?_
  refine .bind (peekIs _ fun _ _ => rfl) fun _ => .ite _ (fun _ => ?_) fun _ => ?_
  · exact .bind (consume hT) fun _ => .bind h.functionExpression fun _ => found _
  refine .bind (peekIs _ fun _ _ => rfl) fun _ => .ite _ (fun _ => ?_) fun _ => ?_
  · refine .bind peekArrowAfterNext fun _ => .ite _ (fun _ => ?_) fun _ => missed
    exact .bind (consume hT) fun _ => .bind (h.arrowFunction t w) fun _ => found _
  refine .bind (peekIs _ fun _ _ => rfl) fun _ => .ite _ (fun _ => ?_) fun _ => missed
  refine .bind (consume hT) fun _ => .bind .startsArrow fun _ => .ite _ (fun _ => ?_) fun _ => ?_
  · exact .bind (h.arrowFunction t w) fun _ => found _
  · exact .bind (reference _ _ _) fun _ => found _

def identifierForm (h : Nested L inner) (name : String) (t : Token) (w : Wording)
    (hT : ∀ u, T u → u.decides = false) :
    Composition L T (identifierForm inner name t) (identifierForm inner name (t.reworded w))
      Anywhere := by
  refine .bind (peekIs _ fun _ _ => rfl) fun _ => .ite _ (fun _ => h.arrowFunction t w) fun _ => ?_
  refine .ite _ (fun _ => .bind (h.asyncForm t w hT) fun e => ?_) fun _ => nameUse name t w hT
  cases e with
  | some e => exact .done _
  | none => exact nameUse name t w fun u hu => hT u (hu rfl)

def checkThis (t : Token) (w : Wording) :
    Composition L T (checkThis t) (checkThis (t.reworded w)) fun _ => T :=
  .read fun _ _ _ => .ite _ (fun _ => (warnUnless _ _ _ rfl).pass fun _ => And.right) fun _ =>
    .pure () fun _ => And.right

def parenthesized (h : Nested L inner) (hT : ∀ t, T t → t.isPunctuator .leftParen) :
    Composed L T (parenthesized inner) := by
  refine current fun opener w _ =>
    .bind (consumePunctuator .leftParen fun t ht => hT t ht.2) fun _ => ?_
  refine .bind (withNoIn _ h.wholeExpression) fun e =>
    .bind (expectClosing _ opener w) fun _ => .done _

theorem decides_of_literal {t : Token} (h : t.kind.endsValue)
    (hWord : ∀ word, t.kind ≠ .keyword word) : t.decides = false := by
  unfold TokenKind.endsValue at h
  unfold Token.decides
  split at h
  · next hKind => rw [hKind]
  · next hKind => rw [hKind]
  · next hKind => rw [hKind]
  · next hKind => rw [hKind]
  · next hKind => exact absurd hKind (hWord _)
  · next hKind => rw [hKind]; rfl
  · next hKind => rw [hKind]; rfl
  · next hKind => rw [hKind]; rfl
  · next hKind => rw [hKind]
  · next hKind => rw [hKind]
  · cases h

def simpleOperand (h : Nested L inner) : Composed L T (simpleOperand inner) := by
  refine current fun t w _ => ?_
  have word {word : Keyword} (hKind : t.kind = .keyword word)
      (hWord : [Keyword.ifWord, .forWord, .whileWord, .caseWord].contains word = false)
        (e : Summary) :
      Composed L (fun u => u = t ∧ T u) (do Parse.advance; return e) :=
    .bind (consumeWord word (isKeyword_at hKind) hWord) fun _ => .done e
  have literal (hKind : t.kind.endsValue) (hWord : ∀ word, t.kind ≠ .keyword word) (e : Summary) :
      Composed L (fun u => u = t ∧ T u) (do Parse.advance; return e) :=
    .bind (consume fun u hu => hu.1 ▸ decides_of_literal hKind hWord) fun _ => .done e
  dsimp only [Token.reworded]
  split
  · next hKind =>
    exact h.identifierForm _ t w fun u hu => Token.decides_of_identifier (identifier_at hKind u hu)
  · next hKind => exact .bind (checkThis t w) fun _ => word hKind rfl _
  · next hKind => exact word hKind rfl _
  · exact h.functionExpression
  · next hKind => exact h.construction (isKeyword_at hKind)
  · next hKind => exact word hKind rfl _
  · next hKind => exact word hKind rfl _
  · next hKind => exact word hKind rfl _
  · next hKind => exact word hKind rfl _
  · next hKind => exact literal (hKind ▸ rfl) (hKind ▸ nofun) _
  · next hKind => exact literal (hKind ▸ rfl) (hKind ▸ nofun) _
  · next hKind => exact literal (hKind ▸ rfl) (hKind ▸ nofun) _
  · next hKind =>
    exact .bind (h.template (decides_at hKind fun _ => decides_of_template)) fun _ => .done _
  · next hKind =>
    exact .bind (consume (decides_at hKind fun _ => decides_of_template)) fun _ => .done _
  · next hKind =>
    refine .bind .startsArrow fun _ => .ite _ (fun _ => h.arrowFunction t w) fun _ => ?_
    exact h.parenthesized (isPunctuator_at hKind)
  · next hKind => exact h.arrayLiteral (isPunctuator_at hKind)
  · next hKind => exact h.objectLiteral (isPunctuator_at hKind)
  · exact failIdentifier

def heritageOf (h : Nested L inner) {operand : Parse Summary}
    (ho : Composed L (fun _ => True) operand) : Composed L T (heritageOf inner operand) :=
  .bind ho.anywhere fun base => discard (h.chain true base)

def operandForm (h : Nested L inner) {operand : Parse Summary}
    (ho : Composed L (fun _ => True) operand) : Composed L T (operandForm inner operand) := by
  refine current fun t w _ => .ite _ (fun _ => ?_) fun _ => h.simpleOperand
  exact .bind (h.classForm (h.heritageOf ho) _) fun _ => .done _

def operandIn (h : Nested L inner) : (n : Nat) → {innermost : Parse Summary} →
    Composed L (fun _ => True) innermost →
      Composed L (fun _ => True) ((Grammar.operandForm inner)^[n] innermost)
  | 0, _, c => c
  | n + 1, _, c => h.operandIn n (h.operandForm c)

def operand (h : Nested L inner) : Composed L T (operand inner) :=
  have hReaches (s : Session) (hs : s.Aligned) (n : Nat) (hn : s.budget ≤ n) :
      (Grammar.operandForm inner)^[n] Parse.tooDeep s =
        Parse.recursive (Grammar.operandForm inner) s :=
    (iterate_operandForm hs hn (Nat.le_refl _) Parse.tooDeep Parse.tooDeep).trans
      (operand_eq_iterate hs Parse.tooDeep)
  .recursive hReaches fun n => (h.operandIn n .tooDeep).anywhere

def heritage (h : Nested L inner) : Composed L T (heritage inner) := h.heritageOf h.operand

def checkConstructor (name : String) (newToken callee : Token) (w v : Wording) :
    Composition L T (checkConstructor name newToken callee)
      (checkConstructor name (newToken.reworded w) (callee.reworded v)) Anywhere := by
  refine .ite _ (fun _ => (warnUnless _ _ _ rfl).forget) fun _ => ?_
  refine .ite _ (fun _ => (warnToken callee v rfl rfl rfl).forget) fun _ => .read fun s x _ => ?_
  exact .ite _ (fun _ => (warnIf _ _ _ rfl rfl rfl).forget) fun _ => .done ()

def constructionForm (h : Nested L inner) (hT : ∀ t, T t → t.isKeyword .newWord) :
    Composed L T (Grammar.construction inner) := by
  refine current fun newToken w _ => .bind (consumeWord .newWord fun t ht => hT t ht.2) fun _ => ?_
  refine .bind (eat _).forget fun _ => .ite _ (fun _ => ?_) fun _ => ?_
  · have name : Composed L (fun _ => True) (Parse.expectIdentifier >>= fun _ => Pure.pure ()) :=
      expectIdentifier fun _ _ _ _ => .done ()
    exact .bind (p := Functor.discard Parse.expectIdentifier) name.anywhere fun _ => .done _
  have rest : Composition L (fun _ => True)
      (do
        if ← Parse.sees .leftParen then Functor.discard (Grammar.arguments inner)
        return Summary.startingAt newToken .construction)
      (do
        if ← Parse.sees .leftParen then Functor.discard (Grammar.arguments inner)
        return Summary.startingAt (newToken.reworded w) .construction) Anywhere := by
    refine .bind (sees _) fun paren => .ite _ (fun hParen => ?_) fun _ => .done _
    exact .bind (discard (h.arguments fun t ht => ht.1.trans hParen)) fun _ => .done _
  refine current fun calleeToken v _ => .whenever _ (warnUnless _ _ .supernew rfl).forget fun _ =>
    ?_
  refine .bind h.operand fun base => .bind (h.chain false base) fun callee => ?_
  split
  · exact .bind (checkConstructor _ newToken calleeToken w v) fun _ => rest
  · exact rest

/-! ## Operators before an operand -/

def checkBitwise (op : Punctuator) (t : Token) (w : Wording) :
    Composition L T (checkBitwise op t) (checkBitwise op (t.reworded w)) fun _ => T :=
  .ite _ (fun _ => warnIf _ _ _ rfl rfl rfl) fun _ => .pure () fun _ => id

def checkUpdate (target : Summary) (op : Punctuator) (t : Token) (w : Wording) :
    Composition L T (checkUpdate target op t) (checkUpdate target op (t.reworded w)) fun _ => T :=
  .ite _ (fun _ => warnIf _ _ _ rfl rfl rfl) fun _ => .fail rfl rfl rfl rfl

theorem isPlain_of_comparisonFinding {layers : Setting.Layers} {left right : Form} {op : Punctuator}
    {f : Finding} (h : comparisonFinding? layers left right op = some f) : f.isPlain := by
  unfold comparisonFinding? at h
  split at h
  · cases h
    rfl
  · obtain ⟨strictOp, -, h⟩ := Option.bind_eq_some_iff.1 h
    unfold looseFinding? at h
    split at h
    · obtain rfl := Option.some.inj (Option.ite_none_left_eq_some.mp h).2
      rfl
    · split at h
      · obtain rfl := Option.some.inj (Option.ite_none_left_eq_some.mp h).2
        rfl
      · cases h

def checkComparison (left right : Summary) (op : Punctuator) (t : Token) (w : Wording) :
    Composition L T (checkComparison left right op t) (checkComparison left right op (t.reworded w))
      Anywhere := by
  refine .read fun s x _ => ?_
  dsimp only [Session.rendered]
  split
  · next hFound => exact (warnToken t w rfl rfl (isPlain_of_comparisonFinding hFound)).forget
  · exact .done ()

def typeofOperand (h : Nested L inner) : Composed L T (typeofOperand inner) := by
  refine current fun t w _ => ?_
  dsimp only [Token.identifier?, Token.reworded]
  split
  · exact discard (h.expression _)
  · next name hKind =>
    refine .bind (peekIs _ fun _ _ => rfl) fun _ =>
      .ite _ (fun _ => discard (h.expression _)) fun _ => ?_
    refine .bind (consumeIdentifier fun u hu => ⟨name, ?_⟩) fun _ =>
      (names (.referenceGuarded _ _)).forget
    exact hu.1 ▸ hKind

def signed (h : Nested L inner) (t : Token) (w : Wording) (hT : ∀ u, T u → u.decides = false) :
    Composition L T (signed inner t) (signed inner (t.reworded w)) Anywhere :=
  .bind (consume hT) fun _ => .bind (h.expression _) fun _ => .done _

def updated (h : Nested L inner) (op : Punctuator) (t : Token) (w : Wording)
    (hT : ∀ u, T u → u.decides = false) :
    Composition L T (updated inner op t) (updated inner op (t.reworded w)) Anywhere := by
  refine .bind (consume hT) fun _ => .bind (h.expression _) fun e => ?_
  exact .bind (checkUpdate e op t w).forget fun _ => .done _

def deletion (h : Nested L inner) (t : Token) (w : Wording) (hT : ∀ u, T u → u.decides = false) :
    Composition L T (deletion inner t) (deletion inner (t.reworded w)) Anywhere := by
  refine .bind (consume hT) fun _ => .bind (h.expression _) fun e => ?_
  dsimp only
  split
  · exact .bind (Composition.warn _ _ rfl rfl rfl).forget fun _ => .done _
  · exact .done _

def awaiting (h : Nested L inner) (power : Nat) (t : Token) (w : Wording)
    (hT : ∀ u, T u → u.decides = false) :
    Composition L T (awaiting inner power t) (awaiting inner power (t.reworded w)) Anywhere := by
  refine .bind (peekIs _ fun _ _ => rfl) fun _ => .bind (consume hT) fun _ =>
    .ite _ (fun _ => ?_) fun _ => .done _
  exact .bind (discard (eat _).forget) fun _ => .bind (discard (h.expression _)) fun _ => .done _

def unary (h : Nested L inner) : Composed L T (unary inner) := by
  refine current fun t w _ => ?_
  have punctuator {p : Punctuator} (hKind : t.kind = .punctuator p)
      (hp : [Punctuator.and, .or, .question].contains p = false) (u : Token) (hu : u = t ∧ T u) :
        u.decides = false :=
    (Token.decides_of_isPunctuator (isPunctuator_at hKind u hu)).trans hp
  have word {k : Keyword} (hKind : t.kind = .keyword k)
      (hk : [Keyword.ifWord, .forWord, .whileWord, .caseWord].contains k = false) (u : Token)
        (hu : u = t ∧ T u) :
      u.decides = false :=
    (Token.decides_of_isKeyword (isKeyword_at hKind u hu)).trans hk
  have name {n : String} (hKind : t.kind = .identifier n) (u : Token) (hu : u = t ∧ T u) :
      u.decides = false :=
    Token.decides_of_identifier (identifier_at hKind u hu)
  dsimp only [Token.reworded]
  split
  · next hKind => exact h.signed t w (punctuator hKind rfl)
  · next hKind => exact h.signed t w (punctuator hKind rfl)
  · next hKind => exact h.signed t w (punctuator hKind rfl)
  · next hKind => exact h.signed t w (word hKind rfl)
  · next hKind => exact .bind (checkBitwise _ t w) fun _ => h.signed t w (punctuator hKind rfl)
  · next hKind => exact h.updated _ t w (punctuator hKind rfl)
  · next hKind => exact h.updated _ t w (punctuator hKind rfl)
  · next hKind =>
    exact .bind (consume (word hKind rfl)) fun _ => .bind h.typeofOperand fun _ => .done _
  · next hKind => exact h.deletion t w (word hKind rfl)
  · next hKind => exact h.awaiting _ t w (name hKind)
  · next hKind => exact h.awaiting _ t w (name hKind)
  · exact .bind h.operand fun base => h.chain true base

/-! ## Operators after an operand -/

def conditionalRest (h : Nested L inner) (hT : ∀ t, T t → t.isPunctuator .question) :
    Composed L T (conditionalRest inner) := by
  refine .decide (fun t ht => Token.decides_of_isPunctuator (hT t ht)) ?_
  refine .bind (discard (withNoIn _ h.assignment)) fun _ => .bind (expect _) fun _ => ?_
  exact discard h.assignment

def assignmentRest (h : Nested L inner) (left : Summary) (op : Punctuator) (t : Token) (w : Wording)
    (hT : ∀ u, T u → u.decides = false) :
    Composition L T (assignmentRest inner left op t) (assignmentRest inner left op (t.reworded w))
      Anywhere := by
  refine .when _ (.fail rfl rfl rfl rfl) fun _ => .bind (checkBitwise op t w) fun _ =>
    .bind (consume hT) fun _ => ?_
  exact .bind (seesWord _).forget fun _ => .whenever _ (setHint _).forget fun _ =>
    discard (clearingHint h.assignment)

def sum (left right : Summary) : Composed L T (sum left right) := by
  unfold Grammar.sum
  split
  · exact .whenever _ (warnUnless _ _ _ rfl).forget fun _ => .done _
  · exact .done _

def rightOperand (h : Nested L inner) (power : Nat) (hT : ∀ t, T t → t.decides = false) :
    Composed L T (rightOperand inner power) :=
  .bind (consume hT) fun _ => h.expression power

def operatorStep (h : Nested L inner) (left : Summary) (op : Punctuator) (power : Nat) (t : Token)
    (w : Wording) (hT : ∀ u, T u → u.isPunctuator op) :
    Composition L T (operatorStep inner left op power t)
      (operatorStep inner left op power (t.reworded w)) Anywhere := by
  have plain (hOp : [Punctuator.and, .or, .question].contains op = false) (u : Token) (hu : T u) :
      u.decides = false :=
    (Token.decides_of_isPunctuator (hT u hu)).trans hOp
  have compare (hOp : [Punctuator.and, .or, .question].contains op = false) : Composition L T
      (do
        let right ← Grammar.rightOperand inner power
        Grammar.checkComparison left right op t
        return left.within (.binary op))
      (do
        let right ← Grammar.rightOperand inner power
        Grammar.checkComparison left right op (t.reworded w)
        return left.within (.binary op)) Anywhere :=
    .bind (h.rightOperand power (plain hOp)) fun right =>
      .bind (checkComparison left right op t w) fun _ => .done _
  have update (hOp : [Punctuator.and, .or, .question].contains op = false) : Composition L T
      (do Grammar.checkUpdate left op t; Parse.advance; return left.within .update)
      (do Grammar.checkUpdate left op (t.reworded w); Parse.advance; return left.within .update)
        Anywhere :=
    .bind (checkUpdate left op t w) fun _ => .bind (consume (plain hOp)) fun _ => .done _
  have decision (hOp : [Punctuator.and, .or, .question].contains op = true) : Composed L T (do
      Parse.advance
      modifyMetrics Metrics.addBranch
      Functor.discard (inner.expression power)
      return left.within .logical) :=
    .decide (fun u hu => (Token.decides_of_isPunctuator (hT u hu)).trans hOp)
      (.bind (discard (h.expression power)) fun _ => .done _)
  unfold Grammar.operatorStep
  split
  · exact .bind (h.rightOperand power (plain rfl)) fun _ => .done _
  · exact .bind (h.conditionalRest hT) fun _ => .done _
  · exact update rfl
  · exact update rfl
  · exact decision rfl
  · exact decision rfl
  · exact .bind (discard (h.rightOperand power (plain rfl))) fun _ => .done _
  · exact compare rfl
  · exact compare rfl
  · exact compare rfl
  · exact compare rfl
  · exact compare rfl
  · exact compare rfl
  · exact compare rfl
  · exact compare rfl
  · exact .bind (h.rightOperand power (plain rfl)) fun right => sum left right
  · next hQuestion _ _ hAnd hOr _ _ _ _ _ _ _ _ _ _ =>
    have hPlain : [Punctuator.and, .or, .question].contains op = false := by
      simp only [List.contains_cons, List.contains_nil, Bool.or_false, Bool.or_eq_false_iff,
        beq_eq_false_iff_ne]
      exact ⟨hAnd, hOr, hQuestion⟩
    refine .ite _ (fun _ => .bind (h.assignmentRest left op t w (plain hPlain)) fun _ => .done _)
      fun _ => ?_
    exact .bind (checkBitwise op t w) fun _ => .bind (discard (h.rightOperand power (plain hPlain)))
      fun _ => .done _

/-- The words among the operators decide nothing. -/
theorem decides_of_power {t : Token} (noIn : Bool) {powers : Nat × Nat}
    (h : Power.ofToken? t noIn = some powers)
    (hOther : ∀ p, t.kind ≠ .punctuator p) : t.decides = false := by
  unfold Power.ofToken? at h
  unfold Token.decides
  split at h
  · next hKind => exact absurd hKind (hOther _)
  · next hKind => rw [hKind]; rfl
  · next hKind => rw [hKind]; rfl
  · cases h

def operatorRound (h : Nested L inner) (least : Nat) (left : Summary) :
    Composed L T (operatorRound inner least left) := by
  refine .read fun s x _ => ?_
  have hSame : Power.ofToken? (s.rendered x).token (s.rendered x).noIn =
    Power.ofToken? s.token s.noIn := rfl
  rw [hSame]
  dsimp only [Session.rendered, Token.reworded]
  split
  · exact .done _
  · next leftPower rightPower hPower =>
    refine .ite _ (fun _ => .done _) fun _ => ?_
    split
    · next op hKind =>
      refine .ite _ (fun _ => .done _) fun _ => ?_
      exact .bind (h.operatorStep left op rightPower s.token x.token (isPunctuator_at hKind))
        fun _ => .done _
    · next hOther =>
      refine .bind (discard (h.rightOperand _ fun u hu => ?_)) fun _ => .done _
      exact decides_of_power s.noIn (hu.1 ▸ hPower) (hu.1 ▸ hOther)

def operators (h : Nested L inner) (least : Nat) : Composed L T (operators inner least) :=
  .bind h.unary fun left => cycle ((Iteration.operators least).consumes h.consuming)
    (h.operatorRound least) left

/-! ## Blocks, bodies and conditions -/

def withFrame (kind : Scope.FrameKind) {p p' : Parse α} {Q : α → Token → Prop}
    (c : Composition L T p p' Q) : Composition L T (withFrame kind p) (withFrame kind p') Q :=
  .bind (.change _ {
      rendered := fun _ _ => rfl
      rendering := fun _ => rfl
      kind := fun _ => rfl
      complexities := fun _ => rfl
      calm := fun _ => id }) fun _ =>
    .ensuring _ {
      rendered := fun _ _ => rfl
      rendering := fun _ => rfl
      kind := fun _ => rfl
      complexities := fun _ => rfl
      calm := fun s hs => hs.exit s.layers } c

def block (h : Nested L inner) (hT : ∀ t, T t → t.isPunctuator .leftBrace) :
    Composed L T (block inner) := by
  refine current fun opener w _ => ?_
  refine .insideBlock opener w (fun t ht => ⟨ht.1, hT t ht.2⟩)
    (withFrame .block (h.statementList _)) fun count => ?_
  refine .bind .flush fun _ => ?_
  exact .whenever _ (warnIf _ _ _ rfl rfl rfl).forget fun _ => expectStatementClosing _ opener w

def expectBlock (h : Nested L inner) : Composed L T (expectBlock inner) :=
  .bind (sees _) fun brace => .ite (brace = true)
    (fun hBrace => h.block fun _ ht => ht.1.trans hBrace) fun _ => failExpected _

def body (h : Nested L inner) : Composed L T (body inner) := by
  refine current fun t w _ => .ite _ (fun hBrace => h.block fun u hu => hu.1 ▸ hBrace) fun _ => ?_
  have missing : Composition L (fun u => u = t ∧ T u)
      (Parse.warnIf .curly (.expectedInstead "\x7b" t.describe) t.line t.column)
      (Parse.warnIf .curly (.expectedInstead "\x7b" (t.reworded w).describe) t.line t.column)
        fun _ u => u = t ∧ T u :=
    warnIf _ _ _ rfl rfl rfl
  exact .bind missing fun _ => discard h.statement

def loopBody (h : Nested L inner) : Composed L T (loopBody inner) :=
  .bind (.change _ (.of_surroundings (fun _ _ => rfl) fun _ => rfl)) fun _ =>
    .ensuring _ (.of_surroundings (fun _ _ => rfl) fun _ => rfl) h.body

def checkCondition (e : Summary) : Composed L T (checkCondition e) :=
  .ite _ (fun _ => (warnUnless _ _ _ rfl).forget) fun _ => .done ()

def condition (h : Nested L inner) : Composed L T (condition inner) := by
  refine current fun opener w _ => .bind (expect _) fun _ => .bind h.wholeExpression fun e => ?_
  exact .bind (checkCondition e) fun _ => expectStatementClosing _ opener w

/-! ## Declarations -/

def initialValue (h : Nested L inner) (kind : Scope.BindingKind) (target : Token) (w : Wording)
    (hT : ∀ t, T t → t.isPunctuator .assign) :
    Composition L T (initialValue inner kind target) (initialValue inner kind (target.reworded w))
      Anywhere := by
  refine .bind (consumePunctuator .assign hT) fun _ => .bind (seesWord _).forget fun _ => ?_
  refine .whenever _ (setHint _).forget fun _ => .bind (clearingHint h.assignment) fun value => ?_
  dsimp only [Token.identifier?, Token.reworded]
  split
  · exact .ite _ (fun _ => (warnToken target w rfl rfl rfl).forget) fun _ => .done ()
  · exact .done ()

def declaration (h : Nested L inner) (kind : Scope.BindingKind) (u : Unit) :
    Composed L T (declaration inner kind u) := by
  refine current fun target w _ => .bind (h.binding kind) fun _ => .bind (sees _) fun assigned => ?_
  refine .ite _ (fun hAssigned => .bind (h.initialValue kind target w ?_) fun _ => comma _ _)
    fun _ => comma _ _
  exact fun t ht => ht.1.trans hAssigned

def declarations (h : Nested L inner) (kind : Scope.BindingKind)
    (hT : ∀ t, T t → t.decides = false) : Composed L T (declarations inner kind) :=
  .bind (consume hT) fun _ => cycle ((Iteration.declarations kind).consumes h.consuming)
    (h.declaration kind) ()

def variableStatement (h : Nested L inner) (kind : Scope.BindingKind)
    (hT : ∀ t, T t → t.decides = false) : Composed L T (variableStatement inner kind) :=
  .bind (h.declarations kind hT) fun _ => consumeSemicolon

def functionDeclaration (h : Nested L inner) : Composed L T (functionDeclaration inner) := by
  refine current fun t w _ => .bind (expectWord _) fun _ =>
    .bind (discard (eat _).forget) fun _ => ?_
  exact expectIdentifier fun name place v _ => .bind (declare _ _ _ _).forget fun _ =>
    h.function _ _ _ _

/-! ## Loops -/

def whileStatement (h : Nested L inner) (hT : ∀ t, T t → t.isKeyword .whileWord) :
    Composed L T (whileStatement inner) :=
  .decide (fun t ht => Token.decides_of_isKeyword (hT t ht)) (.bind h.condition fun _ => h.loopBody)

def doStatement (h : Nested L inner) (hT : ∀ t, T t → t.isKeyword .doWord) :
    Composed L T (doStatement inner) := by
  refine .decideLater .whileWord (fun t ht => ?_) (fun t => Token.decides_of_isKeyword)
    h.loopBody ?_
  · exact Token.decides_of_isKeyword (hT t ht)
  · exact .bind h.condition fun _ => finishStatement _

theorem decides_of_declaredKind {t : Token} {kind : Scope.BindingKind}
    (h : declaredKind? t = some kind) : t.decides = false := by
  unfold declaredKind? at h
  unfold Token.decides
  split at h
  · next hKind => rw [hKind]; rfl
  · next hKind => rw [hKind]; rfl
  · next hKind => rw [hKind]; rfl
  · cases h

def forStart (h : Nested L inner) : Composed L T (forStart inner) := by
  refine current fun t w _ => ?_
  have hSame : declaredKind? (t.reworded w) = declaredKind? t := rfl
  rw [hSame]
  split
  · next hKind => exact h.declarations _ fun u hu => hu.1 ▸ decides_of_declaredKind hKind
  · exact .ite _ (fun _ => discard h.wholeExpression) fun _ => .done ()

def bodyStartsWithIf : Composed L T bodyStartsWithIf := by
  refine current fun t w _ => .ite _ (fun _ => .done _) fun _ =>
    .ite _ (fun _ => ?_) fun _ => .done _
  exact (peekIs _ fun _ _ => rfl).forget

def checkFiltered (t : Token) (w : Wording) :
    Composition L T (checkFiltered t) (checkFiltered (t.reworded w)) Anywhere := by
  refine .bind (enabled _).forget fun _ => .ite _ (fun _ => ?_) fun _ => .done ()
  exact .bind bodyStartsWithIf fun _ => .ite _ (fun _ => (warnToken t w rfl rfl rfl).forget)
    fun _ => .done ()

def forEachRest (h : Nested L inner) (t opener : Token) (w v : Wording)
    (hT : ∀ u, T u → u.decides = false) :
    Composition L T (forEachRest inner t opener)
      (forEachRest inner (t.reworded w) (opener.reworded v)) Anywhere := by
  refine .bind (seesWord _) fun _ => .bind (consume fun u hu => hT u hu.2) fun _ => ?_
  refine .bind (discard h.wholeExpression) fun _ =>
    .bind (expectStatementClosing _ opener v) fun _ => ?_
  exact .whenever _ (checkFiltered t w) fun _ => h.loopBody

def forConditionRest (h : Nested L inner) (opener : Token) (v : Wording) :
    Composition L T (forConditionRest inner opener) (forConditionRest inner (opener.reworded v))
      Anywhere := by
  have rest : Composition L (fun _ => True)
      (do
        Parse.expect .semicolon
        if !(← Parse.sees .rightParen) then Functor.discard inner.wholeExpression
        Parse.expectStatementClosing .rightParen opener
        Grammar.loopBody inner)
      (do
        Parse.expect .semicolon
        if !(← Parse.sees .rightParen) then Functor.discard inner.wholeExpression
        Parse.expectStatementClosing .rightParen (opener.reworded v)
        Grammar.loopBody inner) Anywhere := by
    refine .bind (expect _) fun _ => .bind (sees _).forget fun _ => ?_
    exact .whenever _ (discard h.wholeExpression) fun _ =>
      .bind (expectStatementClosing _ opener v) fun _ => h.loopBody
  refine .bind (expect _) fun _ => .bind (sees _).forget fun _ => .ite _ (fun _ => ?_) fun _ => rest
  exact .bind h.wholeExpression fun e => .bind (checkCondition e) fun _ => rest

def forRest (h : Nested L inner) (t opener : Token) (w v : Wording) :
    Composition L T (forRest inner t opener) (forRest inner (t.reworded w) (opener.reworded v))
      Anywhere := by
  refine .bind (withNoIn _ h.forStart) fun _ => current fun next x _ =>
    .ite _ (fun hNext => ?_) fun _ => ?_
  · refine h.forEachRest t opener w v fun u hu => ?_
    obtain ⟨rfl, -⟩ := hu
    rw [Bool.or_eq_true, beq_iff_eq] at hNext
    exact hNext.elim Token.decides_of_isKeyword Token.decides_of_identifier
  · exact h.forConditionRest opener v

def forStatement (h : Nested L inner) (hT : ∀ t, T t → t.isKeyword .forWord) :
    Composed L T (forStatement inner) := by
  refine current fun t w _ => .decide (fun u hu => Token.decides_of_isKeyword (hT u hu.2)) ?_
  refine current fun opener v _ => .bind (expect _) fun _ => current fun _ _ _ =>
    .ite _ (fun _ => ?_) fun _ => ?_
  · exact .bind (withFrame _ (h.forRest t opener w v)) fun _ => .flush
  · exact .bind (h.forRest t opener w v) fun _ => .flush

/-! ## Statements -/

def checkExpressionStatement (e : Summary) : Composed L T (checkExpressionStatement e) := by
  unfold Grammar.checkExpressionStatement
  split
  · exact (warnIf _ _ _ rfl rfl rfl).forget
  · exact .ite _ (fun _ => (warnUnless _ _ _ rfl).forget) fun _ => .done ()

def expressionStatement (h : Nested L inner) : Composed L T (expressionStatement inner) :=
  .bind h.wholeExpression fun e => .bind (checkExpressionStatement e) fun _ => consumeSemicolon

/-- Each round of a chain of conditionals starts at the word. -/
def ifRound (h : Nested L inner) (u : Unit) :
    Composition L (·.isKeyword .ifWord) (ifRound inner u) (ifRound inner u)
      (AfterRound (fun _ t => t.isKeyword .ifWord) Anywhere) := by
  refine .decide (fun _ => Token.decides_of_isKeyword)
    (.bind h.condition fun _ => .bind h.body fun _ => ?_)
  refine .bind (seesWord _) fun hasElse => .ite _ (fun _ => .pure _ fun _ _ => trivial)
    fun hElse => ?_
  rw [Bool.not_eq_true', Bool.not_eq_false] at hElse
  refine .bind (consumeWord .elseWord fun t ht => ht.1.trans hElse) fun _ =>
    .bind (seesWord _) fun isChain => ?_
  refine .ite _ (fun hChain => .bind addStatement fun _ => .pure _ fun t ht => ht.1.trans hChain)
    fun _ => ?_
  exact .bind h.body fun _ => .pure _ fun _ _ => trivial

def ifStatement (h : Nested L inner) (hT : ∀ t, T t → t.isKeyword .ifWord) :
    Composed L T (ifStatement inner) :=
  .under
    (.loop (I := fun _ t => t.isKeyword .ifWord) () (Iteration.conditionals.consumes h.consuming)
    h.ifRound) hT

def caseBody (h : Nested L inner) : Composed L T (caseBody inner) :=
  .bind (expect _) fun _ => discard (h.statementList _)

def switchRound (h : Nested L inner) (u : Unit) : Composed L T (switchRound inner u) := by
  refine .bind (seesWord _) fun isCase => .ite _ (fun hCase => ?_) fun _ => ?_
  · refine .decide (fun t ht => Token.decides_of_isKeyword (ht.1.trans hCase)) ?_
    exact .bind (discard h.wholeExpression) fun _ => .bind h.caseBody fun _ => .done _
  · refine .bind (seesWord _) fun isDefault => .ite _ (fun hDefault => ?_) fun _ => .done _
    refine .bind (consumeWord .defaultWord fun t ht => ht.1.trans hDefault) fun _ =>
      .bind h.caseBody fun _ => .done _

def switchStatement (h : Nested L inner) (hT : ∀ t, T t → t.decides = false) :
    Composed L T (switchStatement inner) := by
  refine .bind (consume hT) fun _ => current fun paren w _ => .bind (expect _) fun _ => ?_
  refine .bind (discard h.wholeExpression) fun _ => .bind (expectClosing _ paren w) fun _ => ?_
  refine current fun opener v _ => .bind (expect _) fun _ => ?_
  refine .bind (cycle (Iteration.cases.consumes h.consuming) h.switchRound ()) fun _ => ?_
  exact expectStatementClosing _ opener v

def catchClause (h : Nested L inner) : Composed L T (catchClause inner) := by
  refine current fun opener w _ => .ite _ (fun hParen => ?_) fun _ => h.expectBlock
  refine .bind (consumePunctuator .leftParen fun u hu => hu.1 ▸ hParen) fun _ =>
    .bind (h.binding _) fun _ => ?_
  exact .bind (expectClosing _ opener w) fun _ => h.expectBlock

def catchPart (h : Nested L inner) : Composed L T (catchPart inner) := by
  refine .bind (seesWord _) fun isCatch => .ite _ (fun hCatch => ?_) fun _ => .done _
  refine .bind (consumeWord .catchWord fun t ht => ht.1.trans hCatch) fun _ => ?_
  exact .bind (withFrame _ h.catchClause) fun _ => .bind .flush fun _ => .done _

def finallyPart (h : Nested L inner) : Composed L T (finallyPart inner) := by
  refine .bind (seesWord _) fun isFinally => .ite _ (fun hFinally => ?_) fun _ => .done _
  refine .bind (consumeWord .finallyWord fun t ht => ht.1.trans hFinally) fun _ => ?_
  exact .bind h.expectBlock fun _ => .done _

def tryStatement (h : Nested L inner) (hT : ∀ t, T t → t.decides = false) :
    Composed L T (tryStatement inner) := by
  refine .bind (consume hT) fun _ => .bind h.expectBlock fun _ => .bind h.catchPart fun _ => ?_
  exact .bind h.finallyPart fun _ => .ite _ (fun _ => failExpected _) fun _ => .done ()

def returnStatement (h : Nested L inner) (hT : ∀ t, T t → t.decides = false) :
    Composed L T (returnStatement inner) := by
  refine .bind (consume hT) fun _ => current fun t w _ => .ite _ (fun _ => ?_) fun _ =>
    consumeSemicolon
  refine .bind h.wholeExpression fun value => ?_
  exact .whenever _ (warnUnless _ _ _ rfl).forget fun _ => consumeSemicolon

def throwStatement (h : Nested L inner) (hT : ∀ t, T t → t.decides = false) :
    Composed L T (throwStatement inner) :=
  .bind (consume hT) fun _ => .bind (discard h.wholeExpression) fun _ => consumeSemicolon

def jumpLabel : Composed L T jumpLabel := by
  refine .read fun s x _ => .ite _ (fun _ => ?_) fun _ => .done ()
  dsimp only [Session.rendered, Token.identifier?, Token.reworded]
  split
  · next label hKind =>
    refine .when _ (warnHere rfl rfl rfl) fun _ => consumeIdentifier fun u hu => ⟨label, ?_⟩
    exact hu.1 ▸ hKind
  · exact .done ()

def jumpStatement (hT : ∀ t, T t → t.decides = false) : Composed L T jumpStatement :=
  .bind (consume hT) fun _ => .bind jumpLabel fun _ => consumeSemicolon

def labeledStatement (h : Nested L inner) : Composed L T (labeledStatement inner) := by
  refine expectIdentifier fun label t w _ => .bind (expect _) fun _ =>
    .bind (withFrame _ ?_) fun _ => .flush
  exact .bind (names (.addLabel _)) fun _ => discard h.statement

def withStatement (h : Nested L inner) (hT : ∀ t, T t → t.decides = false) :
    Composed L T (withStatement inner) := by
  refine current fun t w _ => .bind (warnUnless _ _ _ rfl) fun _ =>
    .bind (consume fun u hu => hT u hu.2) fun _ => ?_
  refine current fun opener v _ => .bind (expect _) fun _ =>
    .bind (discard h.wholeExpression) fun _ => ?_
  exact .bind (expectStatementClosing _ opener v) fun _ => h.body

def debuggerStatement (hT : ∀ t, T t → t.decides = false) : Composed L T debuggerStatement := by
  refine current fun t w _ => .bind (warnUnless _ _ _ rfl) fun _ =>
    .bind (consume fun u hu => hT u hu.2) fun _ => ?_
  exact consumeSemicolon

def emptyStatement (hT : ∀ t, T t → t.decides = false) : Composed L T emptyStatement :=
  .bind (warnHere rfl rfl rfl) fun _ => consume hT

def identifierStatement (h : Nested L inner) (name : String) (hT : ∀ t, T t → t.decides = false) :
    Composed L T (identifierStatement inner name) := by
  refine .ite _ (fun _ => ?_) fun _ => h.expressionStatement
  refine .bind (peekIs _ fun _ _ => rfl) fun _ => .ite _ (fun _ => ?_) fun _ =>
    h.expressionStatement
  exact .bind (consume hT) fun _ => h.functionDeclaration

def plainStatement (h : Nested L inner) (t : Token) (w : Wording) :
    Composition L (fun u => u = t ∧ T u) (plainStatement inner t)
      (plainStatement inner (t.reworded w)) Anywhere := by
  have word {k : Keyword} (hKind : t.kind = .keyword k)
      (hk : [Keyword.ifWord, .forWord, .whileWord, .caseWord].contains k = false) (u : Token)
        (hu : u = t ∧ T u) :
      u.decides = false :=
    (Token.decides_of_isKeyword (isKeyword_at hKind u hu)).trans hk
  unfold Grammar.plainStatement
  dsimp only [Token.reworded]
  split
  · next hKind => exact h.block (isPunctuator_at hKind)
  · next hKind =>
    exact emptyStatement fun u hu => Token.decides_of_isPunctuator (isPunctuator_at hKind u hu)
  · next hKind =>
    exact h.identifierStatement _ fun u hu => Token.decides_of_identifier (identifier_at hKind u hu)
  · next hKind => exact h.variableStatement _ (word hKind rfl)
  · next hKind => exact h.variableStatement _ (word hKind rfl)
  · next hKind => exact h.variableStatement _ (word hKind rfl)
  · exact h.functionDeclaration
  · exact h.classForm h.heritage true
  · next hKind => exact h.ifStatement (isKeyword_at hKind)
  · next hKind => exact h.forStatement (isKeyword_at hKind)
  · next hKind => exact h.whileStatement (isKeyword_at hKind)
  · next hKind => exact h.doStatement (isKeyword_at hKind)
  · next hKind => exact h.switchStatement (word hKind rfl)
  · next hKind => exact h.tryStatement (word hKind rfl)
  · next hKind => exact h.withStatement (word hKind rfl)
  · next hKind => exact debuggerStatement (word hKind rfl)
  · exact h.expressionStatement

def unlabeledStatement (h : Nested L inner) (t : Token) (w : Wording) :
    Composition L (fun u => u = t ∧ T u) (unlabeledStatement inner t)
      (unlabeledStatement inner (t.reworded w)) Anywhere := by
  have word {k : Keyword} (hKind : t.kind = .keyword k)
      (hk : [Keyword.ifWord, .forWord, .whileWord, .caseWord].contains k = false) (u : Token)
        (hu : u = t ∧ T u) :
      u.decides = false :=
    (Token.decides_of_isKeyword (isKeyword_at hKind u hu)).trans hk
  refine .bind addStatement fun _ => ?_
  dsimp only [Token.reworded]
  split
  · next hKind => exact .bind (h.returnStatement (word hKind rfl)) fun _ => .done _
  · next hKind => exact .bind (h.throwStatement (word hKind rfl)) fun _ => .done _
  · next hKind => exact .bind (jumpStatement (word hKind rfl)) fun _ => .done _
  · next hKind => exact .bind (jumpStatement (word hKind rfl)) fun _ => .done _
  · exact .bind (h.plainStatement t w) fun _ => .done _

def statementForm (h : Nested L inner) : Composed L T (Grammar.statement inner) := by
  refine current fun t w _ => .ite _ (fun _ => ?_) fun _ => h.unlabeledStatement t w
  refine .bind (peekIs _ fun _ _ => rfl) fun _ => .ite _ (fun _ => ?_) fun _ =>
    h.unlabeledStatement t w
  exact .bind h.labeledStatement fun _ => .done _

end Nested

/-! ## All levels -/

def deeper {p : Parse α} (c : Composed L T p) : Composed L T p.deeper :=
  .read fun _ _ _ => .ite _
    (fun _ => .bind (.change _ (.of_surroundings (fun _ _ => rfl) fun _ => rfl)) fun _ =>
      .ensuring _ (.of_surroundings (fun _ _ => rfl) fun _ => rfl) (c.under fun _ => And.right))
    fun _ => .tooDeep

/-- How the parsers of all levels are composed. -/
def nested (L : Likeness) : (n : Nat) → Nested L (levels n)
  | 0 => {
    consuming := consuming_levels 0
    statement := .tooDeep
    expression _ := .tooDeep
    binding _ := .tooDeep
    construction _ := .tooDeep }
  | n + 1 => {
    consuming := consuming_levels (n + 1)
    statement := deeper (nested L n).statementForm
    expression power := deeper ((nested L n).operators power)
    binding kind := deeper ((nested L n).bindingTarget kind)
    construction h := deeper ((nested L n).constructionForm h) }

def reportProblems (line column : Nat) : (problems : List Setting.Problem) →
    Composition L T (reportProblems problems line column)
      (reportProblems problems line column) fun _ => T
  | [] => .pure () fun _ => id
  | problem :: rest => .bind (.reject problem line column) fun _ => reportProblems line column rest

/-- How a whole program is composed. Nothing was read when it starts. -/
def program (L : Likeness) (problems : List Setting.Problem) :
    Composed L (·.isEnd) (program problems) :=
  .bind (reportProblems 0 0 problems) fun _ =>
    .bind (consume fun _ => Token.decides_of_isEnd) fun _ =>
    .bind Nested.prologue fun _ => discard ((nested L maxNesting).statementList .program)

end

end ScriptLint.Grammar.Composition
