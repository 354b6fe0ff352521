import ScriptLint.Proofs.Heads.Runs

/-!
# Operands in a statement and in a head

One lemma for each parser of operands, in the order of the grammar. Functions are sinks, since a
function would be finished in the statement; classes are not reached.

- `Together`: both runs read the same operand.
- `Carries`: what is known of the parsers one level deeper.
- `Carries.operand`, `Carries.construction`: an operand is read alike, whatever it is.
-/

namespace ScriptLint.Heads

open Parse Grammar

variable {α : Type} {stop k j m : Nat} {K : TokenKind → Prop} {inner : Nested} {t t' : Token}
  {left left' : Summary}

/-- Both runs read the same, with as many brackets open behind it as before. -/
abbrev Together [Portable α] (stop k : Nat) (p p' : Parse α) : Prop :=
  Tracks (Abreast stop k k Any) p p' fun _ => Abreast stop k k Any

/-- What is known of the parsers one level deeper. -/
structure Carries (stop : Nat) (inner : Nested) : Prop where
  balanced : balanced.Nested inner inner
  coursing : coursing.Nested inner inner
  expression (power k : Nat) : Together stop k (inner.expression power) (inner.expression power)
  construction (k : Nat) :
    Tracks (Abreast stop k k (· = .keyword .newWord)) inner.construction inner.construction
    fun _ => Abreast stop k k Any

/-! ## Plain tokens -/

/-- A name of a property is no semicolon and no bracket. -/
theorem plain_of_propertyName {key : String} (h : t.propertyName? = some key) (k : Nat) :
    t.kind ≠ .punctuator .semicolon ∧ t.kind.bracketed k = k := by
  unfold Token.propertyName? at h
  split at h
  · next hKind => rw [hKind]; exact ⟨nofun, rfl⟩
  · next hKind => rw [hKind]; exact ⟨nofun, rfl⟩
  · cases h

theorem plain_of_identifier {name : String} (h : t.identifier? = some name) (k : Nat) :
    t.kind ≠ .punctuator .semicolon ∧ t.kind.bracketed k = k := by
  have hName : t.propertyName? = some name := by
    unfold Token.identifier? at h
    unfold Token.propertyName?
    split at h
    · next hKind => rw [hKind]; exact h
    · cases h
  exact plain_of_propertyName hName k

/-! ## What follows an operand -/

/-- Of the first argument, the first one found is kept. -/
theorem carried_or {first first' : Option Summary} (hFirst : Carried first first')
    (hLeft : Carried left left') : Carried (first.or (some left)) (first'.or (some left')) := by
  cases hFirst with
  | none => exact .some hLeft
  | some h => exact .some h

namespace Carries

variable (h : Carries stop inner)
include h

theorem assignment (k : Nat) : Together stop k inner.assignment inner.assignment := h.expression _ k

/-- One argument and the comma behind it. -/
theorem argument {first first' : Option Summary} (hFirst : Carried first first') :
    Tracks (Abreast stop k k Any) (argument inner first) (argument inner first')
      (Onward (fun _ => Abreast stop k k Any) fun _ => Abreast stop k k Any) := by
  refine .ifSees .rightParen (.any (.done hFirst fun _ _ => id)) ?_
  refine .bind (.discard (.eat .spread nofun rfl)) fun _ _ _ =>
    .bind (h.assignment k) fun e e' he => ?_
  exact .comma (carried_or hFirst he)

/-- The arguments of a call. -/
theorem arguments :
    Tracks (Abreast stop k k (· = .punctuator .leftParen)) (arguments inner) (arguments inner)
    fun _ => Abreast stop k k Any := by
  refine .opener fun opener opener' _ => .bind (.consume (m := k + 1) nofun rfl) fun _ _ _ => ?_
  refine .bind (.withNoIn (.cycle (fun _ _ => h.argument) Option.Rel.none))
    fun first first' hFirst => ?_
  exact .bind (.expectClosing .rightParen opener opener' nofun rfl) fun _ _ _ =>
    .pure hFirst fun _ _ => id

/-- Between two substitutions of a template its bracket is still open. -/
theorem substitution (u u' : Unit) :
    Tracks (Abreast stop (k + 1) k Any) (substitution inner u) (substitution inner u')
    (Onward (fun _ => Abreast stop (k + 1) k Any) fun _ => Abreast stop k k Any) := by
  refine .bind (.discard (.withNoIn (h.expression 0 (k + 1)))) fun _ _ _ =>
    .current fun t t' ht => ?_
  rw [ht.kind]
  split
  · next hKind => exact .bind (.known hKind (.consume (by simp) rfl)) fun _ _ _ => .again_unit
  · next hKind => exact .bind (.known hKind (.consume (by simp) rfl)) fun _ _ _ => .done_unit
  · exact .failExpected _

theorem template (text : String) :
    Tracks (Abreast stop k k (· = .template .head text)) (template inner)
    (template inner) fun _ => Abreast stop k k Any :=
  .bind (.consume (m := k + 1) nofun rfl) fun _ _ _ =>
    .cycle (fun _ _ _ => h.substitution _ _) trivial

end Carries

/-- A property behind a dot. -/
theorem together_dottedProperty (hLeft : Carried left left') (optional : Bool)
    (hK : ∀ κ, K κ → κ ≠ .punctuator .semicolon ∧ κ.bracketed k = k) :
    Tracks (Abreast stop k k K) (dottedProperty left optional) (dottedProperty left' optional)
      fun _ => Abreast stop k k Any := by
  refine .bind (.advance hK) fun _ _ _ => .current fun property property' hProperty => ?_
  rw [hProperty.isPunctuator, hProperty.isPunctuator, hProperty.propertyName?]
  refine .ite Iff.rfl (.any (.pure hLeft fun _ _ => id)) ?_
  cases hName : property.propertyName? with
  | none => exact .failIdentifier
  | some key =>
    refine .bind (.advance fun κ hκ => hκ ▸ plain_of_propertyName hName k) fun _ _ _ => ?_
    refine .bind (.quietly (quiet_lenient.checkProperty left key property)
      (quiet_lenient.checkProperty left' key property')) fun _ _ _ => ?_
    exact .pure ⟨rfl, rfl⟩ fun _ _ => id

namespace Carries

variable (h : Carries stop inner)
include h

/-- A subscript in brackets. -/
theorem subscript (left left' : Summary) : Tracks (Abreast stop k k (· = .punctuator .leftBracket))
    (subscript inner left) (subscript inner left') fun _ => Abreast stop k k Any := by
  refine .opener fun opener opener' _ => .bind (.consume (m := k + 1) nofun rfl) fun _ _ _ => ?_
  refine .bind (.withNoIn (h.expression 0 (k + 1))) fun key key' hKey => ?_
  refine .bind (.expectClosing .rightBracket opener opener' nofun rfl) fun _ _ _ => ?_
  rw [hKey.form]
  split
  · next name _ =>
    refine .bind
      (.quietly (quiet_lenient.checkSubscript name key) (quiet_lenient.checkSubscript name key'))
      fun _ _ _ => ?_
    refine .bind (.quietly (quiet_lenient.checkProperty left name opener)
      (quiet_lenient.checkProperty left' name opener')) fun _ _ _ => ?_
    exact .pure ⟨rfl, rfl⟩ fun _ _ => id
  · exact .pure ⟨rfl, rfl⟩ fun _ _ => id

/-- One link of a chain. -/
theorem chainLink (allowCall : Bool) (hLeft : Carried left left') :
    Tracks (Abreast stop k k Any) (chainLink inner allowCall left) (chainLink inner allowCall left')
      (Onward (fun _ => Abreast stop k k Any) fun _ => Abreast stop k k Any) := by
  -- which link it is depends on the token, which is the same in both runs
  refine .current fun t t' ht => ?_
  rw [ht.kind]
  split
  · next hKind =>
    have hPlain (κ : TokenKind) (hκ : κ = .punctuator .dot) :
        κ ≠ .punctuator .semicolon ∧ κ.bracketed k = k :=
      hκ ▸ ⟨by simp, rfl⟩
    exact .bind (.known hKind (together_dottedProperty hLeft false hPlain)) fun _ _ he =>
      .again he fun _ _ => id
  · next hKind =>
    have hPlain (κ : TokenKind) (hκ : κ = .punctuator .optionalChain) :
        κ ≠ .punctuator .semicolon ∧ κ.bracketed k = k := hκ ▸ ⟨by simp, rfl⟩
    exact .bind (.known hKind (together_dottedProperty hLeft true hPlain)) fun _ _ he =>
      .again he fun _ _ => id
  · next hKind =>
    exact .bind (.known hKind (h.subscript left left')) fun _ _ he => .again he fun _ _ => id
  · next hKind =>
    refine .ite Iff.rfl (.bind (.known hKind h.arguments) fun first first' _ => ?_)
      (.any (.done hLeft fun _ _ => id))
    refine .bind
      (.quietly (quiet_lenient.checkCall left first) (quiet_lenient.checkCall left' first'))
      fun _ _ _ => ?_
    exact .again ⟨rfl, rfl⟩ fun _ _ => id
  · next hKind =>
    exact .bind (.known hKind (h.template _)) fun _ _ _ => .again ⟨rfl, rfl⟩ fun _ _ => id
  · next hKind =>
    exact .bind (.known hKind (.consume (by simp) rfl)) fun _ _ _ => .again ⟨rfl, rfl⟩ fun _ _ => id
  · exact .any (.done hLeft fun _ _ => id)

theorem chain (allowCall : Bool) (hLeft : Carried left left') :
    Together stop k (chain inner allowCall left) (chain inner allowCall left') :=
  .cycle (fun _ _ => h.chainLink allowCall) hLeft

/-! ## Arrays -/

theorem arrayElement (u u' : Unit) :
    Tracks (Abreast stop k k Any) (arrayElement inner u) (arrayElement inner u')
    (Onward (fun _ => Abreast stop k k Any) fun _ => Abreast stop k k Any) := by
  refine .ifSees .rightBracket (.any .done_unit) ?_
  refine .ifEat .comma nofun rfl .again_unit
    (.bind (.discard (.eat .spread nofun rfl)) fun _ _ _ => ?_)
  exact .bind (.discard (h.assignment k)) fun _ _ _ => .comma trivial

/-- The elements of an array. -/
theorem arrayLiteral : Tracks (Abreast stop k k (· = .punctuator .leftBracket)) (arrayLiteral inner)
    (arrayLiteral inner) fun _ => Abreast stop k k Any := by
  refine .opener fun opener opener' _ => .bind (.consume (m := k + 1) nofun rfl) fun _ _ _ => ?_
  refine .bind (.withNoIn (.cycle (fun _ _ _ => h.arrayElement _ _) trivial)) fun _ _ _ => ?_
  exact .bind (.expectClosing .rightBracket opener opener' nofun rfl) fun _ _ _ =>
    .pure ⟨rfl, rfl⟩ fun _ _ => id

end Carries

/-! ## Objects -/

/-- A moved token is a modifier or starts a key as before. -/
theorem isModifier_moved (ht : t.Moved t') : isModifier t' = isModifier t := by
  rw [isModifier, ht.identifier?, isModifier]

theorem startsKey_moved (ht : t.Moved t') : startsKey t' = startsKey t := by
  rw [startsKey, ht.kind, startsKey]

/-- A modifier is no semicolon and no bracket. -/
theorem plain_of_isModifier (h : isModifier t = true) (k : Nat) :
    t.kind ≠ .punctuator .semicolon ∧ t.kind.bracketed k = k := by
  unfold isModifier at h
  split at h
  · next hName => exact plain_of_identifier hName k
  · cases h

/-- The modifiers in front of a key. -/
theorem together_keyModifier (u u' : Unit) :
    Tracks (Abreast stop k k Any) (keyModifier u) (keyModifier u')
    (Onward (fun _ => Abreast stop k k Any) fun _ => Abreast stop k k Any) := by
  refine .ifEat .times nofun rfl .again_unit (.current fun t t' ht => ?_)
  rw [isModifier_moved ht]
  cases hModifier : isModifier t with
  | false => exact .any .done_unit
  | true =>
    have hPlain (κ : TokenKind) (hκ : κ = t.kind) :
        κ ≠ .punctuator .semicolon ∧ κ.bracketed k = k :=
      hκ ▸ plain_of_isModifier hModifier k
    refine .ifPeek (fun u u' hu => ?_) (fun κ hκ => (hPlain κ hκ).1)
      (.bind (.advance hPlain) fun _ _ _ => .again_unit) (.any .done_unit)
    rw [startsKey_moved hu, hu.newlineBefore]

namespace Carries

variable (h : Carries stop inner)
include h

/-- Keys stand inside braces, where `in` is an operator in both runs. -/
theorem propertyKey (hk : 0 < k) :
    Tracks (Abreast stop k k Any) (propertyKey inner) (propertyKey inner) fun _ =>
      Past stop k k := by
  refine .bind (.cycle (fun _ _ _ => together_keyModifier _ _) (trivial : Carried () ()))
    fun _ _ _ =>
    .current fun t t' ht => ?_
  -- the kinds of keys; in brackets `in` is an operator again
  rw [ht.kind]
  split
  · next hKind =>
    exact .bind (.known hKind (.take (by simp) rfl)) fun _ _ _ =>
      .pure (.some trivial) fun _ _ => id
  · next hKind =>
    exact .bind (.known hKind (.take (by simp) rfl)) fun _ _ _ =>
      .pure (.some trivial) fun _ _ => id
  · next hKind =>
    exact .bind (.known hKind (.take (by simp) rfl)) fun _ _ _ =>
      .pure (.some trivial) fun _ _ => id
  · next hKind =>
    exact .bind (.known hKind (.take (by simp) rfl)) fun _ _ _ =>
      .pure (.some trivial) fun _ _ => id
  · next hKind =>
    have hComputed :
        Tracks (Abreast stop (k + 1) k Any) (discard inner.assignment) (discard inner.assignment)
        fun _ => Abreast stop (k + 1) k Any :=
      (h.assignment (k + 1)).discard.imp (fun _ _ hs => hs.agree hk _) fun _ _ _ hs =>
        hs.agree (Nat.succ_pos k) _
    refine .bind (.known hKind (.consume (by simp) rfl)) fun _ _ _ =>
      .bind hComputed fun _ _ _ => ?_
    exact .bind (.passClosing .rightBracket t t' (by simp) rfl) fun _ _ _ =>
      .pure .none fun _ _ => id
  · exact .failIdentifier

/-- Both runs set the name for a function, or neither does. -/
theorem hinted {c c' : Prop} [Decidable c] [Decidable c'] (hc : c' ↔ c)
    (hint hint' : Option String) : Together stop k
      (do
        if c then setHint hint
        discard (clearingHint inner.assignment))
      (do
        if c' then setHint hint'
        discard (clearingHint inner.assignment)) :=
  .when hc (.quietly (quiet_setHint hint) (quiet_setHint hint'))
    (.discard (.clearingHint (h.assignment k)))

theorem propertyValue (key key' : Option String) :
    Together stop k (propertyValue inner key) (propertyValue inner key') :=
  .seesWord .functionWord fun _ => h.hinted Iff.rfl key key'

theorem defaultValue : Together stop k inner.defaultValue inner.defaultValue :=
  .ifEat .assign nofun rfl (.discard (h.assignment k)) (.pure trivial fun _ _ => id)

end Carries

/-- What follows the key of a property; `bare` says that the key is a single token. -/
def propertyRest (inner : Nested) (start : Token) (key : Option String) (bare : Bool) :
    Parse Unit := do
  if ← sees .leftParen then function inner .method key start.line start.column
  else if ← eat .colon then propertyValue inner key
  else match start.identifier?, bare with
    | some name, true =>
      reference name start.line start.column
      inner.defaultValue
    | _, _ => failExpected ":"

namespace Carries

variable (h : Carries stop inner)
include h

/-- What follows the key of a property. -/
theorem propertyRest (ht : t.Moved t') (key key' : Option String) (bare : Bool) :
    Together stop k (propertyRest inner t key bare) (propertyRest inner t' key' bare) := by
  refine .ifSees .leftParen (.sink (finishes_function h.balanced _ _ _ _)) ?_
  refine .ifEat .colon nofun rfl (h.propertyValue key key') ?_
  rw [ht.identifier?]
  split
  · next name _ =>
    refine .bind (.quietly (quiet_lenient.reference name t.line t.column)
      (quiet_lenient.reference name t'.line t'.column)) fun _ _ _ => h.defaultValue
  · exact .failExpected _

/-- One property of an object. -/
theorem objectProperty (hk : 0 < k) :
    Together stop k (objectProperty inner) (objectProperty inner) := by
  refine .opener fun start start' hStart => .bind (h.propertyKey hk) fun key key' _ => ?_
  -- both keys end where they start, or neither does
  refine .ask (fun s => s.previous.offset == start.offset)
    (fun s => s.previous.offset == start'.offset) Eq
    (Heads.propertyRest inner start key) (Heads.propertyRest inner start' key') (fun b => ⟨b, rfl⟩)
    (fun s s' hs => ?_) fun bare bare' hBare => ?_
  · rw [hs.previous, hStart.offset, Bool.eq_iff_iff, beq_iff_eq, beq_iff_eq]
    omega
  · subst hBare
    exact (h.propertyRest hStart key key' bare).before fun _ _ hs => hs.1.toAbreast

theorem objectElement (hk : 0 < k) (u u' : Unit) :
    Tracks (Abreast stop k k Any) (objectElement inner u) (objectElement inner u')
      (Onward (fun _ => Abreast stop k k Any) fun _ => Abreast stop k k Any) := by
  refine .ifSees .rightBrace (.any .done_unit) ?_
  refine .ifEat .spread nofun rfl ?_ ?_
  · exact .bind (.discard (h.assignment k)) fun _ _ _ => .comma trivial
  · exact .bind (h.objectProperty hk) fun _ _ _ => .comma trivial

/-- The properties of an object. -/
theorem objectLiteral : Tracks (Abreast stop k k (· = .punctuator .leftBrace)) (objectLiteral inner)
    (objectLiteral inner) fun _ => Abreast stop k k Any := by
  refine .opener fun opener opener' _ => .bind (.consume (m := k + 1) nofun rfl) fun _ _ _ => ?_
  refine .bind (.withNoIn (.cycle (fun _ _ _ => h.objectElement (Nat.succ_pos k) _ _) trivial))
    fun _ _ _ => ?_
  exact .bind (.expectClosing .rightBrace opener opener' nofun rfl) fun _ _ _ =>
    .pure ⟨rfl, rfl⟩ fun _ _ => id

/-! ## Names and functions -/

/-- An arrow function leaves a finished function behind. -/
theorem finishes_arrowFunction (t : Token) : Finishes (arrowFunction inner t) :=
  (finishes_function h.balanced _ _ _ _).bind fun _ => .pure _

theorem finishes_functionExpression : Finishes (functionExpression inner) := by
  refine .after fun t => .after fun _ => .after fun _ => .after fun s => .after fun _ =>
    .after fun next => ?_
  cases next.identifier? with
  | some name => exact .after fun _ => (finishes_function h.balanced _ _ _ _).bind fun _ => .pure _
  | none => exact (finishes_function h.balanced _ _ _ _).bind fun _ => .pure _

end Carries

/-- The same name is read or written. -/
theorem together_nameUse (name : String) (t t' : Token) :
    Tracks (Abreast stop k k (· = .identifier name)) (nameUse name t) (nameUse name t') fun _ =>
      Abreast stop k k Any :=
  have hSame : Carried (Summary.startingAt t (.name name)) (.startingAt t' (.name name)) :=
    ⟨rfl, rfl⟩
  .bind (.consume nofun rfl) fun _ _ _ =>
    .gives hSame (Division.resolves_noteUse quiet_lenient name t) (Division.gives_noteUse name t)
      (Division.resolves_noteUse quiet_lenient name t') (Division.gives_noteUse name t')

/-- Where the runs are once it is clear whether `async` starts something. -/
def Started (stop k : Nat) (K : TokenKind → Prop) : Option Summary → Session → Session → Prop
  | none => Abreast stop k k K
  | some _ => Abreast stop k k Any

namespace Carries

variable (h : Carries stop inner)
include h

/-- What `async` begins: a name, a call, or a function, which ends the comparison. -/
theorem asyncForm (name : String) (t t' : Token) : Tracks (Abreast stop k k (· = .identifier name))
    (asyncForm inner t) (asyncForm inner t') (Started stop k (· = .identifier name)) := by
  have hPlain (κ : TokenKind) (hκ : κ = .identifier name) : κ ≠ .punctuator .semicolon := hκ ▸ nofun
  have hNone : Tracks (Abreast stop k k (· = .identifier name)) (return none) (return none)
      (Started stop k (· = .identifier name)) := .pure Option.Rel.none fun _ _ => id
  -- the tests are about the tokens ahead, which are moved as a whole
  refine .ifPeek (fun _ _ hu => hu.newlineBefore) hPlain hNone ?_
  refine .ifPeek (fun _ _ hu => hu.isKeyword .functionWord) hPlain ?_ ?_
  · exact .sink (.after fun _ => h.finishes_functionExpression.bind fun _ => .pure _)
  refine .ifPeek (fun _ _ hu => by rw [hu.identifier?]) hPlain ?_ ?_
  · refine .bind (.peekArrowAfterNext hPlain) fun b b' hb => ?_
    obtain rfl : b' = b := hb
    refine .ite Iff.rfl (.sink (.after fun _ => ?_)) hNone
    exact (h.finishes_arrowFunction t).bind fun _ => .pure _
  refine .ifPeek (fun _ _ hu => hu.isPunctuator .leftParen) hPlain
    (.bind (.consume nofun rfl) fun _ _ _ => ?_) hNone
  refine .bind .startsArrow fun b b' hb => ?_
  obtain rfl : b' = b := hb
  refine .ite Iff.rfl (.sink ((h.finishes_arrowFunction t).bind fun _ => .pure _)) ?_
  refine .bind (.quietly (quiet_lenient.reference "async" t.line t.column)
    (quiet_lenient.reference "async" t'.line t'.column)) fun _ _ _ => ?_
  exact .pure (.some ⟨rfl, rfl⟩) fun _ _ => id

/-- What a name begins. -/
theorem identifierForm (name : String) (t t' : Token) :
    Tracks (Abreast stop k k (· = .identifier name))
    (identifierForm inner name t) (identifierForm inner name t') fun _ => Abreast stop k k Any := by
  have hPlain (κ : TokenKind) (hκ : κ = .identifier name) : κ ≠ .punctuator .semicolon := hκ ▸ nofun
  refine .ifPeek (fun _ _ hu => hu.isPunctuator .arrow) hPlain
    (.sink (h.finishes_arrowFunction t)) ?_
  refine .ite Iff.rfl ?_ (together_nameUse name t t')
  refine .bind (h.asyncForm name t t') fun e e' he => ?_
  cases he with
  | none => exact together_nameUse name t t'
  | some he => exact .pure he fun _ _ => id

/-! ## Operands -/

theorem parenthesized : Tracks (Abreast stop k k (· = .punctuator .leftParen)) (parenthesized inner)
    (parenthesized inner) fun _ => Abreast stop k k Any := by
  refine .opener fun opener opener' _ => .bind (.consume (m := k + 1) nofun rfl) fun _ _ _ => ?_
  refine .bind (.withNoIn (h.expression 0 (k + 1))) fun e e' he => ?_
  exact .bind (.expectClosing .rightParen opener opener' nofun rfl) fun _ _ _ =>
    .pure ⟨he.form, rfl⟩ fun _ _ => id

/-- One case for each kind of token that starts an operand. -/
theorem simpleOperand : Together stop k (simpleOperand inner) (simpleOperand inner) := by
  -- functions leave a finished function behind, everything else stays together
  refine .current fun t t' ht => ?_
  rw [ht.kind]
  split
  · next hKind => exact .known hKind (h.identifierForm _ t t')
  · next hKind =>
    refine .bind (.quietly (quiet_lenient.checkThis t) (quiet_lenient.checkThis t')) fun _ _ _ => ?_
    exact .literal hKind ⟨rfl, rfl⟩ (by simp) rfl
  · next hKind => exact .literal hKind ⟨rfl, rfl⟩ (by simp) rfl
  · exact .sink h.finishes_functionExpression
  · next hKind => exact .known hKind (h.construction k)
  · next hKind => exact .literal hKind ⟨rfl, rfl⟩ (by simp) rfl
  · next hKind => exact .literal hKind ⟨rfl, rfl⟩ (by simp) rfl
  · next hKind => exact .literal hKind ⟨rfl, rfl⟩ (by simp) rfl
  · next hKind => exact .literal hKind ⟨rfl, rfl⟩ (by simp) rfl
  · next hKind => exact .literal hKind ⟨rfl, rfl⟩ (by simp) rfl
  · next hKind => exact .literal hKind ⟨rfl, rfl⟩ (by simp) rfl
  · next hKind => exact .literal hKind ⟨rfl, rfl⟩ (by simp) rfl
  · next hKind =>
    exact .bind (.known hKind (h.template _)) fun _ _ _ => .pure ⟨rfl, rfl⟩ fun _ _ => id
  · next hKind => exact .literal hKind ⟨rfl, rfl⟩ (by simp) rfl
  · next hKind =>
    refine .bind .startsArrow fun b b' hb => ?_
    obtain rfl : b' = b := hb
    exact .ite Iff.rfl (.sink (h.finishes_arrowFunction t)) (.known hKind h.parenthesized)
  · next hKind => exact .known hKind h.arrayLiteral
  · next hKind => exact .known hKind h.objectLiteral
  · exact .failIdentifier

end Carries

/-- The heritage of a class forgets no function. -/
theorem remembers_heritageOf (h : coursing.Nested inner inner) {p : Parse Summary}
    (hp : Remembers p) : Remembers (heritageOf inner p) :=
  hp.bind fun base => .of_courses (coursing.discard (h.chain true base))

/-- A class, whatever it extends. -/
theorem remembers_classForm (h : coursing.Nested inner inner) {heritage : Parse Unit}
    (hHeritage : Remembers heritage) : Remembers (classForm inner heritage false) := by
  have hRest : Remembers (do
      let opener ← Parse.current
      expect .leftBrace
      loop (classElement inner) ()
      expectClosing .rightBrace opener) := by
    refine .of_courses (.bind coursing.current fun opener => .bind (coursing.expect _) fun _ => ?_)
    exact .bind (coursing.loop h.classElement ()) fun _ => coursing.expectClosing _ _
  refine .bind (.of_courses (coursing.expectWord _)) fun _ => ?_
  refine .bind (.of_courses (Congruence.Nested.className (K := coursing) false)) fun _ => ?_
  refine .bind (.of_courses (coursing.seesWord _)) fun isDerived => ?_
  cases isDerived with
  | true => exact .bind (.of_courses coursing.advance) fun _ => .bind hHeritage fun _ => hRest
  | false => exact hRest

namespace Carries

variable (h : Carries stop inner)
include h

/-- No class starts before the semicolon. -/
theorem operand : Together stop k (operand inner) (operand inner) := by
  refine .recursive (fun _ _ hs => hs.budget_le) fun p p' hp => .current fun t t' ht => ?_
  rw [ht.isKeyword]
  cases hClass : t.isKeyword .classWord with
  | false => exact .any h.simpleOperand
  | true =>
    have hForm := remembers_classForm h.coursing (remembers_heritageOf h.coursing hp)
    refine .unreached (hForm.bind fun _ => .pure _) fun s s' hs => ?_
    exact hs.noClass (hs.kind.trans (Token.kind_of_isKeyword hClass))

/-- A `new` expression. -/
theorem constructionForm :
    Tracks (Abreast stop k k (· = .keyword .newWord)) (Grammar.construction inner)
    (Grammar.construction inner) fun _ => Abreast stop k k Any := by
  refine .opener fun newToken newToken' _ => .bind (.consume nofun rfl) fun _ _ _ => ?_
  refine .ifEat .dot nofun rfl (.bind (.discard .expectIdentifier) fun _ _ _ =>
    .pure ⟨rfl, rfl⟩ fun _ _ => id) ?_
  refine .opener fun callee callee' hCallee => ?_
  rw [hCallee.isKeyword]
  refine .when Iff.rfl
    (.quietly (quiet_lenient.warnUnless .supernew newToken.line newToken.column rfl)
    (quiet_lenient.warnUnless .supernew newToken'.line newToken'.column rfl)) ?_
  refine .bind h.operand fun base base' hBase => .bind (h.chain false hBase) fun e e' he => ?_
  -- behind the callee there may be arguments
  have hRest : Together stop k
      (do
        if ← Parse.sees .leftParen then discard (Grammar.arguments inner)
        return Summary.startingAt newToken .construction)
      (do
        if ← Parse.sees .leftParen then discard (Grammar.arguments inner)
        return Summary.startingAt newToken' .construction) := by
    refine .sees .leftParen fun b => ?_
    cases b with
    | true =>
      refine .bind (.discard (h.arguments.before fun _ _ hs => hs.imp fun hTrue => hTrue rfl))
        fun _ _ _ => ?_
      exact .pure ⟨rfl, rfl⟩ fun _ _ => id
    | false => exact .any (.pure ⟨rfl, rfl⟩ fun _ _ => id)
  rw [he.form]
  split
  · next name _ =>
    exact .bind (.quietly (quiet_lenient.checkConstructor name newToken callee)
      (quiet_lenient.checkConstructor name newToken' callee')) fun _ _ _ => hRest
  · exact hRest

end Carries

end ScriptLint.Heads
