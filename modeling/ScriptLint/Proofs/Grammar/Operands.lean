import ScriptLint.Proofs.Grammar.Congruence

/-!
# Patterns, functions and operands respect every congruence

One lemma for each parser, in the order of the grammar. A parser is related to itself with other
parsers one level deeper, provided that these are related.
-/

namespace ScriptLint.Grammar.Congruence.Nested

open Parse

variable {K : Congruence} {inner inner' : ScriptLint.Nested}

/-! ## Patterns -/

theorem arrayPatternElement (h : K.Nested inner inner') (kind : Scope.BindingKind) (u : Unit) :
    K.Rel (arrayPatternElement inner kind u) (arrayPatternElement inner' kind u) := by
  refine K.bind (K.sees _) fun _ => K.ite _ (K.pure _) ?_
  refine K.bind (K.eat _) fun _ => K.ite _ (K.pure _) ?_
  refine K.bind (K.discard (K.eat _)) fun _ => K.bind (h.binding kind) fun _ => ?_
  refine K.bind h.defaultValue fun _ => K.bind (K.eat _) fun _ => ?_
  exact K.ite _ (K.pure _) (K.pure _)

theorem arrayPattern (h : K.Nested inner inner') (kind : Scope.BindingKind) :
    K.Rel (arrayPattern inner kind) (arrayPattern inner' kind) := by
  refine K.bind K.current fun opener => K.bind K.advance fun _ => ?_
  exact K.bind (K.loop (h.arrayPatternElement kind) ()) fun _ => K.expectClosing _ _

theorem patternKey (h : K.Nested inner inner') : K.Rel (patternKey inner) (patternKey inner') := by
  refine K.bind K.current fun key => ?_
  split
  · exact K.advance
  · exact K.advance
  · exact K.advance
  · exact K.advance
  · refine K.bind K.advance fun _ => K.bind (K.discard h.assignment) fun _ => ?_
    exact K.expectClosing _ _
  · exact K.failIdentifier

theorem patternProperty (h : K.Nested inner inner') (kind : Scope.BindingKind) :
    K.Rel (patternProperty inner kind) (patternProperty inner' kind) := by
  refine K.bind K.current fun key => K.bind h.patternKey fun _ => ?_
  refine K.bind (K.eat _) fun _ => K.ite _ (h.binding kind) ?_
  cases key.identifier? with
  | some name => exact K.declare _ _ _ _
  | none => exact K.failExpected _

theorem objectPatternElement (h : K.Nested inner inner') (kind : Scope.BindingKind) (u : Unit) :
    K.Rel (objectPatternElement inner kind u) (objectPatternElement inner' kind u) := by
  refine K.bind (K.sees _) fun _ => K.ite _ (K.pure _) ?_
  have rest (_ : Unit) : K.Rel
      (do inner.defaultValue; if ← Parse.eat .comma then return Round.again () else return .done ())
      (do
        inner'.defaultValue
        if ← Parse.eat .comma then return Round.again () else return .done ()) :=
    K.bind h.defaultValue fun _ => K.bind (K.eat _) fun _ => K.ite _ (K.pure _) (K.pure _)
  refine K.bind (K.eat _) fun _ => K.ite _ ?_ ?_
  · exact K.bind (h.binding kind) rest
  · exact K.bind (h.patternProperty kind) rest

theorem objectPattern (h : K.Nested inner inner') (kind : Scope.BindingKind) :
    K.Rel (objectPattern inner kind) (objectPattern inner' kind) := by
  refine K.bind K.current fun opener => K.bind K.advance fun _ => ?_
  exact K.bind (K.loop (h.objectPatternElement kind) ()) fun _ => K.expectClosing _ _

theorem bindingTarget (h : K.Nested inner inner') (kind : Scope.BindingKind) :
    K.Rel (bindingTarget inner kind) (bindingTarget inner' kind) := by
  refine K.bind K.current fun t => ?_
  split
  · exact K.bind K.advance fun _ => K.declare _ _ _ _
  · exact h.arrayPattern kind
  · exact h.objectPattern kind
  · exact K.failIdentifier

/-! ## Lists of statements -/

theorem skipToken (moved : Bool) : K.Rel (skipToken moved) (skipToken moved) := by
  refine K.bind K.current fun t => K.ite _ (K.pure _) (K.ite _ ?_ (K.ite _ (K.pure _) ?_))
  · exact K.bind K.advance fun _ => K.pure _
  · exact K.bind K.advance fun _ => K.pure _

theorem resync (start : Nat) : K.Rel (resync start) (resync start) :=
  K.bind K.current fun _ => K.discard (K.loop skipToken _)

theorem checkReachable (state : ListState) :
    K.Rel (checkReachable state) (checkReachable state) := by
  refine K.bind K.current fun t => ?_
  cases state.jumped with
  | some jump => exact K.ite _ (K.bind (K.warnHere _ rfl) fun _ => K.pure _) (K.pure _)
  | none => exact K.pure _

theorem listStatement (h : K.Nested inner inner') (state : ListState) :
    K.Rel (listStatement inner state) (listStatement inner' state) := by
  refine K.bind (checkReachable state) fun state => K.bind K.current fun t => ?_
  refine K.bind (K.recover h.statement (K.bind (resync _) fun _ => K.pure _)) fun flow => ?_
  cases flow with
  | normal => exact K.pure _
  | jump j => exact K.pure _

theorem listRound (h : K.Nested inner inner') (stop : ListEnd) (state : ListState) :
    K.Rel (listRound inner stop state) (listRound inner' stop state) := by
  refine K.bind K.current fun t => K.ite _ (K.pure _) (K.ite _ ?_ ?_)
  · exact K.bind (K.warnHere _ rfl) fun _ => K.bind K.advance fun _ => K.pure _
  · exact K.bind (h.listStatement state) fun _ => K.pure _

theorem statementList (h : K.Nested inner inner') (stop : ListEnd) :
    K.Rel (statementList inner stop) (statementList inner' stop) :=
  K.bind (K.loop (h.listRound stop) _) fun _ => K.pure _

/-! ## Functions -/

theorem enterStrict : K.Rel enterStrict enterStrict := by
  refine K.read fun s _ ⟨u, hs, hu⟩ => ?_
  subst hs
  refine K.ite _ (K.warnHere _ rfl) (K.bind (K.step .makeStrict) fun _ => ?_)
  refine (K.optional_warnHere (s := .globalstrict) rfl).gate fun hs => ?_
  have hNode : ¬K.hides .node := fun h => K.governs_ne h rfl
  rw [Session.withUnseen, Setting.Layers.enabled, Setting.Layers.enabled, Setting.Layers.enabled,
    Setting.Layers.enabled, hu .globalstrict hs, hu .node hNode]
  rfl

theorem prologueStatement (t : Token) : K.Rel (prologueStatement t) (prologueStatement t) := by
  refine K.bind K.addStatement fun _ => K.when _ enterStrict fun _ => ?_
  exact K.bind K.advance fun _ => K.consumeSemicolon

theorem prologue : K.Rel prologue prologue :=
  K.loop (fun _ => K.prologueRound prologueStatement) ()

theorem parameter (h : K.Nested inner inner') (count : Nat) :
    K.Rel (parameter inner count) (parameter inner' count) := by
  refine K.bind (K.sees _) fun _ => K.ite _ (K.pure _) ?_
  refine K.bind (K.discard (K.eat _)) fun _ => K.bind (h.binding _) fun _ => ?_
  refine K.bind h.defaultValue fun _ => K.bind (K.eat _) fun _ => ?_
  exact K.ite _ (K.pure _) (K.pure _)

theorem parameterList (h : K.Nested inner inner') :
    K.Rel (parameterList inner) (parameterList inner') := by
  refine K.bind K.current fun opener => K.bind (K.expect _) fun _ => ?_
  refine K.bind (K.loop h.parameter 0) fun count => ?_
  exact K.bind (K.expectClosing _ _) fun _ => K.pure _

theorem parameters (h : K.Nested inner inner') (kind : FunctionKind) :
    K.Rel (parameters inner kind) (parameters inner' kind) := by
  refine K.bind (K.sees _) fun _ => K.ite _ ?_ h.parameterList
  exact K.bind K.expectIdentifier fun _ => K.bind (K.declare _ _ _ _) fun _ => K.pure _

theorem functionBody (h : K.Nested inner inner') (kind : FunctionKind) :
    K.Rel (functionBody inner kind) (functionBody inner' kind) := by
  refine K.bind prologue fun _ => K.read fun s _ ⟨u, hs, hu⟩ => ?_
  subst hs
  refine (K.optional_warnHere (s := .strict) rfl).gateThen (fun hs => ?_)
    fun _ => K.discard (h.statementList _)
  rw [Session.withUnseen, Setting.Layers.enabled, Setting.Layers.enabled, hu .strict hs]
  rfl

theorem bracedBody (h : K.Nested inner inner') (kind : FunctionKind) :
    K.Parts (bracedBody inner kind) (bracedBody inner' kind) := by
  refine K.bindParts (K.sees _) fun brace => ?_
  cases brace with
  | false => exact K.parts (K.failExpected _)
  | true =>
    refine K.openOverlay fun _ => K.bind K.advance fun _ => ?_
    exact K.withNoIn _ (h.functionBody kind)

theorem functionTail (h : K.Nested inner inner') (kind : FunctionKind) :
    K.Parts (functionTail inner kind) (functionTail inner' kind) := by
  have rest (_ : Unit) : K.Parts
      (do
        if kind = .arrow && !(← Parse.sees .leftBrace) then
          Grammar.openOverlay
          Functor.discard (Parse.withNoIn false inner.assignment)
          return false
        else
          Grammar.bracedBody inner kind
          return true)
      (do
        if kind = .arrow && !(← Parse.sees .leftBrace) then
          Grammar.openOverlay
          Functor.discard (Parse.withNoIn false inner'.assignment)
          return false
        else
          Grammar.bracedBody inner' kind
          return true) := by
    refine K.bindParts (K.sees _) fun brace => ?_
    split
    · refine K.openOverlay fun _ => ?_
      exact K.bind (K.discard (K.withNoIn _ h.assignment)) fun _ => K.pure _
    · exact K.partsBind (h.bracedBody kind) fun _ => K.pure _
  unfold Grammar.functionTail
  split
  · exact K.bindParts (K.expect _) rest
  · exact rest ()

theorem functionParts (h : K.Nested inner inner') (kind : FunctionKind) (name : Option String)
    (line column : Nat) :
    K.Parts (functionParts inner kind name line column)
      (functionParts inner' kind name line column) := by
  have rest (_ : Unit) : K.Parts
      (do
        let count ← Grammar.parameters inner kind
        modifyMetrics (·.setParameters count)
        Grammar.functionTail inner kind)
      (do
        let count ← Grammar.parameters inner' kind
        modifyMetrics (·.setParameters count)
        Grammar.functionTail inner' kind) :=
    K.bindParts (h.parameters kind) fun _ => K.bindParts (K.step (.count _)) fun _ =>
      h.functionTail kind
  unfold Grammar.functionParts
  split
  · exact K.bindParts (K.declare _ _ _ _) rest
  · exact rest ()

theorem closingBrace (kind : FunctionKind) : K.Rel (closingBrace kind) (closingBrace kind) :=
  K.bind (K.sees _) fun _ => K.ite _ (K.step .advanceToStatement) (K.expect _)

theorem function (h : K.Nested inner inner') (kind : FunctionKind) (name : Option String)
    (line column : Nat) :
    K.Rel (function inner kind name line column) (function inner' kind name line column) := by
  refine K.read fun s _ ⟨_, hs, _⟩ => ?_
  subst hs
  refine K.when _ (K.warnUnless _ _ _ _ rfl) fun _ => ?_
  refine K.bind (K.insideFunction kind name line column ?_) fun braced => ?_
  · exact h.functionParts kind name line column
  · exact K.ite _ (closingBrace kind) (K.pure ())

/-! ## Properties, arguments and calls -/

theorem checkProperty (object : Summary) (key : String) (place : Token) :
    K.Rel (checkProperty object key place) (checkProperty object key place) := by
  unfold Grammar.checkProperty
  refine K.when _ (K.warnUnless .proto (.deprecated key) _ _ rfl) fun _ => ?_
  dsimp only
  split
  · exact K.ite _ (K.warnIf _ _ _ _ rfl) (K.pure ())
  · exact K.pure ()

theorem checkSubscript (key : String) (subscript : Summary) :
    K.Rel (checkSubscript key subscript) (checkSubscript key subscript) :=
  K.ite _ (K.warnUnless _ _ _ _ rfl) (K.pure ())

theorem checkImpliedEval (first : Option Summary) :
    K.Rel (checkImpliedEval first) (checkImpliedEval first) := by
  unfold Grammar.checkImpliedEval
  split
  · split
    · exact K.warnUnless _ _ _ _ rfl
    · exact K.pure ()
  · exact K.pure ()

theorem checkNamedCall (name : String) (callee : Summary) (first : Option Summary) :
    K.Rel (checkNamedCall name callee first) (checkNamedCall name callee first) := by
  refine K.ite _ (K.warnUnless _ _ _ _ rfl) (K.ite _ (checkImpliedEval first) ?_)
  exact K.ite _ (K.warnAt _ _ _ rfl) (K.ite _ (K.warnIf _ _ _ _ rfl) (K.pure ()))

theorem checkCall (callee : Summary) (first : Option Summary) :
    K.Rel (checkCall callee first) (checkCall callee first) := by
  unfold Grammar.checkCall
  split
  · exact checkNamedCall _ callee first
  · exact checkImpliedEval first
  · exact checkImpliedEval first
  · exact K.pure ()

theorem argument (h : K.Nested inner inner') (first : Option Summary) :
    K.Rel (argument inner first) (argument inner' first) := by
  refine K.bind (K.sees _) fun _ => K.ite _ (K.pure _) ?_
  refine K.bind (K.discard (K.eat _)) fun _ => K.bind h.assignment fun value => ?_
  exact K.bind (K.eat _) fun _ => K.ite _ (K.pure _) (K.pure _)

theorem arguments (h : K.Nested inner inner') : K.Rel (arguments inner) (arguments inner') := by
  refine K.bind K.current fun opener => K.bind K.advance fun _ => ?_
  refine K.bind (K.withNoIn _ (K.loop h.argument none)) fun first => ?_
  exact K.bind (K.expectClosing _ _) fun _ => K.pure _

theorem substitution (h : K.Nested inner inner') (u : Unit) :
    K.Rel (substitution inner u) (substitution inner' u) := by
  refine K.bind (K.discard (K.withNoIn _ h.wholeExpression)) fun _ => ?_
  refine K.bind K.current fun t => ?_
  split
  · exact K.bind K.advance fun _ => K.pure _
  · exact K.bind K.advance fun _ => K.pure _
  · exact K.failExpected _

theorem template (h : K.Nested inner inner') : K.Rel (template inner) (template inner') :=
  K.bind K.advance fun _ => K.loop h.substitution ()

theorem dottedProperty (left : Summary) (optional : Bool) :
    K.Rel (dottedProperty left optional) (dottedProperty left optional) := by
  refine K.bind K.advance fun _ => K.bind K.current fun property => K.ite _ (K.pure _) ?_
  cases property.propertyName? with
  | some key => exact K.bind K.advance fun _ => K.bind (checkProperty _ _ _) fun _ => K.pure _
  | none => exact K.failIdentifier

theorem subscript (h : K.Nested inner inner') (left : Summary) :
    K.Rel (subscript inner left) (subscript inner' left) := by
  refine K.bind K.current fun opener => K.bind K.advance fun _ => ?_
  refine K.bind (K.withNoIn _ h.wholeExpression) fun key => ?_
  refine K.bind (K.expectClosing _ _) fun _ => ?_
  split
  · refine K.bind (checkSubscript _ _) fun _ => K.bind (checkProperty _ _ _) fun _ => ?_
    exact K.pure _
  · exact K.pure _

theorem chainLink (h : K.Nested inner inner') (allowCall : Bool) (left : Summary) :
    K.Rel (chainLink inner allowCall left) (chainLink inner' allowCall left) := by
  refine K.bind K.current fun t => ?_
  split
  · exact K.bind (dottedProperty _ _) fun _ => K.pure _
  · exact K.bind (dottedProperty _ _) fun _ => K.pure _
  · exact K.bind (h.subscript left) fun _ => K.pure _
  · refine K.ite _ (K.bind h.arguments fun first => ?_) (K.pure _)
    exact K.bind (checkCall left first) fun _ => K.pure _
  · exact K.bind h.template fun _ => K.pure _
  · exact K.bind K.advance fun _ => K.pure _
  · exact K.pure _

theorem chain (h : K.Nested inner inner') (allowCall : Bool) (left : Summary) :
    K.Rel (chain inner allowCall left) (chain inner' allowCall left) :=
  K.loop (h.chainLink allowCall) left

/-! ## Array and object literals, classes -/

theorem arrayElement (h : K.Nested inner inner') (u : Unit) :
    K.Rel (arrayElement inner u) (arrayElement inner' u) := by
  refine K.bind (K.sees _) fun _ => K.ite _ (K.pure _) ?_
  refine K.bind (K.eat _) fun _ => K.ite _ (K.pure _) ?_
  refine K.bind (K.discard (K.eat _)) fun _ => K.bind (K.discard h.assignment) fun _ => ?_
  exact K.bind (K.eat _) fun _ => K.ite _ (K.pure _) (K.pure _)

theorem arrayLiteral (h : K.Nested inner inner') :
    K.Rel (arrayLiteral inner) (arrayLiteral inner') := by
  refine K.bind K.current fun opener => K.bind K.advance fun _ => ?_
  refine K.bind (K.withNoIn _ (K.loop h.arrayElement ())) fun _ => ?_
  exact K.bind (K.expectClosing _ _) fun _ => K.pure _

theorem keyModifier (u : Unit) : K.Rel (keyModifier u) (keyModifier u) := by
  refine K.bind (K.eat _) fun _ => K.ite _ (K.pure _) ?_
  refine K.bind K.current fun t => K.ite _ (K.pure _) ?_
  refine K.bind (K.peekIs ?_) fun _ => K.ite _ ?_ (K.pure _)
  · rintro t - (h | h) <;> simp [startsKey, h]
  · exact K.bind K.advance fun _ => K.pure _

theorem propertyKey (h : K.Nested inner inner') :
    K.Rel (propertyKey inner) (propertyKey inner') := by
  refine K.bind (K.loop keyModifier ()) fun _ => K.bind K.current fun t => ?_
  split
  · exact K.bind K.advance fun _ => K.pure _
  · exact K.bind K.advance fun _ => K.pure _
  · exact K.bind K.advance fun _ => K.pure _
  · exact K.bind K.advance fun _ => K.pure _
  · refine K.bind K.advance fun _ => K.bind (K.discard h.assignment) fun _ => ?_
    exact K.bind (K.expectClosing _ _) fun _ => K.pure _
  · exact K.failIdentifier

theorem propertyValue (h : K.Nested inner inner') (key : Option String) :
    K.Rel (propertyValue inner key) (propertyValue inner' key) :=
  K.bind (K.seesWord _) fun _ => K.when _ (K.step (.setHint key)) fun _ =>
    K.discard (K.clearingHint h.assignment)

theorem objectProperty (h : K.Nested inner inner') :
    K.Rel (objectProperty inner) (objectProperty inner') := by
  refine K.bind K.current fun start => K.bind h.propertyKey fun key => ?_
  refine K.read fun s _ ⟨_, hs, _⟩ => ?_
  subst hs
  refine K.bind (K.sees _) fun _ => K.ite _ (h.function _ _ _ _) ?_
  refine K.bind (K.eat _) fun _ => K.ite _ (h.propertyValue key) ?_
  dsimp only [Session.withUnseen]
  split
  · exact K.bind (K.reference _ _ _) fun _ => h.defaultValue
  · exact K.failExpected _

theorem objectElement (h : K.Nested inner inner') (u : Unit) :
    K.Rel (objectElement inner u) (objectElement inner' u) := by
  refine K.bind (K.sees _) fun _ => K.ite _ (K.pure _) ?_
  have rest (_ : Unit) : K.Rel
      (do if ← Parse.eat .comma then return Round.again () else return .done ())
      (do if ← Parse.eat .comma then return Round.again () else return .done ()) :=
    K.bind (K.eat _) fun _ => K.ite _ (K.pure _) (K.pure _)
  refine K.bind (K.eat _) fun _ => K.ite _ ?_ ?_
  · exact K.bind (K.discard h.assignment) rest
  · exact K.bind h.objectProperty rest

theorem objectLiteral (h : K.Nested inner inner') :
    K.Rel (objectLiteral inner) (objectLiteral inner') := by
  refine K.bind K.current fun opener => K.bind K.advance fun _ => ?_
  refine K.bind (K.withNoIn _ (K.loop h.objectElement ())) fun _ => ?_
  exact K.bind (K.expectClosing _ _) fun _ => K.pure _

theorem classMember (h : K.Nested inner inner') :
    K.Rel (classMember inner) (classMember inner') := by
  refine K.bind K.current fun start => K.bind h.propertyKey fun key => ?_
  refine K.bind (K.sees _) fun _ => K.ite _ (h.function _ _ _ _) ?_
  exact K.bind h.defaultValue fun _ => K.consumeSemicolon

theorem classElement (h : K.Nested inner inner') (u : Unit) :
    K.Rel (classElement inner u) (classElement inner' u) := by
  refine K.bind K.current fun t => K.ite _ (K.pure _) ?_
  refine K.bind (K.eat _) fun _ => K.ite _ (K.pure _) ?_
  have rest (_ : Unit) : K.Rel
      (do Grammar.classMember inner; return Round.again ())
      (do Grammar.classMember inner'; return Round.again ()) :=
    K.bind h.classMember fun _ => K.pure _
  refine K.bind (K.seesName _) fun _ => K.ite _ ?_ (rest ())
  refine K.bind (K.peekIs ?_) fun _ => K.when _ K.advance rest
  rintro t - (h | h) <;> simp [Token.isPunctuator, h]

theorem className (declaration : Bool) : K.Rel (className declaration) (className declaration) := by
  refine K.bind K.current fun t => ?_
  cases t.identifier? with
  | some name => exact K.bind K.advance fun _ => K.ite _ (K.declare _ _ _ _) (K.pure ())
  | none => exact K.ite _ K.failIdentifier (K.pure ())

theorem classForm (h : K.Nested inner inner') {heritage heritage' : Parse Unit}
    (hh : K.Rel heritage heritage') (declaration : Bool) :
    K.Rel (classForm inner heritage declaration) (classForm inner' heritage' declaration) := by
  refine K.bind (K.expectWord _) fun _ => K.bind (className _) fun _ => ?_
  have rest (_ : Unit) : K.Rel
      (do
        let opener ← Parse.current
        Parse.expect .leftBrace
        Parse.loop (Grammar.classElement inner) ()
        if declaration then Parse.expectStatementClosing .rightBrace opener
        else Parse.expectClosing .rightBrace opener)
      (do
        let opener ← Parse.current
        Parse.expect .leftBrace
        Parse.loop (Grammar.classElement inner') ()
        if declaration then Parse.expectStatementClosing .rightBrace opener
        else Parse.expectClosing .rightBrace opener) := by
    refine K.bind K.current fun opener => K.bind (K.expect _) fun _ => ?_
    refine K.bind (K.loop h.classElement ()) fun _ => ?_
    exact K.ite _ (K.expectStatementClosing _ _) (K.expectClosing _ _)
  refine K.bind (K.seesWord _) fun _ => K.ite _ ?_ (rest ())
  exact K.bind K.advance fun _ => K.bind hh rest

/-! ## Operands -/

theorem nameUse (name : String) (t : Token) : K.Rel (nameUse name t) (nameUse name t) := by
  refine K.bind K.advance fun _ => K.read fun s _ ⟨_, hs, _⟩ => ?_
  subst hs
  refine K.when _ (K.warn .strictViolation t rfl) fun _ => K.ite _ ?_ ?_
  · exact K.bind (K.assign _ _ _) fun _ => K.pure _
  · exact K.bind (K.reference _ _ _) fun _ => K.pure _

theorem arrowFunction (h : K.Nested inner inner') (t : Token) :
    K.Rel (arrowFunction inner t) (arrowFunction inner' t) :=
  K.bind (h.function _ _ _ _) fun _ => K.pure _

theorem functionExpression (h : K.Nested inner inner') :
    K.Rel (functionExpression inner) (functionExpression inner') := by
  refine K.bind K.current fun t => K.bind (K.expectWord _) fun _ => ?_
  refine K.bind (K.discard (K.eat _)) fun _ => K.read fun s _ ⟨_, hs, _⟩ => ?_
  subst hs
  refine K.bind (K.step (.setHint none)) fun _ => K.bind K.current fun next => ?_
  cases next.identifier? with
  | some name =>
    exact K.bind K.advance fun _ => K.bind (h.function _ _ _ _) fun _ => K.pure _
  | none => exact K.bind (h.function _ _ _ _) fun _ => K.pure _

theorem asyncForm (h : K.Nested inner inner') (t : Token) :
    K.Rel (asyncForm inner t) (asyncForm inner' t) := by
  refine K.bind (K.peekIs ?_) fun _ => K.ite _ (K.pure _) ?_
  · exact fun t ht _ => ht
  refine K.bind (K.peekIs ?_) fun _ => K.ite _ ?_ ?_
  · rintro t - (h | h) <;> simp [Token.isKeyword, h]
  · exact K.bind K.advance fun _ => K.bind h.functionExpression fun _ => K.pure _
  refine K.bind (K.peekIs ?_) fun _ => K.ite _ ?_ ?_
  · rintro t - (h | h) <;> simp [Token.identifier?, h]
  · refine K.bind (K.step .peekArrowAfterNext) fun _ => K.ite _ ?_ (K.pure _)
    exact K.bind K.advance fun _ => K.bind (h.arrowFunction t) fun _ => K.pure _
  refine K.bind (K.peekIs ?_) fun _ => K.ite _ ?_ (K.pure _)
  · rintro t - (h | h) <;> simp [Token.isPunctuator, h]
  refine K.bind K.advance fun _ => K.bind (K.step .startsArrow) fun _ => K.ite _ ?_ ?_
  · exact K.bind (h.arrowFunction t) fun _ => K.pure _
  · exact K.bind (K.reference _ _ _) fun _ => K.pure _

theorem identifierForm (h : K.Nested inner inner') (name : String) (t : Token) :
    K.Rel (identifierForm inner name t) (identifierForm inner' name t) := by
  refine K.bind (K.peekIs ?_) fun _ => K.ite _ (h.arrowFunction t) (K.ite _ ?_ (nameUse name t))
  · rintro t - (h | h) <;> simp [Token.isPunctuator, h]
  refine K.bind (h.asyncForm t) fun e => ?_
  cases e with
  | some e => exact K.pure _
  | none => exact nameUse name t

theorem checkThis (t : Token) : K.Rel (checkThis t) (checkThis t) := by
  refine K.read fun s _ ⟨_, hs, _⟩ => ?_
  subst hs
  exact K.ite _ (K.warnUnless _ _ _ _ rfl) (K.pure ())

theorem parenthesized (h : K.Nested inner inner') :
    K.Rel (parenthesized inner) (parenthesized inner') := by
  refine K.bind K.current fun opener => K.bind K.advance fun _ => ?_
  refine K.bind (K.withNoIn _ h.wholeExpression) fun e => ?_
  exact K.bind (K.expectClosing _ _) fun _ => K.pure _

theorem simpleOperand (h : K.Nested inner inner') :
    K.Rel (simpleOperand inner) (simpleOperand inner') := by
  refine K.bind K.current fun t => ?_
  have literal (e : Summary) : K.Rel (do Parse.advance; return e) (do Parse.advance; return e) :=
    K.bind K.advance fun _ => K.pure e
  split
  · exact h.identifierForm _ t
  · exact K.bind (checkThis t) fun _ => literal _
  · exact literal _
  · exact h.functionExpression
  · exact h.construction
  · exact literal _
  · exact literal _
  · exact literal _
  · exact literal _
  · exact literal _
  · exact literal _
  · exact literal _
  · exact K.bind h.template fun _ => K.pure _
  · exact literal _
  · refine K.bind (K.step .startsArrow) fun _ => ?_
    exact K.ite _ (h.arrowFunction t) h.parenthesized
  · exact h.arrayLiteral
  · exact h.objectLiteral
  · exact K.failIdentifier

theorem heritageOf (h : K.Nested inner inner') {operand operand' : Parse Summary}
    (ho : K.Rel operand operand') : K.Rel (heritageOf inner operand) (heritageOf inner' operand') :=
  K.bind ho fun base => K.discard (h.chain true base)

theorem operandForm (h : K.Nested inner inner') {operand operand' : Parse Summary}
    (ho : K.Rel operand operand') :
    K.Rel (operandForm inner operand) (operandForm inner' operand') := by
  refine K.bind K.current fun t => K.ite _ ?_ h.simpleOperand
  exact K.bind (h.classForm (h.heritageOf ho) _) fun _ => K.pure _

theorem operand (h : K.Nested inner inner') : K.Rel (operand inner) (operand inner') :=
  K.recursive fun _ _ => h.operandForm

theorem heritage (h : K.Nested inner inner') : K.Rel (heritage inner) (heritage inner') :=
  h.heritageOf h.operand

theorem checkConstructor (name : String) (newToken callee : Token) :
    K.Rel (checkConstructor name newToken callee) (checkConstructor name newToken callee) := by
  refine K.ite _ (K.warnUnless _ _ _ _ rfl) (K.ite _ (K.warn _ _ rfl) ?_)
  refine K.read fun s _ ⟨_, hs, _⟩ => ?_
  subst hs
  exact K.ite _ (K.warnIf _ _ _ _ rfl) (K.pure ())

theorem constructionForm (h : K.Nested inner inner') :
    K.Rel (Grammar.construction inner) (Grammar.construction inner') := by
  refine K.bind K.current fun newToken => K.bind K.advance fun _ => ?_
  refine K.bind (K.eat _) fun _ => K.ite _ ?_ ?_
  · exact K.bind (K.discard K.expectIdentifier) fun _ => K.pure _
  refine K.bind K.current fun calleeToken => K.when _
    (K.warnUnless .supernew .weirdNew _ _ rfl) fun _ => ?_
  refine K.bind h.operand fun base => K.bind (h.chain false base) fun callee => ?_
  have rest (_ : Unit) : K.Rel
      (do
        if ← Parse.sees .leftParen then Functor.discard (Grammar.arguments inner)
        return Summary.startingAt newToken .construction)
      (do
        if ← Parse.sees .leftParen then Functor.discard (Grammar.arguments inner')
        return Summary.startingAt newToken .construction) :=
    K.bind (K.sees _) fun _ => K.when _ (K.discard h.arguments) fun _ => K.pure _
  split
  · exact K.bind (checkConstructor _ _ _) rest
  · exact rest ()

end ScriptLint.Grammar.Congruence.Nested
