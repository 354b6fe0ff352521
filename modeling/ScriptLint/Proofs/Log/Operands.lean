import ScriptLint.Proofs.Log.Timely

/-!
# Patterns, functions and operands report in time

One lemma for each parser, in the order of the grammar. A parser reports in time if the parsers one
level deeper do, and if the lines that it is given are known.
-/

namespace ScriptLint.Input

open Parse Grammar

variable {I : Input} {known : List Nat} {inner : ScriptLint.Nested}

/-- The parsers one level deeper report in time, whatever lines are known. -/
structure Nested (I : Input) (inner : ScriptLint.Nested) : Prop where
  statement {known : List Nat} : I.Timely known inner.statement
  expression {known : List Nat} (power : Nat) : I.Timely known (inner.expression power)
  binding {known : List Nat} (kind : Scope.BindingKind) : I.Timely known (inner.binding kind)
  construction {known : List Nat} : I.Timely known inner.construction

namespace Nested

theorem wholeExpression (h : I.Nested inner) :
    I.Timely known inner.wholeExpression := h.expression 0

theorem assignment (h : I.Nested inner) : I.Timely known inner.assignment :=
  h.expression Power.assignment

theorem defaultValue (h : I.Nested inner) : I.Timely known inner.defaultValue :=
  .bind (.eat .assign) fun _ => .ite _ (.discard h.assignment) (.pure ())

/-! ## Patterns -/

theorem arrayPatternElement (h : I.Nested inner) (kind : Scope.BindingKind) (u : Unit) :
    I.Timely known (arrayPatternElement inner kind u) := by
  refine .bind (.sees _) fun _ => .ite _ (.pure _) ?_
  refine .bind (.eat _) fun _ => .ite _ (.pure _) ?_
  refine .bind (.discard (.eat _)) fun _ => .bind (h.binding kind) fun _ => ?_
  refine .bind h.defaultValue fun _ => .bind (.eat _) fun _ => ?_
  exact .ite _ (.pure _) (.pure _)

theorem arrayPattern (h : I.Nested inner) (kind : Scope.BindingKind) :
    I.Timely known (arrayPattern inner kind) := by
  refine .bind .current fun opener => .bind .advance fun _ => ?_
  exact .bind (.loop (h.arrayPatternElement kind) ()) fun _ => .expectClosing _ _

theorem patternKey (h : I.Nested inner) : I.Timely known (patternKey inner) := by
  refine .bind .current fun key => ?_
  split
  · exact .advance
  · exact .advance
  · exact .advance
  · exact .advance
  · refine .bind .advance fun _ => .bind (.discard h.assignment) fun _ => ?_
    exact .expectClosing _ _
  · exact .failIdentifier

theorem patternProperty (h : I.Nested inner) (kind : Scope.BindingKind) :
    I.Timely known (patternProperty inner kind) := by
  refine .bind .current fun key => .bind h.patternKey fun _ => ?_
  refine .bind (.eat _) fun _ => .ite _ (h.binding kind) ?_
  cases key.identifier? with
  | some name => exact .declare _ _ _
  | none => exact .failExpected _

theorem objectPatternElement (h : I.Nested inner) (kind : Scope.BindingKind) (u : Unit) :
    I.Timely known (objectPatternElement inner kind u) := by
  refine .bind (.sees _) fun _ => .ite _ (.pure _) ?_
  have rest {known : List Nat} (_ : Unit) : I.Timely known (do
      inner.defaultValue
      if ← Parse.eat .comma then return Round.again () else return .done ()) :=
    .bind h.defaultValue fun _ => .bind (.eat _) fun _ => .ite _ (.pure _) (.pure _)
  refine .bind (.eat _) fun _ => .ite _ ?_ ?_
  · exact .bind (h.binding kind) rest
  · exact .bind (h.patternProperty kind) rest

theorem objectPattern (h : I.Nested inner) (kind : Scope.BindingKind) :
    I.Timely known (objectPattern inner kind) := by
  refine .bind .current fun opener => .bind .advance fun _ => ?_
  exact .bind (.loop (h.objectPatternElement kind) ()) fun _ => .expectClosing _ _

theorem bindingTarget (h : I.Nested inner) (kind : Scope.BindingKind) :
    I.Timely known (bindingTarget inner kind) := by
  refine .bind .current fun t => ?_
  split
  · exact .bind .advance fun _ => .declare _ _ _
  · exact h.arrayPattern kind
  · exact h.objectPattern kind
  · exact .failIdentifier

/-! ## Lists of statements -/

theorem skipToken (moved : Bool) : I.Timely known (skipToken moved) := by
  refine .bind .current fun t => .ite _ (.pure _) (.ite _ ?_ (.ite _ (.pure _) ?_))
  · exact .bind .advance fun _ => .pure _
  · exact .bind .advance fun _ => .pure _

theorem resync (start : Nat) : I.Timely known (resync start) :=
  .bind .current fun _ => .discard (.loop skipToken _)

theorem checkReachable (state : ListState) :
    I.Timely known (checkReachable state) := by
  refine .bind .current fun t => ?_
  cases state.jumped with
  | some jump => exact .ite _ (.bind (.warnHere _ rfl) fun _ => .pure _) (.pure _)
  | none => exact .pure _

theorem listStatement (h : I.Nested inner) (state : ListState) :
    I.Timely known (listStatement inner state) := by
  refine .bind (checkReachable state) fun state => .bind .current fun t => ?_
  refine .bind (.recover h.statement (.bind (resync _) fun _ => .pure _)) fun flow => ?_
  cases flow with
  | normal => exact .pure _
  | jump j => exact .pure _

theorem listRound (h : I.Nested inner) (stop : ListEnd) (state : ListState) :
    I.Timely known (listRound inner stop state) := by
  refine .bind .current fun t => .ite _ (.pure _) (.ite _ ?_ ?_)
  · exact .bind (.warnHere _ rfl) fun _ => .bind .advance fun _ => .pure _
  · exact .bind (h.listStatement state) fun _ => .pure _

theorem statementList (h : I.Nested inner) (stop : ListEnd) :
    I.Timely known (statementList inner stop) :=
  .bind (.loop (h.listRound stop) _) fun _ => .pure _

/-! ## Functions -/

theorem enterStrict : I.Timely known enterStrict := by
  refine .read fun s => .ite _ (.warnHere _ rfl) (.bind .makeStrict fun _ => ?_)
  exact .ite _ (.warnHere _ rfl) (.pure ())

theorem prologueStatement (t : Token) : I.Timely known (prologueStatement t) := by
  refine .bind (.count _) fun _ => .when _ enterStrict fun _ => ?_
  exact .bind .advance fun _ => .consumeSemicolon

theorem prologueRound (u : Unit) : I.Timely known (prologueRound u) := by
  refine .bind .current fun t => .ite _ (.pure _) ?_
  refine .peekThen 0 fun next => .ite _ (.pure _) ?_
  exact .bind (prologueStatement t) fun _ => .pure _

theorem prologue : I.Timely known prologue := .loop prologueRound ()

theorem parameter (h : I.Nested inner) (count : Nat) :
    I.Timely known (parameter inner count) := by
  refine .bind (.sees _) fun _ => .ite _ (.pure _) ?_
  refine .bind (.discard (.eat _)) fun _ => .bind (h.binding _) fun _ => ?_
  refine .bind h.defaultValue fun _ => .bind (.eat _) fun _ => ?_
  exact .ite _ (.pure _) (.pure _)

theorem parameterList (h : I.Nested inner) :
    I.Timely known (parameterList inner) := by
  refine .bind .current fun opener => .bind (.expect _) fun _ => ?_
  refine .bind (.loop h.parameter 0) fun count => ?_
  exact .bind (.expectClosing _ _) fun _ => .pure _

theorem parameters (h : I.Nested inner) (kind : FunctionKind) :
    I.Timely known (parameters inner kind) := by
  refine .bind (.sees _) fun _ => .ite _ ?_ h.parameterList
  exact .bind .expectIdentifier fun _ => .bind (.declare _ _ _) fun _ => .pure _

theorem functionBody (h : I.Nested inner) (kind : FunctionKind) :
    I.Timely known (functionBody inner kind) := by
  refine .bind prologue fun _ => .read fun s => ?_
  exact .when _ (.warnHere _ rfl) fun _ => .discard (h.statementList _)

theorem bracedBody (h : I.Nested inner) (kind : FunctionKind) :
    I.Timely known (bracedBody inner kind) := by
  refine .bind (.sees _) fun brace => ?_
  cases brace with
  | false => exact .failExpected _
  | true =>
    refine .bind .openOverlay fun _ => .bind .advance fun _ => ?_
    exact .withNoIn _ (h.functionBody kind)

theorem functionTail (h : I.Nested inner) (kind : FunctionKind) :
    I.Timely known (functionTail inner kind) := by
  have rest {known : List Nat} (_ : Unit) : I.Timely known (do
        if kind = .arrow && !(← Parse.sees .leftBrace) then
          Grammar.openOverlay
          Functor.discard (Parse.withNoIn false inner.assignment)
          return false
        else
          Grammar.bracedBody inner kind
          return true) := by
    refine .bind (.sees _) fun brace => ?_
    split
    · refine .bind .openOverlay fun _ => ?_
      exact .bind (.discard (.withNoIn _ h.assignment)) fun _ => .pure _
    · exact .bind (h.bracedBody kind) fun _ => .pure _
  unfold Grammar.functionTail
  split
  · exact .bind (.expect _) rest
  · exact rest ()

theorem functionParts (h : I.Nested inner) (kind : FunctionKind) (name : Option String)
    {line : Nat} (column : Nat) [Known known line] :
    I.Timely known (functionParts inner kind name line column) := by
  have rest {known : List Nat} (_ : Unit) : I.Timely known (do
        let count ← Grammar.parameters inner kind
        modifyMetrics (·.setParameters count)
        Grammar.functionTail inner kind) :=
    .bind (h.parameters kind) fun _ => .bind (.count _) fun _ =>
      h.functionTail kind
  unfold Grammar.functionParts
  split
  · exact .bind (.declare _ _ _) rest
  · exact rest ()

theorem closingBrace (kind : FunctionKind) : I.Timely known (closingBrace kind) :=
  .bind (.sees _) fun _ => .ite _ .advanceToStatement (.expect _)

theorem function (h : I.Nested inner) (kind : FunctionKind) (name : Option String)
    {line : Nat} (column : Nat) [Known known line] :
    I.Timely known (function inner kind name line column) := by
  refine .read fun s => ?_
  refine .when _ (.warnUnless _ _ _ rfl) fun _ => ?_
  refine .bind (.insideFunction kind name column ?_) fun braced => ?_
  · exact h.functionParts kind name column
  · exact .ite _ (closingBrace kind) (.pure ())

/-! ## Properties, arguments and calls -/

theorem checkProperty (object : Summary) (key : String) (place : Token)
    [Known known place.line] :
    I.Timely known (checkProperty object key place) := by
  unfold Grammar.checkProperty
  refine .when _ (.warnUnless .proto (.deprecated key) _ rfl) fun _ => ?_
  dsimp only
  split
  · exact .ite _ (.warnIf _ _ _ rfl) (.pure ())
  · exact .pure ()

theorem checkSubscript (key : String) (subscript : Summary)
    [Known known subscript.line] :
    I.Timely known (checkSubscript key subscript) :=
  .ite _ (.warnUnless _ _ _ rfl) (.pure ())

theorem checkImpliedEval (first : Option Summary)
    [Covered known first] :
    I.Timely known (checkImpliedEval first) := by
  unfold Grammar.checkImpliedEval
  split
  · split
    · exact .warnUnless _ _ _ rfl
    · exact .pure ()
  · exact .pure ()

theorem checkNamedCall (name : String) (callee : Summary) (first : Option Summary)
    [Known known callee.line]
    [Covered known first] :
    I.Timely known (checkNamedCall name callee first) := by
  refine .ite _ (.warnUnless _ _ _ rfl) (.ite _ (checkImpliedEval first) ?_)
  exact .ite _ (.warnAt _ _ rfl) (.ite _ (.warnIf _ _ _ rfl) (.pure ()))

theorem checkCall (callee : Summary) (first : Option Summary)
    [Known known callee.line]
    [Covered known first] :
    I.Timely known (checkCall callee first) := by
  unfold Grammar.checkCall
  split
  · exact checkNamedCall _ callee first
  · exact checkImpliedEval first
  · exact checkImpliedEval first
  · exact .pure ()

theorem argument (h : I.Nested inner) (first : Option Summary)
    [Covered known first] :
    I.Timely known (argument inner first) := by
  refine .bind (.sees _) fun _ => .ite _ (.pure _) ?_
  refine .bind (.discard (.eat _)) fun _ => .bind h.assignment fun value =>
    .bind (.eat _) fun _ => ?_
  exact .ite _ (.pure _) (.pure _)

theorem arguments (h : I.Nested inner) : I.Timely known (arguments inner) := by
  refine .bind .current fun opener => .bind .advance fun _ => ?_
  refine .bind (.withNoIn _ (.loop (fun first => h.argument first) none)) fun first => ?_
  exact .bind (.expectClosing _ _) fun _ => .pure _

theorem substitution (h : I.Nested inner) (u : Unit) :
    I.Timely known (substitution inner u) := by
  refine .bind (.discard (.withNoIn _ h.wholeExpression)) fun _ => ?_
  refine .bind .current fun t => ?_
  split
  · exact .bind .advance fun _ => .pure _
  · exact .bind .advance fun _ => .pure _
  · exact .failExpected _

theorem template (h : I.Nested inner) : I.Timely known (template inner) :=
  .bind .advance fun _ => .loop h.substitution ()

theorem dottedProperty (left : Summary) (optional : Bool)
    [Known known left.line] :
    I.Timely known (dottedProperty left optional) := by
  refine .bind .advance fun _ => .bind .current fun property => .ite _ (.pure _) ?_
  cases property.propertyName? with
  | some key => exact .bind .advance fun _ => .bind (checkProperty _ _ _) fun _ => .pure _
  | none => exact .failIdentifier

theorem subscript (h : I.Nested inner) (left : Summary)
    [Known known left.line] :
    I.Timely known (subscript inner left) := by
  refine .bind .current fun opener => .bind .advance fun _ => ?_
  refine .bind (.withNoIn _ h.wholeExpression) fun key => ?_
  refine .bind (.expectClosing _ _) fun _ => ?_
  split
  · refine .bind (checkSubscript _ _) fun _ => .bind (checkProperty _ _ _) fun _ => ?_
    exact .pure _
  · exact .pure _

theorem chainLink (h : I.Nested inner) (allowCall : Bool) (left : Summary)
    [Known known left.line] :
    I.Timely known (chainLink inner allowCall left) := by
  refine .bind .current fun t => ?_
  split
  · exact .bind (dottedProperty _ _) fun _ => .pure _
  · exact .bind (dottedProperty _ _) fun _ => .pure _
  · exact .bind (h.subscript left) fun _ => .pure _
  · refine .ite _ (.bind h.arguments fun first => ?_) (.pure _)
    exact .bind (checkCall left first) fun _ => .pure _
  · exact .bind h.template fun _ => .pure _
  · exact .bind .advance fun _ => .pure _
  · exact .pure _

theorem chain (h : I.Nested inner) (allowCall : Bool) (left : Summary)
    [Known known left.line] :
    I.Timely known (chain inner allowCall left) :=
  .loop (fun left => h.chainLink allowCall left) left

/-! ## Array and object literals, classes -/

theorem arrayElement (h : I.Nested inner) (u : Unit) :
    I.Timely known (arrayElement inner u) := by
  refine .bind (.sees _) fun _ => .ite _ (.pure _) ?_
  refine .bind (.eat _) fun _ => .ite _ (.pure _) ?_
  refine .bind (.discard (.eat _)) fun _ => .bind (.discard h.assignment) fun _ => ?_
  exact .bind (.eat _) fun _ => .ite _ (.pure _) (.pure _)

theorem arrayLiteral (h : I.Nested inner) :
    I.Timely known (arrayLiteral inner) := by
  refine .bind .current fun opener => .bind .advance fun _ => ?_
  refine .bind (.withNoIn _ (.loop h.arrayElement ())) fun _ => ?_
  exact .bind (.expectClosing _ _) fun _ => .pure _

theorem keyModifier (u : Unit) : I.Timely known (keyModifier u) := by
  refine .bind (.eat _) fun _ => .ite _ (.pure _) ?_
  refine .bind .current fun t => .ite _ (.pure _) ?_
  refine .bind (.peekIs _) fun _ => .ite _ ?_ (.pure _)
  · exact .bind .advance fun _ => .pure _

theorem propertyKey (h : I.Nested inner) :
    I.Timely known (propertyKey inner) := by
  refine .bind (.loop keyModifier ()) fun _ => .bind .current fun t => ?_
  split
  · exact .bind .advance fun _ => .pure _
  · exact .bind .advance fun _ => .pure _
  · exact .bind .advance fun _ => .pure _
  · exact .bind .advance fun _ => .pure _
  · refine .bind .advance fun _ => .bind (.discard h.assignment) fun _ => ?_
    exact .bind (.expectClosing _ _) fun _ => .pure _
  · exact .failIdentifier

theorem propertyValue (h : I.Nested inner) (key : Option String) :
    I.Timely known (propertyValue inner key) :=
  .bind (.seesWord _) fun _ => .when _ (.setHint key) fun _ =>
    .discard (.clearingHint h.assignment)

theorem objectProperty (h : I.Nested inner) :
    I.Timely known (objectProperty inner) := by
  refine .bind .current fun start => .bind h.propertyKey fun key => ?_
  refine .read fun s => ?_
  refine .bind (.sees _) fun _ => .ite _ (h.function _ _ _) ?_
  refine .bind (.eat _) fun _ => .ite _ (h.propertyValue key) ?_
  split
  · exact .bind (.reference _ _) fun _ => h.defaultValue
  · exact .failExpected _

theorem objectElement (h : I.Nested inner) (u : Unit) :
    I.Timely known (objectElement inner u) := by
  refine .bind (.sees _) fun _ => .ite _ (.pure _) ?_
  have rest {known : List Nat} (_ : Unit) : I.Timely known (do
      if ← Parse.eat .comma then return Round.again () else return .done ()) :=
    .bind (.eat _) fun _ => .ite _ (.pure _) (.pure _)
  refine .bind (.eat _) fun _ => .ite _ ?_ ?_
  · exact .bind (.discard h.assignment) rest
  · exact .bind h.objectProperty rest

theorem objectLiteral (h : I.Nested inner) :
    I.Timely known (objectLiteral inner) := by
  refine .bind .current fun opener => .bind .advance fun _ => ?_
  refine .bind (.withNoIn _ (.loop h.objectElement ())) fun _ => ?_
  exact .bind (.expectClosing _ _) fun _ => .pure _

theorem classMember (h : I.Nested inner) :
    I.Timely known (classMember inner) := by
  refine .bind .current fun start => .bind h.propertyKey fun key => ?_
  refine .bind (.sees _) fun _ => .ite _ (h.function _ _ _) ?_
  exact .bind h.defaultValue fun _ => .consumeSemicolon

theorem classElement (h : I.Nested inner) (u : Unit) :
    I.Timely known (classElement inner u) := by
  refine .bind .current fun t => .ite _ (.pure _) ?_
  refine .bind (.eat _) fun _ => .ite _ (.pure _) ?_
  have rest {known : List Nat} (_ : Unit) :
      I.Timely known (do Grammar.classMember inner; return Round.again ()) :=
    .bind h.classMember fun _ => .pure _
  refine .bind (.seesName _) fun _ => .ite _ ?_ (rest ())
  exact .bind (.peekIs _) fun _ => .when _ .advance rest

theorem className (declaration : Bool) : I.Timely known (className declaration) := by
  refine .bind .current fun t => ?_
  cases t.identifier? with
  | some name => exact .bind .advance fun _ => .ite _ (.declare _ _ _) (.pure ())
  | none => exact .ite _ .failIdentifier (.pure ())

theorem classForm (h : I.Nested inner) {heritage : Parse Unit}
    (hh : ∀ known, I.Timely known heritage) (declaration : Bool) :
    I.Timely known (classForm inner heritage declaration) := by
  refine .bind (.expectWord _) fun _ => .bind (className _) fun _ => ?_
  have rest {known : List Nat} (_ : Unit) : I.Timely known (do
        let opener ← Parse.current
        Parse.expect .leftBrace
        Parse.loop (Grammar.classElement inner) ()
        if declaration then Parse.expectStatementClosing .rightBrace opener
        else Parse.expectClosing .rightBrace opener) := by
    refine .bind .current fun opener => .bind (.expect _) fun _ => ?_
    refine .bind (.loop h.classElement ()) fun _ => ?_
    exact .ite _ (.expectStatementClosing _ _) (.expectClosing _ _)
  refine .bind (.seesWord _) fun _ => .ite _ ?_ (rest ())
  exact .bind .advance fun _ => .bind (hh _) rest

/-! ## Operands -/

theorem nameUse (name : String) (t : Token) [Known known t.line] :
    I.Timely known (nameUse name t) := by
  refine .bind .advance fun _ => .read fun s => ?_
  refine .when _ (.warn .strictViolation t rfl) fun _ => .ite _ ?_ ?_
  · exact .bind (.assign _ _) fun _ => .pure _
  · exact .bind (.reference _ _) fun _ => .pure _

theorem arrowFunction (h : I.Nested inner) (t : Token) [Known known t.line] :
    I.Timely known (arrowFunction inner t) :=
  .bind (h.function _ _ _) fun _ => .pure _

theorem functionExpression (h : I.Nested inner) :
    I.Timely known (functionExpression inner) := by
  refine .bind .current fun t => .bind (.expectWord _) fun _ => ?_
  refine .bind (.discard (.eat _)) fun _ => .read fun s => ?_
  refine .bind (.setHint none) fun _ => .bind .current fun next => ?_
  cases next.identifier? with
  | some name =>
    exact .bind .advance fun _ => .bind (h.function _ _ _) fun _ => .pure _
  | none => exact .bind (h.function _ _ _) fun _ => .pure _

theorem asyncForm (h : I.Nested inner) (t : Token) [Known known t.line] :
    I.Timely known (asyncForm inner t) := by
  refine .bind (.peekIs _) fun _ => .ite _ (.pure _) ?_
  refine .bind (.peekIs _) fun _ => .ite _ ?_ ?_
  · exact .bind .advance fun _ => .bind h.functionExpression fun _ => .pure _
  refine .bind (.peekIs _) fun _ => .ite _ ?_ ?_
  · refine .bind .peekArrowAfterNext fun _ => .ite _ ?_ (.pure _)
    exact .bind .advance fun _ => .bind (h.arrowFunction t) fun _ => .pure _
  refine .bind (.peekIs _) fun _ => .ite _ ?_ (.pure _)
  refine .bind .advance fun _ => .bind .startsArrow fun _ => .ite _ ?_ ?_
  · exact .bind (h.arrowFunction t) fun _ => .pure _
  · exact .bind (.reference _ _) fun _ => .pure _

theorem identifierForm (h : I.Nested inner) (name : String) (t : Token)
    [Known known t.line] :
    I.Timely known (identifierForm inner name t) := by
  refine .bind (.peekIs _) fun _ => .ite _ (h.arrowFunction t) (.ite _ ?_ (nameUse name t))
  refine .bind (h.asyncForm t) fun e => ?_
  cases e with
  | some e => exact .pure _
  | none => exact nameUse name t

theorem checkThis (t : Token) [Known known t.line] :
    I.Timely known (checkThis t) := by
  refine .read fun s => ?_
  exact .ite _ (.warnUnless _ _ _ rfl) (.pure ())

theorem parenthesized (h : I.Nested inner) :
    I.Timely known (parenthesized inner) := by
  refine .bind .current fun opener => .bind .advance fun _ => ?_
  refine .bind (.withNoIn _ h.wholeExpression) fun e => ?_
  exact .bind (.expectClosing _ _) fun _ => .pure _

theorem simpleOperand (h : I.Nested inner) :
    I.Timely known (simpleOperand inner) := by
  refine .bind .current fun t => ?_
  have literal {known : List Nat} (e : Summary) [Known known e.line] :
      I.Timely known (do Parse.advance; return e) :=
    .bind .advance fun _ => .pure e
  split
  · exact h.identifierForm _ t
  · exact .bind (checkThis t) fun _ => literal _
  · exact literal _
  · exact h.functionExpression
  · exact h.construction
  · exact literal _
  · exact literal _
  · exact literal _
  · exact literal _
  · exact literal _
  · exact literal _
  · exact literal _
  · exact .bind h.template fun _ => .pure _
  · exact literal _
  · refine .bind .startsArrow fun _ => ?_
    exact .ite _ (h.arrowFunction t) h.parenthesized
  · exact h.arrayLiteral
  · exact h.objectLiteral
  · exact .failIdentifier

theorem heritageOf (h : I.Nested inner) {operand : Parse Summary}
    (ho : ∀ known, I.Timely known operand) : I.Timely known (heritageOf inner operand) :=
  .bind (ho _) fun base => .discard (h.chain true base)

theorem operandForm (h : I.Nested inner) {operand : Parse Summary}
    (ho : ∀ known, I.Timely known operand) :
    I.Timely known (operandForm inner operand) := by
  refine .bind .current fun t => .ite _ ?_ h.simpleOperand
  exact .bind (h.classForm (fun _ => h.heritageOf ho) _) fun _ => .pure _

theorem operand (h : I.Nested inner) : I.Timely known (operand inner) :=
  .recursive fun _ hp _ => h.operandForm hp

theorem heritage (h : I.Nested inner) : I.Timely known (heritage inner) :=
  h.heritageOf fun _ => h.operand

theorem checkConstructor (name : String) (newToken callee : Token)
    [Known known newToken.line] [Known known callee.line] :
    I.Timely known (checkConstructor name newToken callee) := by
  refine .ite _ (.warnUnless _ _ _ rfl) (.ite _ (.warn _ _ rfl) ?_)
  refine .read fun s => ?_
  exact .ite _ (.warnIf _ _ _ rfl) (.pure ())

theorem constructionForm (h : I.Nested inner) :
    I.Timely known (Grammar.construction inner) := by
  refine .bind .current fun newToken => .bind .advance fun _ => ?_
  refine .bind (.eat _) fun _ => .ite _ ?_ ?_
  · exact .bind (.discard .expectIdentifier) fun _ => .pure _
  refine .bind .current fun calleeToken => .when _ (.warnUnless .supernew .weirdNew _ rfl) fun _ =>
    ?_
  refine .bind h.operand fun base => .bind (h.chain false base) fun callee => ?_
  have rest {known : List Nat} (_ : Unit) [Known known newToken.line] : I.Timely known (do
        if ← Parse.sees .leftParen then Functor.discard (Grammar.arguments inner)
        return Summary.startingAt newToken .construction) :=
    .bind (.sees _) fun _ => .when _ (.discard h.arguments) fun _ => .pure _
  split
  · exact .bind (checkConstructor _ _ _) fun u => rest u
  · exact rest ()

end Nested

end ScriptLint.Input
