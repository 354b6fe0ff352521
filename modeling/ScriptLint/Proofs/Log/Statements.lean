import ScriptLint.Proofs.Log.Operands

/-!
# Expressions and statements report in time

The second half of the grammar, up to `Input.nested_levels`: the parsers of every level report in
time.
-/

namespace ScriptLint.Input

open Parse Grammar

variable {I : Input} {known : List Nat} {inner : ScriptLint.Nested}

namespace Nested

/-! ## Operators before an operand -/

theorem checkBitwise (op : Punctuator) (t : Token) [Known known t.line] :
    I.Timely known (checkBitwise op t) :=
  .ite _ (.warnIf _ _ _ rfl) (.pure ())

theorem checkUpdate (target : Summary) (op : Punctuator) (t : Token)
    [Known known t.line] :
    I.Timely known (checkUpdate target op t) :=
  .ite _ (.warnIf _ _ _ rfl) (.failAt _ _ rfl)

theorem checkComparison (left right : Summary) (op : Punctuator) (t : Token)
    [Known known t.line] : I.Timely known (checkComparison left right op t) := by
  refine .read fun s => ?_
  cases hFound : comparisonFinding? s.layers left.form right.form op with
  | none => exact .pure ()
  | some f =>
    exact .warn f t
      (Finding.isOrdinary_of_isLocal (Congruence.Nested.isLocal_of_comparisonFinding hFound))

theorem typeofOperand (h : I.Nested inner) :
    I.Timely known (typeofOperand inner) := by
  refine .bind .current fun t => ?_
  cases t.identifier? with
  | none => exact .discard (h.expression _)
  | some name =>
    refine .bind (.peekIs _) fun _ => .ite _ (.discard (h.expression _)) ?_
    exact .bind .advance fun _ => .referenceGuarded _ _

theorem signed (h : I.Nested inner) (t : Token)
    [Known known t.line] : I.Timely known (signed inner t) :=
  .bind .advance fun _ => .bind (h.expression _) fun _ => .pure _

theorem updated (h : I.Nested inner) (op : Punctuator) (t : Token)
    [Known known t.line] :
    I.Timely known (updated inner op t) := by
  refine .bind .advance fun _ => .bind (h.expression _) fun e => ?_
  exact .bind (checkUpdate e op t) fun _ => .pure _

theorem deletion (h : I.Nested inner) (t : Token)
    [Known known t.line] :
    I.Timely known (deletion inner t) := by
  refine .bind .advance fun _ => .bind (h.expression _) fun e => ?_
  dsimp only
  split
  · exact .bind (.warnAt _ _ rfl) fun _ => .pure _
  · exact .pure _

theorem awaiting (h : I.Nested inner) (power : Nat) (t : Token)
    [Known known t.line] :
    I.Timely known (awaiting inner power t) := by
  refine .bind (.peekIs _) fun _ => .bind .advance fun _ => .ite _ ?_ (.pure _)
  · refine .bind (.discard (.eat _)) fun _ => .bind (.discard (h.expression _)) fun _ => ?_
    exact .pure _

theorem unary (h : I.Nested inner) : I.Timely known (unary inner) := by
  refine .bind .current fun t => ?_
  split
  · exact h.signed t
  · exact h.signed t
  · exact h.signed t
  · exact h.signed t
  · exact .bind (checkBitwise _ t) fun _ => h.signed t
  · exact h.updated _ t
  · exact h.updated _ t
  · exact .bind .advance fun _ => .bind h.typeofOperand fun _ => .pure _
  · exact h.deletion t
  · exact h.awaiting _ t
  · exact h.awaiting _ t
  · exact .bind h.operand fun base => h.chain true base

/-! ## Operators after an operand -/

theorem conditionalRest (h : I.Nested inner) :
    I.Timely known (conditionalRest inner) := by
  refine .bind .advance fun _ => .bind (.count _) fun _ => ?_
  refine .bind (.discard (.withNoIn _ h.assignment)) fun _ => .bind (.expect _) fun _ => ?_
  exact .discard h.assignment

theorem assignmentRest (h : I.Nested inner) (left : Summary) (op : Punctuator) (t : Token)
    [Known known t.line] :
    I.Timely known (assignmentRest inner left op t) := by
  unfold Grammar.assignmentRest
  refine .when _ (.failAt .badAssignment t rfl) fun _ => ?_
  refine .bind (checkBitwise op t) fun _ => .bind .advance fun _ => ?_
  refine .bind (.seesWord _) fun _ => .when _ (.setHint _) fun _ => ?_
  exact .discard (.clearingHint h.assignment)

theorem sum (left right : Summary) [Known known left.line] :
    I.Timely known (sum left right) := by
  unfold Grammar.sum
  split
  · exact .when _ (.warnUnless _ _ _ rfl) fun _ => .pure _
  · exact .pure _

theorem rightOperand (h : I.Nested inner) (power : Nat) :
    I.Timely known (rightOperand inner power) :=
  .bind .advance fun _ => h.expression power

theorem operatorStep (h : I.Nested inner) (left : Summary) (op : Punctuator) (power : Nat)
    (t : Token) [Known known left.line]
    [Known known t.line] :
    I.Timely known (operatorStep inner left op power t) := by
  have compare : I.Timely known (do
        let right ← Grammar.rightOperand inner power
        Grammar.checkComparison left right op t
        return left.within (.binary op)) :=
    .bind (h.rightOperand power) fun right => .bind (checkComparison left right op t) fun _ =>
      .pure _
  have update : I.Timely known
      (do Grammar.checkUpdate left op t; Parse.advance; return left.within .update) :=
    .bind (checkUpdate left op t) fun _ => .bind .advance fun _ => .pure _
  have decision : I.Timely known (do
        Parse.advance
        modifyMetrics Metrics.addBranch
        Functor.discard (inner.expression power)
        return left.within .logical) :=
    .bind .advance fun _ => .bind (.count _) fun _ =>
      .bind (.discard (h.expression power)) fun _ => .pure _
  unfold Grammar.operatorStep
  split
  · exact .bind (h.rightOperand power) fun _ => .pure _
  · exact .bind h.conditionalRest fun _ => .pure _
  · exact update
  · exact update
  · exact decision
  · exact decision
  · exact .bind (.discard (h.rightOperand power)) fun _ => .pure _
  · exact compare
  · exact compare
  · exact compare
  · exact compare
  · exact compare
  · exact compare
  · exact compare
  · exact compare
  · exact .bind (h.rightOperand power) fun right => sum left right
  · refine .ite _ (.bind (h.assignmentRest left op t) fun _ => .pure _) ?_
    refine .bind (checkBitwise op t) fun _ => ?_
    exact .bind (.discard (h.rightOperand power)) fun _ => .pure _

theorem operatorRound (h : I.Nested inner) (least : Nat) (left : Summary)
    [Known known left.line] :
    I.Timely known (operatorRound inner least left) := by
  refine .read fun s => ?_
  cases Power.ofToken? s.token s.noIn with
  | none => exact .pure _
  | some powers =>
    refine .ite _ (.pure _) ?_
    split
    · refine .ite _ (.pure _) ?_
      exact .bind (h.operatorStep _ _ _ _) fun _ => .pure _
    · exact .bind (.discard (h.rightOperand _)) fun _ => .pure _

theorem operators (h : I.Nested inner) (least : Nat) :
    I.Timely known (operators inner least) :=
  .bind h.unary fun left => .loop (fun left => h.operatorRound least left) left

/-! ## Blocks, bodies and conditions -/

theorem block (h : I.Nested inner) : I.Timely known (block inner) := by
  refine .bind .current fun opener => .bind .advance fun _ => ?_
  refine .bind (.insideBlock (h.statementList _)) fun count => ?_
  refine .bind .flushScopes fun _ => .when _ (.warnIf _ _ _ rfl) fun _ => ?_
  exact .expectStatementClosing _ _

theorem expectBlock (h : I.Nested inner) : I.Timely known (expectBlock inner) :=
  .bind (.sees _) fun _ => .ite _ h.block (.failExpected _)

theorem body (h : I.Nested inner) : I.Timely known (body inner) := by
  refine .bind .current fun t => .ite _ h.block ?_
  exact .bind (.warnIf _ _ _ rfl) fun _ => .discard h.statement

theorem loopBody (h : I.Nested inner) : I.Timely known (loopBody inner) :=
  .insideLoop h.body

theorem checkCondition (e : Summary) [Known known e.line] :
    I.Timely known (checkCondition e) :=
  .ite _ (.warnUnless _ _ _ rfl) (.pure ())

theorem condition (h : I.Nested inner) : I.Timely known (condition inner) := by
  refine .bind .current fun opener => .bind (.expect _) fun _ => ?_
  refine .bind h.wholeExpression fun e => .bind (checkCondition e) fun _ => ?_
  exact .expectStatementClosing _ _

/-! ## Declarations -/

theorem initialValue (h : I.Nested inner) (kind : Scope.BindingKind) (target : Token)
    [Known known target.line] :
    I.Timely known (initialValue inner kind target) := by
  refine .bind .advance fun _ => .bind (.seesWord _) fun _ => ?_
  refine .when _ (.setHint _) fun _ => ?_
  refine .bind (.clearingHint h.assignment) fun value => ?_
  cases target.identifier? with
  | some name => exact .ite _ (.warn _ _ rfl) (.pure ())
  | none => exact .pure ()

theorem declaration (h : I.Nested inner) (kind : Scope.BindingKind) (u : Unit) :
    I.Timely known (declaration inner kind u) := by
  refine .bind .current fun target => .bind (h.binding kind) fun _ => ?_
  refine .bind (.sees _) fun _ => .when _ (h.initialValue kind target) fun _ => ?_
  exact .bind (.eat _) fun _ => .ite _ (.pure _) (.pure _)

theorem declarations (h : I.Nested inner) (kind : Scope.BindingKind) :
    I.Timely known (declarations inner kind) :=
  .bind .advance fun _ => .loop (h.declaration kind) ()

theorem variableStatement (h : I.Nested inner) (kind : Scope.BindingKind) :
    I.Timely known (variableStatement inner kind) :=
  .bind (h.declarations kind) fun _ => .consumeSemicolon

theorem functionDeclaration (h : I.Nested inner) :
    I.Timely known (functionDeclaration inner) := by
  refine .bind .current fun t => .bind (.expectWord _) fun _ => ?_
  refine .bind (.discard (.eat _)) fun _ => .bind .expectIdentifier fun place => ?_
  exact .bind (.declare _ _ _) fun _ => h.function _ _ _

/-! ## Loops -/

theorem whileStatement (h : I.Nested inner) :
    I.Timely known (whileStatement inner) :=
  .bind .advance fun _ => .bind (.count _) fun _ => .bind h.condition fun _ => h.loopBody

theorem doStatement (h : I.Nested inner) : I.Timely known (doStatement inner) := by
  refine .bind .advance fun _ => .bind (.count _) fun _ => .bind h.loopBody fun _ => ?_
  exact .bind (.expectWord _) fun _ => .bind h.condition fun _ => .finishStatement _

theorem forStart (h : I.Nested inner) : I.Timely known (forStart inner) := by
  refine .bind .current fun t => ?_
  cases declaredKind? t with
  | some kind => exact h.declarations kind
  | none => exact .ite _ (.discard h.wholeExpression) (.pure ())

theorem checkFiltered (t : Token) [Known known t.line] :
    I.Timely known (checkFiltered t) := by
  have hStarts {known : List Nat} : I.Timely known bodyStartsWithIf :=
    .read fun _ => .ite _ (.pure _) (.ite _ (.peekIs _) (.pure _))
  refine .read fun _ => .ite _ (.bind hStarts fun _ => ?_) (.pure ())
  exact .ite _ (.warnAt _ _ rfl) (.pure ())

theorem forEachRest (h : I.Nested inner) (t opener : Token)
    [Known known t.line] [Known known opener.line] :
    I.Timely known (forEachRest inner t opener) := by
  refine .bind (.seesWord _) fun _ => .bind .advance fun _ => ?_
  refine .bind (.discard h.wholeExpression) fun _ => ?_
  refine .bind (.expectStatementClosing _ _) fun _ => ?_
  exact .when _ (checkFiltered t) fun _ => h.loopBody

theorem forConditionRest (h : I.Nested inner) (opener : Token)
    [Known known opener.line] :
    I.Timely known (forConditionRest inner opener) := by
  have last {known : List Nat} (_ : Unit) [Known known opener.line] :
      I.Timely known (do Parse.expectStatementClosing .rightParen opener; Grammar.loopBody inner) :=
    .bind (.expectStatementClosing _ _) fun _ => h.loopBody
  have rest {known : List Nat} (_ : Unit) [Known known opener.line] :
      I.Timely known (do
        Parse.expect .semicolon
        if !(← Parse.sees .rightParen) then Functor.discard inner.wholeExpression
        Parse.expectStatementClosing .rightParen opener
        Grammar.loopBody inner) := by
    refine .bind (.expect _) fun _ => .bind (.sees _) fun _ => ?_
    exact .when _ (.discard h.wholeExpression) fun u => last u
  refine .bind (.expect _) fun _ => .bind (.sees _) fun _ => .ite _ ?_ (rest ())
  exact .bind h.wholeExpression fun e => .bind (checkCondition e) fun u => rest u

theorem forRest (h : I.Nested inner) (t opener : Token)
    [Known known t.line] [Known known opener.line] :
    I.Timely known (forRest inner t opener) := by
  refine .bind (.withNoIn _ h.forStart) fun _ => .bind .current fun next => ?_
  exact .ite _ (h.forEachRest t opener) (h.forConditionRest opener)

theorem forStatement (h : I.Nested inner) :
    I.Timely known (forStatement inner) := by
  refine .bind .current fun t => .bind .advance fun _ => .bind (.count _) fun _ => ?_
  refine .bind .current fun opener => .bind (.expect _) fun _ => .bind .current fun _ => ?_
  refine .ite _ ?_ ?_
  · exact .bind (.withFrame _ (h.forRest t opener)) fun _ => .flushScopes
  · exact .bind (h.forRest t opener) fun _ => .flushScopes

/-! ## Statements -/

theorem checkExpressionStatement (e : Summary)
    [Known known e.line] :
    I.Timely known (checkExpressionStatement e) := by
  unfold Grammar.checkExpressionStatement
  split
  · exact .warnIf _ _ _ rfl
  · exact .ite _ (.warnUnless _ _ _ rfl) (.pure ())

theorem expressionStatement (h : I.Nested inner) :
    I.Timely known (expressionStatement inner) := by
  refine .bind h.wholeExpression fun e => ?_
  exact .bind (checkExpressionStatement e) fun _ => .consumeSemicolon

theorem ifRound (h : I.Nested inner) (u : Unit) :
    I.Timely known (ifRound inner u) := by
  refine .bind .advance fun _ => .bind (.count _) fun _ => .bind h.condition fun _ => ?_
  refine .bind h.body fun _ => .bind (.seesWord _) fun _ => .ite _ (.pure _) ?_
  refine .bind .advance fun _ => .bind (.seesWord _) fun _ => .ite _ ?_ ?_
  · exact .bind (.count _) fun _ => .pure _
  · exact .bind h.body fun _ => .pure _

theorem caseBody (h : I.Nested inner) : I.Timely known (caseBody inner) :=
  .bind (.expect _) fun _ => .discard (h.statementList _)

theorem switchRound (h : I.Nested inner) (u : Unit) :
    I.Timely known (switchRound inner u) := by
  refine .bind (.seesWord _) fun _ => .ite _ ?_ ?_
  · refine .bind .advance fun _ => .bind (.count _) fun _ => ?_
    exact .bind (.discard h.wholeExpression) fun _ => .bind h.caseBody fun _ => .pure _
  · refine .bind (.seesWord _) fun _ => .ite _ ?_ (.pure _)
    exact .bind .advance fun _ => .bind h.caseBody fun _ => .pure _

theorem switchStatement (h : I.Nested inner) :
    I.Timely known (switchStatement inner) := by
  refine .bind .advance fun _ => .bind .current fun _ => .bind (.expect _) fun _ => ?_
  refine .bind (.discard h.wholeExpression) fun _ => .bind (.expectClosing _ _) fun _ => ?_
  refine .bind .current fun opener => .bind (.expect _) fun _ => ?_
  exact .bind (.loop h.switchRound ()) fun _ => .expectStatementClosing _ _

theorem catchClause (h : I.Nested inner) : I.Timely known (catchClause inner) := by
  refine .bind .current fun opener => .ite _ ?_ h.expectBlock
  refine .bind .advance fun _ => .bind (h.binding _) fun _ => ?_
  exact .bind (.expectClosing _ _) fun _ => h.expectBlock

theorem catchPart (h : I.Nested inner) : I.Timely known (catchPart inner) := by
  refine .bind (.seesWord _) fun _ => .ite _ ?_ (.pure _)
  refine .bind .advance fun _ => .bind (.withFrame _ h.catchClause) fun _ => ?_
  exact .bind .flushScopes fun _ => .pure _

theorem finallyPart (h : I.Nested inner) : I.Timely known (finallyPart inner) := by
  refine .bind (.seesWord _) fun _ => .ite _ ?_ (.pure _)
  exact .bind .advance fun _ => .bind h.expectBlock fun _ => .pure _

theorem tryStatement (h : I.Nested inner) :
    I.Timely known (tryStatement inner) := by
  refine .bind .advance fun _ => .bind h.expectBlock fun _ => .bind h.catchPart fun _ => ?_
  exact .bind h.finallyPart fun _ => .ite _ (.failExpected _) (.pure ())

theorem returnStatement (h : I.Nested inner) :
    I.Timely known (returnStatement inner) := by
  refine .bind .advance fun _ => .bind .current fun t => .ite _ ?_ .consumeSemicolon
  refine .bind h.wholeExpression fun value => ?_
  exact .when _ (.warnUnless _ _ _ rfl) fun _ => .consumeSemicolon

theorem throwStatement (h : I.Nested inner) :
    I.Timely known (throwStatement inner) :=
  .bind .advance fun _ => .bind (.discard h.wholeExpression) fun _ => .consumeSemicolon

theorem jumpLabel : I.Timely known jumpLabel := by
  refine .read fun s => ?_
  refine .ite _ ?_ (.pure ())
  cases s.token.identifier? with
  | some label => exact .when _ (.warnHere _ rfl) fun _ => .advance
  | none => exact .pure ()

theorem jumpStatement : I.Timely known jumpStatement :=
  .bind .advance fun _ => .bind jumpLabel fun _ => .consumeSemicolon

theorem labeledStatement (h : I.Nested inner) :
    I.Timely known (labeledStatement inner) := by
  refine .bind .expectIdentifier fun label => .bind (.expect _) fun _ => ?_
  refine .bind (.withFrame _ ?_) fun _ => .flushScopes
  exact .bind (.addLabel _) fun _ => .discard h.statement

theorem withStatement (h : I.Nested inner) :
    I.Timely known (withStatement inner) := by
  refine .bind .current fun t => .bind (.warnUnless _ _ _ rfl) fun _ => ?_
  refine .bind .advance fun _ => .bind .current fun opener => .bind (.expect _) fun _ => ?_
  refine .bind (.discard h.wholeExpression) fun _ => ?_
  exact .bind (.expectStatementClosing _ _) fun _ => h.body

theorem debuggerStatement : I.Timely known debuggerStatement := by
  refine .bind .current fun t => .bind (.warnUnless _ _ _ rfl) fun _ => ?_
  exact .bind .advance fun _ => .consumeSemicolon

theorem emptyStatement : I.Timely known emptyStatement :=
  .bind (.warnHere _ rfl) fun _ => .advance

theorem identifierStatement (h : I.Nested inner) (name : String) :
    I.Timely known (identifierStatement inner name) := by
  refine .ite _ ?_ h.expressionStatement
  refine .bind (.peekIs _) fun _ => .ite _ ?_ h.expressionStatement
  exact .bind .advance fun _ => h.functionDeclaration

theorem plainStatement (h : I.Nested inner) (t : Token) :
    I.Timely known (plainStatement inner t) := by
  unfold Grammar.plainStatement
  split
  · exact h.block
  · exact emptyStatement
  · exact h.identifierStatement _
  · exact h.variableStatement _
  · exact h.variableStatement _
  · exact h.variableStatement _
  · exact h.functionDeclaration
  · exact h.classForm (fun _ => h.heritage) true
  · exact .loop h.ifRound ()
  · exact h.forStatement
  · exact h.whileStatement
  · exact h.doStatement
  · exact h.switchStatement
  · exact h.tryStatement
  · exact h.withStatement
  · exact debuggerStatement
  · exact h.expressionStatement

theorem unlabeledStatement (h : I.Nested inner) (t : Token) :
    I.Timely known (unlabeledStatement inner t) := by
  refine .bind (.count _) fun _ => ?_
  split
  · exact .bind h.returnStatement fun _ => .pure _
  · exact .bind h.throwStatement fun _ => .pure _
  · exact .bind jumpStatement fun _ => .pure _
  · exact .bind jumpStatement fun _ => .pure _
  · exact .bind (h.plainStatement t) fun _ => .pure _

theorem statementForm (h : I.Nested inner) :
    I.Timely known (Grammar.statement inner) := by
  refine .bind .current fun t => .ite _ ?_ (h.unlabeledStatement t)
  refine .bind (.peekIs _) fun _ => .ite _ ?_ (h.unlabeledStatement t)
  · exact .bind h.labeledStatement fun _ => .pure _

/-! ## Levels -/

theorem forms (h : I.Nested inner) : I.Nested (forms inner) where
  statement := h.statementForm
  expression := h.operators
  binding := h.bindingTarget
  construction := h.constructionForm

end Nested

/-- By induction on the levels. -/
theorem nested_levels (n : Nat) : I.Nested (levels n) := by
  induction n with
  | zero => exact ⟨.tooDeep, fun _ => .tooDeep, fun _ => .tooDeep, .tooDeep⟩
  | succ n ih =>
    have hForms := ih.forms
    exact {
      statement := .deeper hForms.statement
      expression power := .deeper (hForms.expression power)
      binding kind := .deeper (hForms.binding kind)
      construction := .deeper hForms.construction }

end ScriptLint.Input
