import ScriptLint.Proofs.Grammar.Operands

/-!
# Expressions and statements respect every congruence

The second half of the grammar, up to `Congruence.Nested.forms`: related parsers one level deeper
give related parsers of a level.
-/

namespace ScriptLint.Grammar.Congruence.Nested

open Parse

variable {K : Congruence} {inner inner' : ScriptLint.Nested}

/-! ## Operators before an operand -/

theorem checkBitwise (op : Punctuator) (t : Token) :
    K.Rel (checkBitwise op t) (checkBitwise op t) :=
  K.ite _ (K.warnIf _ _ _ _ rfl) (K.pure ())

theorem checkUpdate (target : Summary) (op : Punctuator) (t : Token) :
    K.Rel (checkUpdate target op t) (checkUpdate target op t) :=
  K.ite _ (K.warnIf _ _ _ _ rfl) (K.failAt _ _ rfl)

/-- Two settings decide about every finding of a loose comparison. -/
theorem decides_of_looseFinding {layers : Setting.Layers} {left right : Form}
    {op : Punctuator} {strictOp : String} {f : Finding}
    (h : looseFinding? layers left right op strictOp = some f) :
    Setting.eqeqeq.decides f ∧ Setting.eqnull.decides f := by
  unfold looseFinding? at h
  split at h
  · obtain rfl := Option.some.inj (Option.ite_none_left_eq_some.mp h).2
    exact ⟨rfl, rfl⟩
  · split at h
    · obtain rfl := Option.some.inj (Option.ite_none_left_eq_some.mp h).2
      exact ⟨rfl, rfl⟩
    · cases h

theorem isLocal_of_comparisonFinding {layers : Setting.Layers} {left right : Form}
    {op : Punctuator} {f : Finding} (h : comparisonFinding? layers left right op = some f) :
    f.isLocal := by
  unfold comparisonFinding? at h
  split at h
  · cases h
    rfl
  · obtain ⟨strictOp, -, h⟩ := Option.bind_eq_some_iff.1 h
    exact Setting.isLocal_of_decides (decides_of_looseFinding h).1

/-- Unless a hidden setting decides about them, the findings of a comparison are the same. -/
theorem comparisonFinding_hidden {layers layers' : Setting.Layers}
    (h : ∀ setting, ¬K.hides setting → layers'.resolve setting = layers.resolve setting)
    (left right : Form) (op : Punctuator) :
    comparisonFinding? layers' left right op = comparisonFinding? layers left right op ∨
      ∃ s, K.hides s ∧ (∀ f ∈ comparisonFinding? layers left right op, s.governs.contains f.code) ∧
        ∀ f ∈ comparisonFinding? layers' left right op, s.governs.contains f.code := by
  unfold comparisonFinding?
  split
  · exact .inl rfl
  cases strictComparison? op with
  | none => exact .inl rfl
  | some strictOp =>
    by_cases hEq : K.hides .eqeqeq
    · exact .inr
        ⟨.eqeqeq, hEq, fun _ hf => Setting.governs_of_decides (decides_of_looseFinding hf).1,
        fun _ hf => Setting.governs_of_decides (decides_of_looseFinding hf).1⟩
    by_cases hNull : K.hides .eqnull
    · exact .inr
        ⟨.eqnull, hNull, fun _ hf => Setting.governs_of_decides (decides_of_looseFinding hf).2,
        fun _ hf => Setting.governs_of_decides (decides_of_looseFinding hf).2⟩
    left
    show looseFinding? layers' left right op strictOp = looseFinding? layers left right op strictOp
    unfold looseFinding? Setting.Layers.enabled
    rw [h .eqeqeq hEq, h .eqnull hNull]

theorem checkComparison (left right : Summary) (op : Punctuator) (t : Token) :
    K.Rel (checkComparison left right op t) (checkComparison left right op t) := by
  refine K.read fun s _ ⟨u, hs, hu⟩ => ?_
  subst hs
  dsimp only [Session.withUnseen]
  rcases comparisonFinding_hidden hu left.form right.form op with hSame | ⟨s, hs, hLeft, hRight⟩
  · rw [hSame]
    cases hFound : comparisonFinding? s.layers left.form right.form op with
    | none => exact K.pure ()
    | some f => exact K.warn f t (isLocal_of_comparisonFinding hFound)
  · split <;> split
    · next f hf _ f' hf' =>
      -- one side reports first, then the other
      have hBoth : K.Rel (Parse.warn f t >>= fun _ => Pure.pure ())
          (Pure.pure () >>= fun _ => Parse.warn f' t) :=
        K.bind (K.loud _ _ hs (hLeft f hf)) fun _ => K.quiet _ _ hs (hRight f' hf')
      rwa [bind_pure, pure_bind] at hBoth
    · next f hf _ _ => exact K.loud _ _ hs (hLeft f hf)
    · next f hf => exact K.quiet _ _ hs (hRight f hf)
    · exact K.pure ()

theorem typeofOperand (h : K.Nested inner inner') :
    K.Rel (typeofOperand inner) (typeofOperand inner') := by
  refine K.bind K.current fun t => ?_
  cases t.identifier? with
  | none => exact K.discard (h.expression _)
  | some name =>
    refine K.bind (K.peekIs ?_) fun _ => K.ite _ (K.discard (h.expression _)) ?_
    · rintro t - (h | h) <;> simp [continuesName, h]
    · exact K.bind K.advance fun _ => K.step (.names (.referenceGuarded _ _))

theorem signed (h : K.Nested inner inner') (t : Token) : K.Rel (signed inner t) (signed inner' t) :=
  K.bind K.advance fun _ => K.bind (h.expression _) fun _ => K.pure _

theorem updated (h : K.Nested inner inner') (op : Punctuator) (t : Token) :
    K.Rel (updated inner op t) (updated inner' op t) := by
  refine K.bind K.advance fun _ => K.bind (h.expression _) fun e => ?_
  exact K.bind (checkUpdate e op t) fun _ => K.pure _

theorem deletion (h : K.Nested inner inner') (t : Token) :
    K.Rel (deletion inner t) (deletion inner' t) := by
  refine K.bind K.advance fun _ => K.bind (h.expression _) fun e => ?_
  dsimp only
  split
  · exact K.bind (K.warnAt _ _ _ rfl) fun _ => K.pure _
  · exact K.pure _

theorem awaiting (h : K.Nested inner inner') (power : Nat) (t : Token) :
    K.Rel (awaiting inner power t) (awaiting inner' power t) := by
  refine K.bind (K.peekIs ?_) fun _ => K.bind K.advance fun _ => K.ite _ ?_ (K.pure _)
  · rintro t - (h | h) <;> simp [startsOperand, h]
  · refine K.bind (K.discard (K.eat _)) fun _ => K.bind (K.discard (h.expression _)) fun _ => ?_
    exact K.pure _

theorem unary (h : K.Nested inner inner') : K.Rel (unary inner) (unary inner') := by
  refine K.bind K.current fun t => ?_
  split
  · exact h.signed t
  · exact h.signed t
  · exact h.signed t
  · exact h.signed t
  · exact K.bind (checkBitwise _ t) fun _ => h.signed t
  · exact h.updated _ t
  · exact h.updated _ t
  · exact K.bind K.advance fun _ => K.bind h.typeofOperand fun _ => K.pure _
  · exact h.deletion t
  · exact h.awaiting _ t
  · exact h.awaiting _ t
  · exact K.bind h.operand fun base => h.chain true base

/-! ## Operators after an operand -/

theorem conditionalRest (h : K.Nested inner inner') :
    K.Rel (conditionalRest inner) (conditionalRest inner') := by
  refine K.bind K.advance fun _ => K.bind K.addBranch fun _ => ?_
  refine K.bind (K.discard (K.withNoIn _ h.assignment)) fun _ => K.bind (K.expect _) fun _ => ?_
  exact K.discard h.assignment

theorem assignmentRest (h : K.Nested inner inner') (left : Summary) (op : Punctuator) (t : Token) :
    K.Rel (assignmentRest inner left op t) (assignmentRest inner' left op t) := by
  unfold Grammar.assignmentRest
  refine K.when _ (K.failAt .badAssignment t rfl) fun _ => ?_
  refine K.bind (checkBitwise op t) fun _ => K.bind K.advance fun _ => ?_
  refine K.bind (K.seesWord _) fun _ => K.when _ (K.step (.setHint _)) fun _ => ?_
  exact K.discard (K.clearingHint h.assignment)

theorem sum (left right : Summary) : K.Rel (sum left right) (sum left right) := by
  unfold Grammar.sum
  split
  · exact K.when _ (K.warnUnless _ _ _ _ rfl) fun _ => K.pure _
  · exact K.pure _

theorem rightOperand (h : K.Nested inner inner') (power : Nat) :
    K.Rel (rightOperand inner power) (rightOperand inner' power) :=
  K.bind K.advance fun _ => h.expression power

theorem operatorStep (h : K.Nested inner inner') (left : Summary) (op : Punctuator) (power : Nat)
    (t : Token) :
    K.Rel (operatorStep inner left op power t) (operatorStep inner' left op power t) := by
  have compare : K.Rel
      (do
        let right ← Grammar.rightOperand inner power
        Grammar.checkComparison left right op t
        return left.within (.binary op))
      (do
        let right ← Grammar.rightOperand inner' power
        Grammar.checkComparison left right op t
        return left.within (.binary op)) :=
    K.bind (h.rightOperand power) fun right => K.bind (checkComparison left right op t) fun _ =>
      K.pure _
  have update : K.Rel
      (do Grammar.checkUpdate left op t; Parse.advance; return left.within .update)
      (do Grammar.checkUpdate left op t; Parse.advance; return left.within .update) :=
    K.bind (checkUpdate left op t) fun _ => K.bind K.advance fun _ => K.pure _
  have decision : K.Rel
      (do
        Parse.advance
        modifyMetrics Metrics.addBranch
        Functor.discard (inner.expression power)
        return left.within .logical)
      (do
        Parse.advance
        modifyMetrics Metrics.addBranch
        Functor.discard (inner'.expression power)
        return left.within .logical) :=
    K.bind K.advance fun _ => K.bind K.addBranch fun _ =>
      K.bind (K.discard (h.expression power)) fun _ => K.pure _
  unfold Grammar.operatorStep
  split
  · exact K.bind (h.rightOperand power) fun _ => K.pure _
  · exact K.bind h.conditionalRest fun _ => K.pure _
  · exact update
  · exact update
  · exact decision
  · exact decision
  · exact K.bind (K.discard (h.rightOperand power)) fun _ => K.pure _
  · exact compare
  · exact compare
  · exact compare
  · exact compare
  · exact compare
  · exact compare
  · exact compare
  · exact compare
  · exact K.bind (h.rightOperand power) fun right => sum left right
  · refine K.ite _ (K.bind (h.assignmentRest left op t) fun _ => K.pure _) ?_
    refine K.bind (checkBitwise op t) fun _ => ?_
    exact K.bind (K.discard (h.rightOperand power)) fun _ => K.pure _

theorem operatorRound (h : K.Nested inner inner') (least : Nat) (left : Summary) :
    K.Rel (operatorRound inner least left) (operatorRound inner' least left) := by
  refine K.read fun s _ ⟨_, hs, _⟩ => ?_
  subst hs
  dsimp only [Session.withUnseen]
  cases Power.ofToken? s.token s.noIn with
  | none => exact K.pure _
  | some powers =>
    refine K.ite _ (K.pure _) ?_
    split
    · refine K.ite _ (K.pure _) ?_
      exact K.bind (h.operatorStep _ _ _ _) fun _ => K.pure _
    · exact K.bind (K.discard (h.rightOperand _)) fun _ => K.pure _

theorem operators (h : K.Nested inner inner') (least : Nat) :
    K.Rel (operators inner least) (operators inner' least) :=
  K.bind h.unary fun left => K.loop (h.operatorRound least) left

/-! ## Blocks, bodies and conditions -/

theorem block (h : K.Nested inner inner') : K.Rel (block inner) (block inner') := by
  refine K.bind K.current fun opener => K.bind K.advance fun _ => ?_
  refine K.bind (K.insideBlock opener (h.statementList _)) fun count => ?_
  refine K.bind K.flushScopes fun _ => K.when _ (K.warnIf _ _ _ _ rfl) fun _ => ?_
  exact K.expectStatementClosing _ _

theorem expectBlock (h : K.Nested inner inner') : K.Rel (expectBlock inner) (expectBlock inner') :=
  K.bind (K.sees _) fun _ => K.ite _ h.block (K.failExpected _)

theorem body (h : K.Nested inner inner') : K.Rel (body inner) (body inner') := by
  refine K.bind K.current fun t => K.ite _ h.block ?_
  exact K.bind (K.warnIf _ _ _ _ rfl) fun _ => K.discard h.statement

theorem loopBody (h : K.Nested inner inner') : K.Rel (loopBody inner) (loopBody inner') :=
  K.insideLoop h.body

theorem checkCondition (e : Summary) : K.Rel (checkCondition e) (checkCondition e) :=
  K.ite _ (K.warnUnless _ _ _ _ rfl) (K.pure ())

theorem condition (h : K.Nested inner inner') : K.Rel (condition inner) (condition inner') := by
  refine K.bind K.current fun opener => K.bind (K.expect _) fun _ => ?_
  refine K.bind h.wholeExpression fun e => K.bind (checkCondition e) fun _ => ?_
  exact K.expectStatementClosing _ _

/-! ## Declarations -/

theorem initialValue (h : K.Nested inner inner') (kind : Scope.BindingKind) (target : Token) :
    K.Rel (initialValue inner kind target) (initialValue inner' kind target) := by
  refine K.bind K.advance fun _ => K.bind (K.seesWord _) fun _ => ?_
  refine K.when _ (K.step (.setHint _)) fun _ => ?_
  refine K.bind (K.clearingHint h.assignment) fun value => ?_
  cases target.identifier? with
  | some name => exact K.ite _ (K.warn _ _ rfl) (K.pure ())
  | none => exact K.pure ()

theorem declaration (h : K.Nested inner inner') (kind : Scope.BindingKind) (u : Unit) :
    K.Rel (declaration inner kind u) (declaration inner' kind u) := by
  refine K.bind K.current fun target => K.bind (h.binding kind) fun _ => ?_
  refine K.bind (K.sees _) fun _ => K.when _ (h.initialValue kind target) fun _ => ?_
  exact K.bind (K.eat _) fun _ => K.ite _ (K.pure _) (K.pure _)

theorem declarations (h : K.Nested inner inner') (kind : Scope.BindingKind) :
    K.Rel (declarations inner kind) (declarations inner' kind) :=
  K.bind K.advance fun _ => K.loop (h.declaration kind) ()

theorem variableStatement (h : K.Nested inner inner') (kind : Scope.BindingKind) :
    K.Rel (variableStatement inner kind) (variableStatement inner' kind) :=
  K.bind (h.declarations kind) fun _ => K.consumeSemicolon

theorem functionDeclaration (h : K.Nested inner inner') :
    K.Rel (functionDeclaration inner) (functionDeclaration inner') := by
  refine K.bind K.current fun t => K.bind (K.expectWord _) fun _ => ?_
  refine K.bind (K.discard (K.eat _)) fun _ => K.bind K.expectIdentifier fun place => ?_
  exact K.bind (K.declare _ _ _ _) fun _ => h.function _ _ _ _

/-! ## Loops -/

theorem whileStatement (h : K.Nested inner inner') :
    K.Rel (whileStatement inner) (whileStatement inner') :=
  K.bind K.advance fun _ => K.bind K.addBranch fun _ => K.bind h.condition fun _ => h.loopBody

theorem doStatement (h : K.Nested inner inner') :
    K.Rel (doStatement inner) (doStatement inner') := by
  refine K.bind K.advance fun _ => K.bind K.addBranch fun _ => K.bind h.loopBody fun _ => ?_
  exact K.bind (K.expectWord _) fun _ => K.bind h.condition fun _ => K.finishStatement _

theorem forStart (h : K.Nested inner inner') : K.Rel (forStart inner) (forStart inner') := by
  refine K.bind K.current fun t => ?_
  cases declaredKind? t with
  | some kind => exact h.declarations kind
  | none => exact K.ite _ (K.discard h.wholeExpression) (K.pure ())

theorem forEachRest (h : K.Nested inner inner') (t opener : Token) :
    K.Rel (forEachRest inner t opener) (forEachRest inner' t opener) := by
  refine K.bind (K.seesWord _) fun _ => K.bind K.advance fun _ => ?_
  refine K.bind (K.discard h.wholeExpression) fun _ => ?_
  refine K.bind (K.expectStatementClosing _ _) fun _ => ?_
  exact K.when _ (K.step (.checkFiltered t)) fun _ => h.loopBody

theorem forConditionRest (h : K.Nested inner inner') (opener : Token) :
    K.Rel (forConditionRest inner opener) (forConditionRest inner' opener) := by
  have last (_ : Unit) : K.Rel
      (do Parse.expectStatementClosing .rightParen opener; Grammar.loopBody inner)
      (do Parse.expectStatementClosing .rightParen opener; Grammar.loopBody inner') :=
    K.bind (K.expectStatementClosing _ _) fun _ => h.loopBody
  have rest (_ : Unit) : K.Rel
      (do
        Parse.expect .semicolon
        if !(← Parse.sees .rightParen) then Functor.discard inner.wholeExpression
        Parse.expectStatementClosing .rightParen opener
        Grammar.loopBody inner)
      (do
        Parse.expect .semicolon
        if !(← Parse.sees .rightParen) then Functor.discard inner'.wholeExpression
        Parse.expectStatementClosing .rightParen opener
        Grammar.loopBody inner') := by
    refine K.bind (K.expect _) fun _ => K.bind (K.sees _) fun _ => ?_
    exact K.when _ (K.discard h.wholeExpression) last
  refine K.bind (K.expect _) fun _ => K.bind (K.sees _) fun _ => K.ite _ ?_ (rest ())
  exact K.bind h.wholeExpression fun e => K.bind (checkCondition e) rest

theorem forRest (h : K.Nested inner inner') (t opener : Token) :
    K.Rel (forRest inner t opener) (forRest inner' t opener) := by
  refine K.bind (K.withNoIn _ h.forStart) fun _ => K.bind K.current fun next => ?_
  exact K.ite _ (h.forEachRest t opener) (h.forConditionRest opener)

theorem forStatement (h : K.Nested inner inner') :
    K.Rel (forStatement inner) (forStatement inner') := by
  refine K.bind K.current fun t => K.bind K.advance fun _ => K.bind K.addBranch fun _ => ?_
  refine K.bind K.current fun opener => K.bind (K.expect _) fun _ => K.bind K.current fun _ => ?_
  refine K.ite _ ?_ ?_
  · exact K.bind (K.withFrame _ (h.forRest t opener)) fun _ => K.flushScopes
  · exact K.bind (h.forRest t opener) fun _ => K.flushScopes

/-! ## Statements -/

theorem checkExpressionStatement (e : Summary) :
    K.Rel (checkExpressionStatement e) (checkExpressionStatement e) := by
  unfold Grammar.checkExpressionStatement
  split
  · exact K.warnIf _ _ _ _ rfl
  · exact K.ite _ (K.warnUnless _ _ _ _ rfl) (K.pure ())

theorem expressionStatement (h : K.Nested inner inner') :
    K.Rel (expressionStatement inner) (expressionStatement inner') := by
  refine K.bind h.wholeExpression fun e => ?_
  exact K.bind (checkExpressionStatement e) fun _ => K.consumeSemicolon

theorem ifRound (h : K.Nested inner inner') (u : Unit) :
    K.Rel (ifRound inner u) (ifRound inner' u) := by
  refine K.bind K.advance fun _ => K.bind K.addBranch fun _ => K.bind h.condition fun _ => ?_
  refine K.bind h.body fun _ => K.bind (K.seesWord _) fun _ => K.ite _ (K.pure _) ?_
  refine K.bind K.advance fun _ => K.bind (K.seesWord _) fun _ => K.ite _ ?_ ?_
  · exact K.bind K.addStatement fun _ => K.pure _
  · exact K.bind h.body fun _ => K.pure _

theorem caseBody (h : K.Nested inner inner') : K.Rel (caseBody inner) (caseBody inner') :=
  K.bind (K.expect _) fun _ => K.discard (h.statementList _)

theorem switchRound (h : K.Nested inner inner') (u : Unit) :
    K.Rel (switchRound inner u) (switchRound inner' u) := by
  refine K.bind (K.seesWord _) fun _ => K.ite _ ?_ ?_
  · refine K.bind K.advance fun _ => K.bind K.addBranch fun _ => ?_
    exact K.bind (K.discard h.wholeExpression) fun _ => K.bind h.caseBody fun _ => K.pure _
  · refine K.bind (K.seesWord _) fun _ => K.ite _ ?_ (K.pure _)
    exact K.bind K.advance fun _ => K.bind h.caseBody fun _ => K.pure _

theorem switchStatement (h : K.Nested inner inner') :
    K.Rel (switchStatement inner) (switchStatement inner') := by
  refine K.bind K.advance fun _ => K.bind K.current fun _ => K.bind (K.expect _) fun _ => ?_
  refine K.bind (K.discard h.wholeExpression) fun _ => K.bind (K.expectClosing _ _) fun _ => ?_
  refine K.bind K.current fun opener => K.bind (K.expect _) fun _ => ?_
  exact K.bind (K.loop h.switchRound ()) fun _ => K.expectStatementClosing _ _

theorem catchClause (h : K.Nested inner inner') :
    K.Rel (catchClause inner) (catchClause inner') := by
  refine K.bind K.current fun opener => K.ite _ ?_ h.expectBlock
  refine K.bind K.advance fun _ => K.bind (h.binding _) fun _ => ?_
  exact K.bind (K.expectClosing _ _) fun _ => h.expectBlock

theorem catchPart (h : K.Nested inner inner') : K.Rel (catchPart inner) (catchPart inner') := by
  refine K.bind (K.seesWord _) fun _ => K.ite _ ?_ (K.pure _)
  refine K.bind K.advance fun _ => K.bind (K.withFrame _ h.catchClause) fun _ => ?_
  exact K.bind K.flushScopes fun _ => K.pure _

theorem finallyPart (h : K.Nested inner inner') :
    K.Rel (finallyPart inner) (finallyPart inner') := by
  refine K.bind (K.seesWord _) fun _ => K.ite _ ?_ (K.pure _)
  exact K.bind K.advance fun _ => K.bind h.expectBlock fun _ => K.pure _

theorem tryStatement (h : K.Nested inner inner') :
    K.Rel (tryStatement inner) (tryStatement inner') := by
  refine K.bind K.advance fun _ => K.bind h.expectBlock fun _ => K.bind h.catchPart fun _ => ?_
  exact K.bind h.finallyPart fun _ => K.ite _ (K.failExpected _) (K.pure ())

theorem returnStatement (h : K.Nested inner inner') :
    K.Rel (returnStatement inner) (returnStatement inner') := by
  refine K.bind K.advance fun _ => K.bind K.current fun t => K.ite _ ?_ K.consumeSemicolon
  refine K.bind h.wholeExpression fun value => ?_
  exact K.when _ (K.warnUnless _ _ _ _ rfl) fun _ => K.consumeSemicolon

theorem throwStatement (h : K.Nested inner inner') :
    K.Rel (throwStatement inner) (throwStatement inner') :=
  K.bind K.advance fun _ => K.bind (K.discard h.wholeExpression) fun _ => K.consumeSemicolon

theorem jumpLabel : K.Rel jumpLabel jumpLabel := by
  refine K.read fun s _ ⟨_, hs, _⟩ => ?_
  subst hs
  refine K.ite _ ?_ (K.pure ())
  dsimp only [Session.withUnseen]
  cases s.token.identifier? with
  | some label => exact K.when _ (K.warnHere _ rfl) fun _ => K.advance
  | none => exact K.pure ()

theorem jumpStatement : K.Rel jumpStatement jumpStatement :=
  K.bind K.advance fun _ => K.bind jumpLabel fun _ => K.consumeSemicolon

theorem labeledStatement (h : K.Nested inner inner') :
    K.Rel (labeledStatement inner) (labeledStatement inner') := by
  refine K.bind K.expectIdentifier fun label => K.bind (K.expect _) fun _ => ?_
  refine K.bind (K.withFrame _ ?_) fun _ => K.flushScopes
  exact K.bind (K.step (.names (.addLabel _))) fun _ => K.discard h.statement

theorem withStatement (h : K.Nested inner inner') :
    K.Rel (withStatement inner) (withStatement inner') := by
  refine K.bind K.current fun t => K.bind (K.warnUnless _ _ _ _ rfl) fun _ => ?_
  refine K.bind K.advance fun _ => K.bind K.current fun opener => K.bind (K.expect _) fun _ => ?_
  refine K.bind (K.discard h.wholeExpression) fun _ => ?_
  exact K.bind (K.expectStatementClosing _ _) fun _ => h.body

theorem debuggerStatement : K.Rel debuggerStatement debuggerStatement := by
  refine K.bind K.current fun t => K.bind (K.warnUnless _ _ _ _ rfl) fun _ => ?_
  exact K.bind K.advance fun _ => K.consumeSemicolon

theorem emptyStatement : K.Rel emptyStatement emptyStatement :=
  K.bind (K.warnHere _ rfl) fun _ => K.advance

theorem identifierStatement (h : K.Nested inner inner') (name : String) :
    K.Rel (identifierStatement inner name) (identifierStatement inner' name) := by
  refine K.ite _ ?_ h.expressionStatement
  refine K.bind (K.peekIs ?_) fun _ => K.ite _ ?_ h.expressionStatement
  · rintro t - (h | h) <;> simp [Token.isKeyword, h]
  · exact K.bind K.advance fun _ => h.functionDeclaration

theorem plainStatement (h : K.Nested inner inner') (t : Token) :
    K.Rel (plainStatement inner t) (plainStatement inner' t) := by
  unfold Grammar.plainStatement
  split
  · exact h.block
  · exact emptyStatement
  · exact h.identifierStatement _
  · exact h.variableStatement _
  · exact h.variableStatement _
  · exact h.variableStatement _
  · exact h.functionDeclaration
  · exact h.classForm h.heritage true
  · exact K.loop h.ifRound ()
  · exact h.forStatement
  · exact h.whileStatement
  · exact h.doStatement
  · exact h.switchStatement
  · exact h.tryStatement
  · exact h.withStatement
  · exact debuggerStatement
  · exact h.expressionStatement

theorem unlabeledStatement (h : K.Nested inner inner') (t : Token) :
    K.Rel (unlabeledStatement inner t) (unlabeledStatement inner' t) := by
  refine K.bind K.addStatement fun _ => ?_
  split
  · exact K.bind h.returnStatement fun _ => K.pure _
  · exact K.bind h.throwStatement fun _ => K.pure _
  · exact K.bind jumpStatement fun _ => K.pure _
  · exact K.bind jumpStatement fun _ => K.pure _
  · exact K.bind (h.plainStatement t) fun _ => K.pure _

theorem statementForm (h : K.Nested inner inner') :
    K.Rel (Grammar.statement inner) (Grammar.statement inner') := by
  refine K.bind K.current fun t => K.ite _ ?_ (h.unlabeledStatement t)
  refine K.bind (K.peekIs ?_) fun _ => K.ite _ ?_ (h.unlabeledStatement t)
  · rintro t - (h | h) <;> simp [Token.isPunctuator, h]
  · exact K.bind h.labeledStatement fun _ => K.pure _

/-! ## A level -/

/-- Related parsers one level deeper give related parsers of the grammar. -/
theorem forms (h : K.Nested inner inner') : K.Nested (forms inner) (forms inner') where
  statement := h.statementForm
  expression := h.operators
  binding := h.bindingTarget
  construction := h.constructionForm

end ScriptLint.Grammar.Congruence.Nested
