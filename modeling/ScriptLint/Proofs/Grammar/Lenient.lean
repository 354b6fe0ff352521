import ScriptLint.Proofs.Grammar.Blind

/-!
# Remarks

Most checks of the grammar only remark on what the program means: they report, or note the use of a
name, where they stand. Contracts that allow this are kept by all of them, and none gives up on its
statement.

- `Contract.Lenient`: a contract that allows findings about the meaning and changes of the names.
- The lemmas after it are the checks, in the order of the grammar.
-/

namespace ScriptLint

open Parse Grammar

/-- A contract that allows findings about the meaning of the program and changes of the names. -/
structure Contract.Lenient (C : Contract) : Prop where
  warnAt {f : Finding} (line column : Nat) (hf : f.isSemantic) : Resolves C (warnAt f line column)
  scopes {s : Session} {scopes : Scope.Tracker} (h : s.scopes.Evolves scopes) :
    C.Goes s { s with scopes }
  noted {s t : Session} (h : s.Noted t) : C.Goes s t
  flushScopes : Resolves C flushScopes

namespace Grammar

/-- What is found about a comparison is semantic. -/
theorem isSemantic_of_comparisonFinding {layers : Setting.Layers} {left right : Form}
    {op : Punctuator}
    {f : Finding} (h : comparisonFinding? layers left right op = some f) : f.isSemantic := by
  unfold comparisonFinding? at h
  split at h
  · cases h
    rfl
  · obtain ⟨strictOp, -, h⟩ := Option.bind_eq_some_iff.mp h
    unfold looseFinding? at h
    split at h
    · obtain rfl := Option.some.inj (Option.ite_none_left_eq_some.mp h).2
      rfl
    · split at h
      · obtain rfl := Option.some.inj (Option.ite_none_left_eq_some.mp h).2
        rfl
      · cases h

end Grammar

namespace Contract.Lenient

variable {C : Contract} (h : C.Lenient)
include h

/-! ## Findings and names -/

theorem warn {f : Finding} (t : Token) (hf : f.isSemantic) : Resolves C (warn f t) :=
  h.warnAt t.line t.column hf

theorem warnIf (s : Setting) {f : Finding} (line column : Nat) (hf : f.isSemantic) :
    Resolves C (warnIf s f line column) :=
  .read fun _ => .ite _ (h.warnAt line column hf) (.pure ())

theorem warnUnless (s : Setting) {f : Finding} (line column : Nat) (hf : f.isSemantic) :
    Resolves C (warnUnless s f line column) :=
  .read fun _ => .ite _ (h.warnAt line column hf) (.pure ())

theorem modifyScopes {f : Scope.Tracker → Setting.Layers → Scope.Tracker}
    (hf : ∀ (t : Scope.Tracker) (layers : Setting.Layers), t.Evolves (f t layers)) :
    Resolves C (modifyScopes f) :=
  .modify fun s => h.scopes (hf s.scopes s.layers)

/-- Names are used and the findings about them reported. -/
theorem names {f : Scope.Tracker → Setting.Layers → Scope.Tracker} (hf : NameStep f) :
    Resolves C (do Parse.modifyScopes f; Parse.flushScopes) :=
  .bind (h.modifyScopes (evolves_nameStep hf)) fun _ => h.flushScopes

theorem reference (name : String) (line column : Nat) : Resolves C (reference name line column) :=
  h.names (.reference name line column)

theorem assign (name : String) (line column : Nat) : Resolves C (assign name line column) :=
  h.names (.assign name line column)

/-! ## Tokens and lines -/

theorem checkQuote (quote : Char) (line column : Nat) :
    Resolves C (checkQuote quote line column) := by
  refine .readAt fun s => ?_
  cases s.layers.quotePolicy with
  | off => exact C.refl s
  | single => exact Resolves.ite _ (h.warnAt _ _ rfl) (.pure ()) s
  | double => exact Resolves.ite _ (h.warnAt _ _ rfl) (.pure ()) s
  | consistent =>
    cases s.firstQuote with
    | none => exact h.noted ⟨_, _, some quote, rfl⟩
    | some first => exact Resolves.ite _ (h.warnAt _ _ rfl) (.pure ()) s

/-- The checks of a consumed token only warn. -/
theorem checkConsumed : Resolves C checkConsumed := by
  refine .read fun s => ?_
  dsimp only
  split
  · refine .bind (h.checkQuote _ _ _) fun _ => ?_
    refine .when _ (h.warnAt _ _ rfl) (.when _ (h.warnUnless _ _ _ rfl) ?_)
    exact .ite _ (h.warnUnless _ _ _ rfl) (.pure ())
  · exact .ite _ (h.warnAt _ _ rfl) (.pure ())
  · exact .pure ()

/-- By induction on the lines left. -/
theorem warnLongLines (limit line : Nat) (lengths : List Nat) :
    Resolves C (warnLongLines limit line lengths) := by
  induction lengths generalizing line with
  | nil => exact .pure ()
  | cons length rest ih =>
    exact .ite _ (.bind (h.warnAt _ _ rfl) fun _ => ih (line + 1)) (ih (line + 1))

/-- Lines that are too long are only warned about. -/
theorem checkLinesBefore (line : Nat) : Resolves C (checkLinesBefore line) := by
  refine .readAt fun s => Resolves.setAt (h.noted ⟨_, _, _, rfl⟩) ?_
  split
  · exact h.warnLongLines _ _ _
  · exact .pure ()

/-! ## Properties and calls -/

theorem checkProperty (object : Summary) (key : String) (place : Token) :
    Resolves C (checkProperty object key place) := by
  refine .when _ (h.warnUnless _ _ _ rfl) ?_
  split
  · exact .ite _ (h.warnIf _ _ _ rfl) (.pure ())
  · exact .pure ()

theorem checkSubscript (key : String) (subscript : Summary) :
    Resolves C (checkSubscript key subscript) :=
  .ite _ (h.warnUnless _ _ _ rfl) (.pure ())

theorem checkImpliedEval (first : Option Summary) : Resolves C (checkImpliedEval first) := by
  unfold Grammar.checkImpliedEval
  split
  · split
    · exact h.warnUnless _ _ _ rfl
    · exact .pure ()
  · exact .pure ()

/-- What is called is only warned about. -/
theorem checkCall (callee : Summary) (first : Option Summary) :
    Resolves C (checkCall callee first) := by
  have hNamed (name : String) : Resolves C (checkNamedCall name callee first) := by
    refine .ite _ (h.warnUnless _ _ _ rfl) (.ite _ (h.checkImpliedEval first) ?_)
    exact .ite _ (h.warnAt _ _ rfl) (.ite _ (h.warnIf _ _ _ rfl) (.pure ()))
  unfold Grammar.checkCall
  split
  · exact hNamed _
  · exact h.checkImpliedEval first
  · exact h.checkImpliedEval first
  · exact .pure ()

theorem checkConstructor (name : String) (newToken callee : Token) :
    Resolves C (checkConstructor name newToken callee) := by
  refine .ite _ (h.warnUnless _ _ _ rfl) (.ite _ (h.warn _ rfl) ?_)
  exact .read fun _ => .ite _ (h.warnIf _ _ _ rfl) (.pure ())

/-! ## Operands and operators -/

theorem checkThis (t : Token) : Resolves C (checkThis t) :=
  .read fun _ => .ite _ (h.warnUnless _ _ _ rfl) (.pure ())

theorem checkBitwise (op : Punctuator) (t : Token) : Resolves C (checkBitwise op t) :=
  .ite _ (h.warnIf _ _ _ rfl) (.pure ())

/-- What is compared is only warned about. -/
theorem checkComparison (left right : Summary) (op : Punctuator) (t : Token) :
    Resolves C (checkComparison left right op t) := by
  refine .read fun s => ?_
  cases hFound : comparisonFinding? s.layers left.form right.form op with
  | none => exact .pure ()
  | some f => exact h.warn t (isSemantic_of_comparisonFinding hFound)

/-- An expression that does nothing is only warned about. -/
theorem checkExpressionStatement (e : Summary) : Resolves C (checkExpressionStatement e) := by
  unfold Grammar.checkExpressionStatement
  split
  · exact h.warnIf _ _ _ rfl
  · exact .ite _ (h.warnUnless _ _ _ rfl) (.pure ())

end Contract.Lenient

/-- To stay in place and forget no diagnostic allows them. -/
theorem standing_lenient : (standing True).Lenient where
  warnAt line column hf := standing_warnAt line column fun _ => hf
  scopes h := .quiet (·.evolves h) ⟨rfl, rfl, rfl, rfl, rfl⟩ rfl
  noted := by
    rintro s t ⟨_, _, _, rfl⟩
    exact .quiet id ⟨rfl, rfl, rfl, rfl, rfl⟩ rfl
  flushScopes := standing_flushScopes

end ScriptLint
