import ScriptLint.Proofs.Heads.Operands

/-!
# Operators in a statement and in a head

At the top of the head `in` is no operator, in the statement it is one. Up to the semicolon it
stands in brackets only, so both runs see the same operators.

- `Carries.unary`, `Carries.operatorStep`: operators before and after an operand.
- `powers_agree`: both runs take the token for the same operator.
- `carries_levels`: all levels of the grammar read the same.
-/

namespace ScriptLint.Heads

open Parse Grammar

variable {stop k : Nat} {K : TokenKind → Prop} {inner : Nested} {t t' : Token}
  {left left' : Summary}

/-! ## Operators before an operand -/

/-- A moved token starts an operand as before. -/
theorem startsOperand_moved (ht : t.Moved t') : startsOperand t' = startsOperand t := by
  rw [startsOperand, ht.kind, ht.newlineBefore, startsOperand]

theorem continuesName_moved (ht : t.Moved t') : continuesName t' = continuesName t := by
  rw [continuesName, ht.kind, continuesName]

/-- The check of an update stays at its token. -/
theorem tracks_checkUpdate (hLeft : Carried left left') (op : Punctuator) (t t' : Token) :
    Tracks (Abreast stop k k K) (checkUpdate left op t) (checkUpdate left' op t') fun _ =>
      Abreast stop k k K := by
  unfold checkUpdate
  rw [hLeft.form]
  refine .ite Iff.rfl ?_ (.never fun _ _ _ => failAt_ne_ok _ _)
  exact .quietly (quiet_lenient.warnIf _ _ _ rfl) (quiet_lenient.warnIf _ _ _ rfl)

theorem tracks_checkBitwise (op : Punctuator) (t t' : Token) :
    Tracks (Abreast stop k k K) (checkBitwise op t) (checkBitwise op t') fun _ =>
      Abreast stop k k K :=
  .quietly (quiet_lenient.checkBitwise op t) (quiet_lenient.checkBitwise op t')

namespace Carries

variable (h : Carries stop inner)
include h

/-- The operand of `typeof`, which guards a bare name. -/
theorem typeofOperand : Together stop k (typeofOperand inner) (typeofOperand inner) := by
  refine .current fun t t' ht => ?_
  rw [ht.identifier?]
  -- a bare name is guarded, anything else is an operand of its own
  cases hName : t.identifier? with
  | none => exact .any (.discard (h.expression Power.unary k))
  | some name =>
    have hPlain (κ : TokenKind) (hκ : κ = t.kind) :
        κ ≠ .punctuator .semicolon ∧ κ.bracketed k = k :=
      hκ ▸ plain_of_identifier hName k
    refine .ifPeek (fun _ _ => continuesName_moved) (fun κ hκ => (hPlain κ hκ).1)
      (.any (.discard (h.expression Power.unary k))) (.bind (.advance hPlain) fun _ _ _ => ?_)
    have hGuarded (line : Nat) :
        Resolves quiet (modifyScopes fun scopes _ => scopes.referenceGuarded name line) :=
      quiet_lenient.modifyScopes (evolves_nameStep (.referenceGuarded name line))
    exact .quietly (hGuarded t.line) (hGuarded t'.line)

/-- An operator before an operand is consumed with it. -/
theorem prefixed {κ : TokenKind} (hPlain : κ ≠ .punctuator .semicolon) (hDepth : κ.bracketed k = k)
    {f f' : Summary → Parse Summary} (hf : ∀ e e', Carried e e' → Together stop k (f e) (f' e')) :
    Tracks (Abreast stop k k (· = κ)) (do advance; let e ← inner.expression Power.unary; f e)
      (do advance; let e ← inner.expression Power.unary; f' e) fun _ => Abreast stop k k Any :=
  .bind (.consume hPlain hDepth) fun _ _ _ => .bind (h.expression Power.unary k) hf

/-- A signed operand. -/
theorem signed (t t' : Token) {κ : TokenKind} (hPlain : κ ≠ .punctuator .semicolon)
    (hDepth : κ.bracketed k = k) :
    Tracks (Abreast stop k k (· = κ)) (signed inner t) (signed inner t') fun _ =>
      Abreast stop k k Any :=
  h.prefixed hPlain hDepth fun e e' he => by
    rw [he.form]
    exact .pure ⟨rfl, rfl⟩ fun _ _ => id

/-- An operand updated in front. -/
theorem updated (op : Punctuator) (t t' : Token) {κ : TokenKind}
    (hPlain : κ ≠ .punctuator .semicolon)
    (hDepth : κ.bracketed k = k) :
    Tracks (Abreast stop k k (· = κ)) (updated inner op t) (updated inner op t')
      fun _ => Abreast stop k k Any :=
  h.prefixed hPlain hDepth fun _ _ he =>
    .bind (tracks_checkUpdate he op t t') fun _ _ _ => .pure ⟨rfl, rfl⟩ fun _ _ => id

/-- The operand of `delete`. -/
theorem deletion (t t' : Token) :
    Tracks (Abreast stop k k (· = .keyword .deleteWord)) (deletion inner t)
    (deletion inner t') fun _ => Abreast stop k k Any := by
  have hPlain : TokenKind.keyword .deleteWord ≠ .punctuator .semicolon := nofun
  refine h.prefixed hPlain rfl fun e e' he => ?_
  rw [he.form]
  split
  · exact .bind (.quietly (quiet_lenient.warnAt _ _ rfl) (quiet_lenient.warnAt _ _ rfl))
      fun _ _ _ =>
      .pure ⟨rfl, rfl⟩ fun _ _ => id
  · exact .pure ⟨rfl, rfl⟩ fun _ _ => id

/-- What `await` and `yield` begin. -/
theorem awaiting (power : Nat) (t t' : Token) (name : String) :
    Tracks (Abreast stop k k (· = .identifier name))
    (awaiting inner power t) (awaiting inner power t') fun _ => Abreast stop k k Any := by
  have hPlain (κ : TokenKind) (hκ : κ = .identifier name) : κ ≠ .punctuator .semicolon := hκ ▸ nofun
  refine .bind (.peekIs (fun _ _ => startsOperand_moved) hPlain) fun hasOperand b hb =>
    .bind (.consume nofun rfl) fun _ _ _ => ?_
  obtain rfl : b = hasOperand := hb
  cases b with
  | true =>
    refine .bind (.discard (.eat .times nofun rfl)) fun _ _ _ =>
      .bind (.discard (h.expression power k)) fun _ _ _ => ?_
    exact .pure ⟨rfl, rfl⟩ fun _ _ => id
  | false => exact .pure ⟨rfl, rfl⟩ fun _ _ => id

/-- An operand with the operators before it. -/
theorem unary : Together stop k (unary inner) (unary inner) := by
  refine .current fun t t' ht => ?_
  rw [ht.kind]
  split
  · next hKind => exact .known hKind (h.signed t t' (by simp) rfl)
  · next hKind => exact .known hKind (h.signed t t' (by simp) rfl)
  · next hKind => exact .known hKind (h.signed t t' (by simp) rfl)
  · next hKind => exact .known hKind (h.signed t t' (by simp) rfl)
  · next hKind =>
    exact .bind (tracks_checkBitwise .bitNot t t') fun _ _ _ =>
      .known hKind (h.signed t t' (by simp) rfl)
  · next hKind => exact .known hKind (h.updated .increment t t' (by simp) rfl)
  · next hKind => exact .known hKind (h.updated .decrement t t' (by simp) rfl)
  · next hKind =>
    refine .bind (.known hKind (.consume (by simp) rfl)) fun _ _ _ =>
      .bind h.typeofOperand fun _ _ _ => ?_
    exact .pure ⟨rfl, rfl⟩ fun _ _ => id
  · next hKind => exact .known hKind (h.deletion t t')
  · next hKind => exact .known hKind (h.awaiting Power.unary t t' _)
  · next hKind => exact .known hKind (h.awaiting Power.assignment t t' _)
  · exact .any (.bind h.operand fun _ _ hBase => h.chain true hBase)

end Carries

/-! ## Operators after an operand -/

/-- An operator is no semicolon and no bracket. -/
theorem plain_of_power {op : Punctuator} {powers : Nat × Nat}
    (h : Power.ofPunctuator? op = some powers) (k : Nat) :
    TokenKind.punctuator op ≠ .punctuator .semicolon ∧
      (TokenKind.punctuator op).bracketed k = k := by
  revert h
  cases op <;> rintro ⟨⟩ <;> exact ⟨nofun, rfl⟩

theorem plain_of_operator {noIn : Bool} {powers : Nat × Nat}
    (h : Power.ofToken? t noIn = some powers) (k : Nat) :
    t.kind ≠ .punctuator .semicolon ∧ t.kind.bracketed k = k := by
  unfold Power.ofToken? at h
  split at h
  · next hKind => rw [hKind]; exact plain_of_power h k
  · next hKind => rw [hKind]; exact ⟨nofun, rfl⟩
  · next hKind => rw [hKind]; exact ⟨nofun, rfl⟩
  · cases h

/-- Both runs take the token for the same operator: where they differ about `in`, the token is
another one. -/
theorem powers_agree {s s' : Session} (hs : Abreast stop k k K s s') :
    Power.ofToken? s'.token s'.noIn = Power.ofToken? s.token s.noIn := by
  unfold Power.ofToken?
  rw [hs.token.kind]
  split
  · rfl
  · next hKind => rw [hs.noIn (hs.bracketed hKind)]
  · rfl
  · rfl

/-- Whether a form can be assigned to is a matter of the form. -/
theorem isAssignable_carried (hLeft : Carried left left') (op : Punctuator) :
    left'.isAssignable op = left.isAssignable op := by
  rw [Summary.isAssignable, hLeft.form, hLeft.parenthesized, Summary.isAssignable]

/-- Sums of strings are told by their forms. -/
theorem together_sum {right right' : Summary} (hLeft : Carried left left')
    (hRight : Carried right right') : Together stop k (sum left right) (sum left' right') := by
  unfold sum
  rw [hLeft.form, hRight.form]
  split
  · exact .when Iff.rfl
      (.quietly (quiet_lenient.warnUnless _ _ _ rfl) (quiet_lenient.warnUnless _ _ _ rfl))
      (.pure ⟨rfl, rfl⟩ fun _ _ => id)
  · exact .pure ⟨rfl, rfl⟩ fun _ _ => id

theorem quiet_checkComparison {right right' : Summary} (op : Punctuator) (t t' : Token) :
    Together stop k (checkComparison left right op t) (checkComparison left' right' op t') :=
  .quietly (quiet_lenient.checkComparison left right op t)
    (quiet_lenient.checkComparison left' right' op t')

theorem together_addBranch :
    Together stop k (modifyMetrics Metrics.addBranch) (modifyMetrics Metrics.addBranch) :=
  .quietly (quiet_count _) (quiet_count _)

namespace Carries

variable (h : Carries stop inner)
include h

/-- The branches of a conditional. -/
theorem conditionalRest :
    Tracks (Abreast stop k k (· = .punctuator .question)) (conditionalRest inner)
    (conditionalRest inner) fun _ => Abreast stop k k Any := by
  refine .bind (.consume nofun rfl) fun _ _ _ => .bind together_addBranch fun _ _ _ => ?_
  refine .bind (.discard (.withNoIn (h.assignment k))) fun _ _ _ =>
    .bind (.expect .colon nofun rfl) fun _ _ _ => ?_
  exact .discard (h.assignment k)

theorem rightOperand (power : Nat) {κ : TokenKind} (hPlain : κ ≠ .punctuator .semicolon)
    (hDepth : κ.bracketed k = k) : Tracks (Abreast stop k k (· = κ)) (rightOperand inner power)
      (rightOperand inner power) fun _ => Abreast stop k k Any :=
  .bind (.consume hPlain hDepth) fun _ _ _ => h.expression power k

/-- The right side of an assignment. -/
theorem assignmentRest (hLeft : Carried left left') (op : Punctuator) (t t' : Token)
    (hPlain : TokenKind.punctuator op ≠ .punctuator .semicolon)
    (hDepth : (TokenKind.punctuator op).bracketed k = k) :
    Tracks (Abreast stop k k (· = .punctuator op)) (assignmentRest inner left op t)
      (assignmentRest inner left' op t') fun _ => Abreast stop k k Any := by
  unfold Grammar.assignmentRest
  rw [isAssignable_carried hLeft]
  refine .when Iff.rfl (.never fun _ _ _ => failAt_ne_ok _ _) ?_
  refine .bind (tracks_checkBitwise op t t') fun _ _ _ =>
    .bind (.consume hPlain hDepth) fun _ _ _ => ?_
  exact .seesWord .functionWord fun _ => h.hinted Iff.rfl _ _

/-- An operator at the token, applied to what is on its left. -/
theorem operatorStep (hLeft : Carried left left') {op : Punctuator} {powers : Nat × Nat}
    (hPower : Power.ofPunctuator? op = some powers) (power : Nat) (t t' : Token) :
    Tracks (Abreast stop k k (· = .punctuator op)) (operatorStep inner left op power t)
      (operatorStep inner left' op power t') fun _ => Abreast stop k k Any := by
  obtain ⟨hPlain, hDepth⟩ := plain_of_power hPower k
  -- the shapes of operators: with a right operand only, an update, a branch, a comparison
  have hRight := h.rightOperand power hPlain hDepth
  have hOnly (form : Form) : Tracks (Abreast stop k k (· = .punctuator op))
      (do discard (Grammar.rightOperand inner power); return left.within form)
      (do discard (Grammar.rightOperand inner power); return left'.within form) fun _ =>
        Abreast stop k k Any :=
    .bind hRight.discard fun _ _ _ => .pure ⟨rfl, rfl⟩ fun _ _ => id
  have hUpdate : Tracks (Abreast stop k k (· = .punctuator op))
      (do checkUpdate left op t; advance; return left.within .update)
      (do checkUpdate left' op t'; advance; return left'.within .update) fun _ =>
        Abreast stop k k Any := by
    refine .bind (tracks_checkUpdate hLeft op t t') fun _ _ _ =>
      .bind (.consume hPlain hDepth) fun _ _ _ => ?_
    exact .pure ⟨rfl, rfl⟩ fun _ _ => id
  have hDecision : Tracks (Abreast stop k k (· = .punctuator op))
      (do
        advance
        modifyMetrics Metrics.addBranch
        discard (inner.expression power)
        return left.within .logical)
      (do
        advance
        modifyMetrics Metrics.addBranch
        discard (inner.expression power)
        return left'.within .logical) fun _ => Abreast stop k k Any := by
    refine .bind (.consume hPlain hDepth) fun _ _ _ => .bind together_addBranch fun _ _ _ => ?_
    exact .bind (.discard (h.expression power k)) fun _ _ _ => .pure ⟨rfl, rfl⟩ fun _ _ => id
  have hCompare : Tracks (Abreast stop k k (· = .punctuator op))
      (do
        let right ← Grammar.rightOperand inner power
        checkComparison left right op t
        return left.within (.binary op))
      (do
        let right ← Grammar.rightOperand inner power
        checkComparison left' right op t'
        return left'.within (.binary op)) fun _ => Abreast stop k k Any :=
    .bind hRight fun _ _ _ => .bind (quiet_checkComparison op t t') fun _ _ _ =>
      .pure ⟨rfl, rfl⟩ fun _ _ => id
  unfold Grammar.operatorStep
  split
  · refine .bind hRight fun right right' hSame => ?_
    rw [hLeft.form, hSame.form]
    exact .pure ⟨rfl, rfl⟩ fun _ _ => id
  · exact .bind h.conditionalRest fun _ _ _ => .pure ⟨rfl, rfl⟩ fun _ _ => id
  · exact hUpdate
  · exact hUpdate
  · exact hDecision
  · exact hDecision
  · exact hOnly _
  · exact hCompare
  · exact hCompare
  · exact hCompare
  · exact hCompare
  · exact hCompare
  · exact hCompare
  · exact hCompare
  · exact hCompare
  · exact .bind hRight fun _ _ hSame => together_sum hLeft hSame
  · refine .ite Iff.rfl (.bind (h.assignmentRest hLeft op t t' hPlain hDepth) fun _ _ _ => ?_) ?_
    · exact .pure ⟨rfl, rfl⟩ fun _ _ => id
    · exact .bind (tracks_checkBitwise op t t') fun _ _ _ => hOnly _

/-! ## Loops over operators -/

/-- Both loops do the same at the token, or both end there. -/
theorem operatorAt (hLeft : Carried left left') (ht : t.Moved t') {noIn noIn' : Bool}
    (hPowers : Power.ofToken? t' noIn' = Power.ofToken? t noIn) (least : Nat) :
    Option.Rel (fun step step' => Tracks (Abreast stop k k (· = t.kind)) step step' fun _ =>
      Abreast stop k k Any)
      (Division.operatorAt inner least left t noIn)
        (Division.operatorAt inner least left' t' noIn') := by
  unfold Division.operatorAt
  rw [hPowers]
  cases hPower : Power.ofToken? t noIn with
  | none => exact .none
  | some powers =>
    dsimp only
    split
    · exact .none
    rw [ht.kind, ht.newlineBefore]
    split
    · next op hKind =>
      split
      · exact .none
      have hOp : Power.ofPunctuator? op = some powers := by rw [← hPower, Power.ofToken?, hKind]
      exact .some (.known hKind (h.operatorStep hLeft hOp _ t t'))
    · obtain ⟨hPlain, hDepth⟩ := plain_of_operator hPower k
      exact .some (.bind (h.rightOperand _ hPlain hDepth).discard fun _ _ _ =>
        .pure ⟨rfl, rfl⟩ fun _ _ => id)

end Carries

/-- A loop over operators at the token and with the flag that it sees. -/
def operatorsSeen (inner : Nested) (least : Nat) (left : Summary) (seen : Token × Bool) :
    Parse (Round Summary) := do
  match Division.operatorAt inner least left seen.1 seen.2 with
  | none => return .done left
  | some step => return .again (← step)

namespace Carries

variable (h : Carries stop inner)
include h

/-- One round of the loop over operators. -/
theorem operatorRound (least : Nat) (hLeft : Carried left left') :
    Tracks (Abreast stop k k Any) (operatorRound inner least left) (operatorRound inner least left')
      (Onward (fun _ => Abreast stop k k Any) fun _ => Abreast stop k k Any) := by
  rw [Division.operatorRound_eq, Division.operatorRound_eq]
  refine .ask (fun s => (s.token, s.noIn)) (fun s => (s.token, s.noIn))
    (fun seen seen' => seen.1.Moved seen'.1 ∧
      Power.ofToken? seen'.1 seen'.2 = Power.ofToken? seen.1 seen.2)
    (operatorsSeen inner least left) (operatorsSeen inner least left') (fun seen => ?_)
    (fun s s' hs => ⟨hs.token, powers_agree hs⟩) ?_
  -- the token and the powers of the operator are all the round looks at
  · obtain ⟨t', ht⟩ := Portable.exists_carried seen.1
    exact ⟨(t', seen.2), ht, by rw [Power.ofToken?, ht.kind, Power.ofToken?]⟩
  · rintro ⟨t, noIn⟩ ⟨t', noIn'⟩ ⟨ht, hPowers⟩
    refine Tracks.before (P := Abreast stop k k (· = t.kind)) ?_ fun s s' hs =>
      hs.1.imp fun _ => congrArg (·.1.kind) hs.2
    have hAt := h.operatorAt (k := k) hLeft ht hPowers least
    unfold operatorsSeen
    dsimp only
    generalize Division.operatorAt inner least left t noIn = step at hAt ⊢
    generalize Division.operatorAt inner least left' t' noIn' = step' at hAt ⊢
    cases hAt with
    | none => exact .any (.done hLeft fun _ _ => id)
    | some hStep => exact .bind hStep fun _ _ he => .again he fun _ _ => id

/-- An expression is read alike, whatever operators it has. -/
theorem operators (least : Nat) : Together stop k (operators inner least) (operators inner least) :=
  .bind h.unary fun _ _ hLeft => .cycle (fun _ _ => h.operatorRound least) hLeft

end Carries

/-! ## All levels -/

/-- By induction on the levels. -/
theorem carries_levels (stop n : Nat) : Carries stop (levels n) := by
  induction n with
  | zero => exact ⟨balanced_levels 0, coursing_levels 0, fun _ _ => .tooDeep, fun _ => .tooDeep⟩
  | succ n ih =>
    exact {
      balanced := balanced_levels (n + 1)
      coursing := coursing_levels (n + 1)
      expression power k := .deeper (ih.operators power)
      construction k := .deeper ih.constructionForm }

end ScriptLint.Heads
