import ScriptLint.Proofs.Division.Divisor

/-!
# Operators at the end of the shorter source

What binds more tightly than a division leaves it to the loops around it. The first loop that takes
operators as loose as a division takes the one of the longer source, with the name after it.

- `Settled.unary`, `Settled.operatorStep`: operators before and after an operand.
- `operatorAt`: what a loop over operators does at a token, if anything.
- `follows_operators_held`: where the longer source is at its division, a loop takes it or leaves
  it.
- `settled_levels`: all levels of the grammar are settled.
-/

namespace ScriptLint.Division

open Parse Grammar

variable {stop : Nat} {inner : Nested} {tight : Prop}

/-! ## Operators before an operand -/

/-- The check of an update stays at its token. -/
theorem rests_checkUpdate (target : Summary) (op : Punctuator) (t : Token) :
    Rests stop True (checkUpdate target op t) (checkUpdate target op t) := by
  unfold checkUpdate
  split
  · exact rests_remark ((lockstep stop).warnIf _ _ _ _ rfl) (standing_warnIf _ _ _ rfl)
  · exact (closes_failAt .badAssignment t rfl).rests

namespace Settled

theorem typeofOperand (h : Settled stop inner) :
    Closes stop True (typeofOperand inner) (typeofOperand inner) := by
  have hWhole := (h.expression Power.unary).discard fun _ => trivial
  refine .prepend (lockstep stop).current fun t => ?_
  cases t.identifier? with
  | none => exact hWhole
  | some name =>
    refine .prepend ((lockstep stop).peekIs ?_) fun _ => .ite _ hWhole ?_
    · rintro t - (h | h) <;> simp [continuesName, h]
    have hGuarded : NameStep fun scopes _ => scopes.referenceGuarded name t.line :=
      .referenceGuarded name t.line
    exact closes_advance.bind fun _ => rests_remark ((lockstep stop).step (.names hGuarded))
      (standing_modifyScopes (evolves_nameStep hGuarded))

theorem tightExpression (h : Settled stop inner) :
    Closes stop True (inner.expression Power.unary) (inner.expression Power.unary) :=
  (h.expression Power.unary).congr (iff_true_intro (by decide))

theorem signed (h : Settled stop inner) (t : Token) :
    Closes stop True (signed inner t) (signed inner t) :=
  .prepend .advance fun _ => h.tightExpression.bind fun _ => rests_pure _

theorem updated (h : Settled stop inner) (op : Punctuator) (t : Token) :
    Closes stop True (updated inner op t) (updated inner op t) := by
  refine .prepend .advance fun _ => h.tightExpression.bind fun e => ?_
  exact (rests_checkUpdate e op t).bind fun _ => rests_pure _

theorem deletion (h : Settled stop inner) (t : Token) :
    Closes stop True (deletion inner t) (deletion inner t) := by
  refine .prepend .advance fun _ => h.tightExpression.bind fun e => ?_
  split
  · have hWarn := (lockstep stop).warnAt .deleteVariable e.line e.column rfl
    exact (rests_remark hWarn (standing_warnAt _ _ fun _ => rfl)).bind fun _ => rests_pure _
  · exact rests_pure _

theorem awaiting (h : Settled stop inner) (power : Nat) (t : Token) :
    Closes stop True (awaiting inner power t) (awaiting inner power t) := by
  refine .prepend ((lockstep stop).peekIs ?_) fun hasOperand => closes_advance.bind fun _ => ?_
  · rintro t - (h | h) <;> simp [startsOperand, h]
  cases hasOperand with
  | false => exact rests_pure _
  | true =>
    refine (Closes.prepend ((lockstep stop).discard ((lockstep stop).eat .times)) fun _ => ?_).rests
    exact ((h.expression power).discard fun _ => trivial).bind fun _ => rests_pure _

/-- An operand with the operators before it. -/
theorem unary (h : Settled stop inner) : Closes stop True (unary inner) (unary inner) := by
  refine .prepend (lockstep stop).current fun t => ?_
  split
  · exact h.signed t
  · exact h.signed t
  · exact h.signed t
  · exact h.signed t
  · exact .prepend (Congruence.Nested.checkBitwise (K := lockstep stop) .bitNot t)
      fun _ => h.signed t
  · exact h.updated .increment t
  · exact h.updated .decrement t
  · exact .prepend .advance fun _ => h.typeofOperand.bind fun _ => rests_pure _
  · exact h.deletion t
  · exact h.awaiting Power.unary t
  · exact h.awaiting Power.assignment t
  · exact h.operand.bind fun base => h.chain true base

/-! ## Operators after an operand -/

/-- The last operand of a conditional takes the division. -/
theorem conditionalRest (h : Settled stop inner) :
    Closes stop tight (conditionalRest inner) (conditionalRest inner) := by
  refine .prepend .advance fun _ => .prepend (.modify (still_apart fun _ _ _ _ _ => rfl)) fun _ =>
    ?_
  refine .prepend ((lockstep stop).discard (.withNoIn false h.nested.assignment)) fun _ => ?_
  refine .prepend ((lockstep stop).expect _) fun _ => ?_
  exact (h.expression Power.assignment).discard fun hTight => absurd hTight (by decide)

/-- An assignment ends with its right side. -/
theorem assignmentRest (h : Settled stop inner) (left : Summary) (op : Punctuator) (t : Token) :
    Closes stop tight (assignmentRest inner left op t) (assignmentRest inner left op t) := by
  unfold Grammar.assignmentRest
  refine .when _ ((lockstep stop).failAt .badAssignment t rfl) fun _ => ?_
  refine .prepend (Congruence.Nested.checkBitwise (K := lockstep stop) op t) fun _ => ?_
  refine .prepend .advance fun _ => .prepend ((lockstep stop).seesWord _) fun _ => ?_
  refine .when _ (.modify (still_apart fun _ _ _ _ _ => rfl)) fun _ => ?_
  exact (h.expression Power.assignment).clearingHint.discard fun hTight => absurd hTight (by decide)

/-- The right operand of an operator ends alike, tightly if the operator binds tightly. -/
theorem rightOperand (h : Settled stop inner) (power : Nat) :
    Closes stop (Tight power) (rightOperand inner power) (rightOperand inner power) :=
  .prepend .advance fun _ => h.expression power

end Settled

theorem standing_sum (left right : Summary) : Resolves (standing True) (sum left right) := by
  unfold sum
  split
  · exact .when _ (standing_warnUnless _ _ _ rfl) (.pure _)
  · exact .pure _

namespace Settled

/-- An operator that binds its right operand as loosely as a division lets it take the division.
What is then checked may be about another operand. -/
theorem looseStep (h : Settled stop inner) {power : Nat} (hPower : ¬Tight power)
    {f : Summary → Parse Summary} (hf : ∀ a, Lockstep stop (f a) (f a))
    (hChecks : ∀ a, Resolves (standing True) (f a)) :
    Closes stop (Tight power) (Grammar.rightOperand inner power >>= f)
      (Grammar.rightOperand inner power >>= f) :=
  (h.rightOperand power).bindWith (fun a => trails_check (hf a) (hChecks a))
    (fun hTight => absurd hTight hPower) fun _ c _ => follows_loose hPower (hChecks c)

/-- An operator applied to what is on its left leaves the division as its right operand does. -/
theorem operatorStep (h : Settled stop inner) (left : Summary) {op : Punctuator}
    {leftPower power : Nat}
    (hPower : Power.ofPunctuator? op = some (leftPower, power)) (t : Token) :
    Closes stop (Tight power) (operatorStep inner left op power t)
      (operatorStep inner left op power t) := by
  -- the kinds of operators: a plain one, a branch, an update, a comparison
  have hPlain (e : Summary) : Closes stop (Tight power)
      (do discard (Grammar.rightOperand inner power); return e)
      (do discard (Grammar.rightOperand inner power); return e) :=
    ((h.rightOperand power).discard id).map fun _ => e
  have hDecision (e : Summary) : Closes stop (Tight power)
      (do
        advance
        modifyMetrics Metrics.addBranch
        discard (inner.expression power)
        return e)
      (do
        advance
        modifyMetrics Metrics.addBranch
        discard (inner.expression power)
        return e) := by
    refine .prepend .advance fun _ => .prepend (.modify (still_apart fun _ _ _ _ _ => rfl)) fun _ =>
      ?_
    exact ((h.expression power).discard id).map fun _ => e
  have hUpdate (hTight : Tight power) : Closes stop (Tight power)
      (do checkUpdate left op t; advance; return left.within .update)
      (do checkUpdate left op t; advance; return left.within .update) := by
    have hCheck := Congruence.Nested.checkUpdate (K := lockstep stop) left op t
    exact (Closes.prepend hCheck fun _ => closes_literal _).congr (iff_of_true trivial hTight)
  have hCompare (hLoose : ¬Tight power) : Closes stop (Tight power)
      (do
        let right ← Grammar.rightOperand inner power
        checkComparison left right op t
        return left.within (.binary op))
      (do
        let right ← Grammar.rightOperand inner power
        checkComparison left right op t
        return left.within (.binary op)) := by
    refine h.looseStep hLoose (fun right => ?_) fun right => ?_
    · exact .bind (Congruence.Nested.checkComparison (K := lockstep stop) left right op t)
        fun _ => .pure _
    · exact .bind (standing_lenient.checkComparison left right op t) fun _ => .pure _
  -- an update is the last token itself; what looks at both operands binds more loosely than a
  -- division
  unfold Grammar.operatorStep
  split
  · exact h.looseStep (by cases hPower; decide) (fun _ => .pure _) fun _ => .pure _
  · exact h.conditionalRest.map fun _ => _
  · exact hUpdate (by cases hPower; decide)
  · exact hUpdate (by cases hPower; decide)
  · exact hDecision _
  · exact hDecision _
  · exact hPlain _
  · exact hCompare (by cases hPower; decide)
  · exact hCompare (by cases hPower; decide)
  · exact hCompare (by cases hPower; decide)
  · exact hCompare (by cases hPower; decide)
  · exact hCompare (by cases hPower; decide)
  · exact hCompare (by cases hPower; decide)
  · exact hCompare (by cases hPower; decide)
  · exact hCompare (by cases hPower; decide)
  · exact h.looseStep (by cases hPower; decide)
      (fun right => Congruence.Nested.sum (K := lockstep stop) left right) (standing_sum left)
  · refine .ite _ ((h.assignmentRest left op t).map fun _ => _) ?_
    exact .prepend (Congruence.Nested.checkBitwise (K := lockstep stop) op t) fun _ => hPlain _

end Settled

/-! ## Loops over operators -/

/-- What is done at the token after an operand, unless the loop ends there. -/
def operatorAt (inner : Nested) (least : Nat) (left : Summary) (t : Token) (noIn : Bool) :
    Option (Parse Summary) :=
  match Power.ofToken? t noIn with
  | none => none
  | some (leftPower, rightPower) =>
    if leftPower < least then none
    else match t.kind with
      | .punctuator op =>
        if op.isUpdate && t.newlineBefore then none
        else some (operatorStep inner left op rightPower t)
      | _ => some do
        discard (rightOperand inner rightPower)
        return left.within .other

/-- A round takes the operator at the current token, if it binds tightly enough. -/
theorem operatorRound_eq (least : Nat) (left : Summary) : operatorRound inner least left = (do
    let s ← get
    match operatorAt inner least left s.token s.noIn with
    | none => return .done left
    | some step => return .again (← step)) := by
  unfold operatorRound operatorAt
  refine bind_congr fun s => ?_
  cases Power.ofToken? s.token s.noIn with
  | none => rfl
  | some powers =>
    dsimp only
    by_cases hLess : powers.1 < least
    · rw [if_pos hLess, if_pos hLess]
    · rw [if_neg hLess, if_neg hLess]
      cases s.token.kind with
      | punctuator op =>
        dsimp only
        split
        · rfl
        · rfl
      | _ =>
        dsimp only
        rw [bind_assoc]
        rfl

/-- A loop goes on with what is done at the token, or ends there. -/
theorem rounds_operatorRound (least n : Nat) (left : Summary) (s : Session) :
    rounds (operatorRound inner least) (n + 1) left s =
      match operatorAt inner least left s.token s.noIn with
      | none => .ok left s
      | some step => (step >>= rounds (operatorRound inner least) n) s := by
  show (operatorRound inner least left >>= _) s = _
  rw [operatorRound_eq, bind_assoc]
  show ((match operatorAt inner least left s.token s.noIn with
    | none => pure (.done left)
    | some step => step >>= fun e => pure (.again e) : Parse (Round Summary)) >>= _) s = _
  cases operatorAt inner least left s.token s.noIn with
  | none => rfl
  | some step =>
    dsimp only
    rw [bind_assoc]
    rfl

/-- The right operand of an operator binds at least as strongly as the operator. -/
theorem le_of_ofPunctuator {op : Punctuator} {leftPower power : Nat}
    (h : Power.ofPunctuator? op = some (leftPower, power)) : leftPower ≤ power := by
  revert h
  cases op <;> rintro ⟨⟩ <;> decide

/-- Any operator that is taken binds at least as tightly as asked for. -/
theorem Settled.operatorAt (h : Settled stop inner) {least : Nat} {left : Summary} {t : Token}
    {noIn : Bool} {step : Parse Summary} (hStep : operatorAt inner least left t noIn = some step) :
    ∃ power, least ≤ power ∧ Closes stop (Tight power) step step := by
  unfold Division.operatorAt at hStep
  split at hStep
  · cases hStep
  · next leftPower power hPower =>
    split at hStep
    · cases hStep
    · next hLeast =>
      split at hStep
      · next op hKind =>
        have hOp : Power.ofPunctuator? op = some (leftPower, power) := by
          rw [← hPower, Power.ofToken?, hKind]
        obtain rfl := Option.some.inj (Option.ite_none_left_eq_some.mp hStep).2
        exact ⟨power, Nat.le_trans (Nat.le_of_not_lt hLeast) (le_of_ofPunctuator hOp),
          h.operatorStep left hOp t⟩
      · next hKind =>
        obtain rfl := Option.some.inj hStep
        refine ⟨power, ?_, ((h.rightOperand power).discard id).map fun _ => _⟩
        unfold Power.ofToken? at hPower
        split at hPower
        · next op hOp => exact absurd hOp (hKind op)
        · cases (Option.ite_none_left_eq_some.mp hPower).2
          omega
        · cases hPower
          omega
        · cases hPower

/-! ## Loops behind the end -/

/-- A division is taken by the loops that bind as loosely. -/
theorem operatorAt_divide {least : Nat} {left : Summary} {t : Token} {noIn : Bool}
    (h : t.kind = .punctuator .divide) : operatorAt inner least left t noIn =
      if Tight least then none else some (operatorStep inner left .divide 131 t) := by
  unfold operatorAt
  rw [Power.ofToken?, h]
  rfl

/-- A semicolon ends the loop over operators. -/
theorem operatorRounds_semicolon {s : Session} (h : s.token.kind = .punctuator .semicolon)
    (least n : Nat)
    (left : Summary) : rounds (operatorRound inner least) (n + 1) left s = .ok left s := by
  show (operatorRound inner least left >>= _) s = _
  rw [bind_of_ok (operatorRound_semicolon h least left)]
  rfl

/-- A loop that starts at the semicolon ends there, with what it started with. -/
theorem eq_of_operatorRounds {s t : Session} {least n : Nat} {left a : Summary}
    (hs : s.token.kind = .punctuator .semicolon)
    (h : rounds (operatorRound inner least) n left s = .ok a t) : a = left := by
  cases n with
  | zero => cases h
  | succ n =>
    rw [operatorRounds_semicolon hs] at h
    cases h
    rfl

/-- Past the division both loops end. -/
theorem follows_operatorRounds_past {least : Nat} {left left' : Summary}
    (hValue : Tight least → left' = left) (n n' : Nat) :
    Follows stop (Tight least) (Behind stop Past) (rounds (operatorRound inner least) n left)
      (rounds (operatorRound inner least) n' left') := by
  intro s s' hs a t ht _
  obtain rfl := eq_of_operatorRounds hs.1.token ht
  cases n' with
  | zero => exact .stopped hs.2.toUnharmed
  | succ n' =>
    rw [operatorRounds_semicolon hs.2.token]
    exact .past hValue hs.2

/-- At the division, the second loop leaves it if it binds more tightly, and else takes it and ends
at the semicolon behind it. -/
theorem follows_operatorRounds_held (depth least : Nat) (left : Summary) (n n' : Nat) :
    Follows stop (Tight least) (Behind stop Held)
      (rounds (operatorRound (levels depth) least) n left)
      (rounds (operatorRound (levels depth) least) n' left) := by
  intro s s' hs a t ht _
  obtain rfl := eq_of_operatorRounds hs.1.token ht
  cases n' with
  | zero => exact .stopped hs.2.toUnharmed
  | succ n' =>
    rw [rounds_operatorRound, operatorAt_divide hs.2.token]
    by_cases hTight : Tight least
    · rw [if_pos hTight]
      exact .held hTight hs.2
    · rw [if_neg hTight]
      have hDivision : Brings Held Past (operatorStep (levels depth) a .divide 131 s'.token >>=
          rounds (operatorRound (levels depth) least) n') :=
        (brings_division depth a s'.token).bind (brings_operatorRounds least n')
      exact closing_of_past (hDivision s' hs.2) fun h => absurd h hTight

/-! ## All levels -/

/-- By induction on the rounds of the first run. A step whose right operand left the division to the
loop binds at least as tightly as the loop. -/
theorem Settled.trails_operatorRounds {depth : Nat} (h : Settled stop (levels depth)) (least : Nat)
    {n n' : Nat} (left : Summary) (hn : n ≤ n') : Trails stop (Tight least)
      (rounds (operatorRound (levels depth) least) n left)
      (rounds (operatorRound (levels depth) least) n' left) := by
  -- on the rounds of the first run
  induction n generalizing n' left with
  | zero =>
    have hLockstep : Lockstep stop (rounds (operatorRound (levels depth) least) 0 left)
        (rounds (operatorRound (levels depth) least) n' left) :=
      .rounds (h.nested.operatorRound least) left hn
    exact (closes_of_error hLockstep fun _ _ _ ht => by cases ht).toTrails
  | succ n ih =>
    obtain ⟨m, rfl⟩ : ∃ m, n' = m + 1 := ⟨n' - 1, by omega⟩
    refine ⟨.rounds (h.nested.operatorRound least) left hn, fun s s' hs a t ht hStopped => ?_⟩
    obtain ⟨-, _, _, _, hPaired, -⟩ := id hs
    obtain ⟨_, _, _, _, hSame, -⟩ := hPaired.beside
    have hAt : Division.operatorAt (levels depth) least left s'.token s'.noIn =
        Division.operatorAt (levels depth) least left s.token s.noIn := by
      rw [hSame]
    rw [rounds_operatorRound] at ht ⊢
    rw [hAt]
    cases hStep : Division.operatorAt (levels depth) least left s.token s.noIn with
    | none =>
      -- a loop that ends at once stays before the place where the sources part
      rw [hStep] at ht
      cases ht
      exact absurd hStopped hs.not_stopped
    | some step =>
      rw [hStep] at ht
      obtain ⟨power, hLeast, hCloses⟩ := h.operatorAt hStep
      have hTight (hLoop : Tight least) : Tight power := Nat.lt_of_lt_of_le hLoop hLeast
      -- where the second run goes on past the slash, the loop goes on there as the induction says
      have hRest := hCloses.toTrails.bindWith (fun a => ih a (Nat.le_of_succ_le_succ hn))
        (fun _ a => follows_operatorRounds_held depth least a n m)
        fun a c hc => follows_operatorRounds_past (fun hLoop => hc (hTight hLoop)) n m
      exact hRest.trails s s' hs a t ht hStopped

/-- The operators behind an operand, in a loop. -/
theorem Settled.operators {depth : Nat} (h : Settled stop (levels depth)) (least : Nat) :
    Closes stop (Tight least) (operators (levels depth) least)
      (operators (levels depth) least) := by
  refine h.unary.bind fun left => ⟨⟨.loop (h.nested.operatorRound least) left, ?_⟩, ?_, ?_⟩
  · exact fun s s' hs => (h.trails_operatorRounds least left (Lockstep.budget_le hs)).trails s s' hs
  · exact fun s s' => follows_operatorRounds_held depth least left s.budget s'.budget s s'
  · exact fun s s' => follows_operatorRounds_past (fun _ => rfl) s.budget s'.budget s s'

/-- A run stopped for its depth is stopped in both sources. -/
theorem lockstep_tooDeep {α : Type} : Lockstep stop (tooDeep : Parse α) tooDeep := by
  have hCloses : Closes stop True (tooDeep : Parse α) tooDeep := closes_tooDeep
  exact hCloses.toLockstep

theorem Lockstep.deeper {α : Type} {p q : Parse α} (h : Lockstep stop p q) :
    Lockstep stop p.deeper q.deeper := by
  refine .read fun s s' ⟨_, _, _, _, hs⟩ => ?_
  subst hs
  refine .ite _ (.bind (.modify (still_apart fun _ _ _ _ _ => rfl)) fun _ => ?_) lockstep_tooDeep
  exact .ensuring h (still_apart fun _ _ _ _ _ => rfl)

/-- By induction on the levels. -/
theorem settled_levels (stop n : Nat) : Settled stop (levels n) := by
  induction n with
  | zero =>
    have hNested : (lockstep stop).Nested (levels 0) (levels 0) :=
      ⟨lockstep_tooDeep, fun _ => lockstep_tooDeep, fun _ => lockstep_tooDeep, lockstep_tooDeep⟩
    exact ⟨hNested, fun _ => closes_tooDeep, closes_tooDeep⟩
  | succ n ih =>
    have hForms := ih.nested.forms
    exact {
      nested := {
        statement := .deeper hForms.statement
        expression power := .deeper (hForms.expression power)
        binding kind := .deeper (hForms.binding kind)
        construction := .deeper hForms.construction }
      expression power := (ih.operators power).deeper
      construction := ih.constructionForm.deeper }

end ScriptLint.Division
