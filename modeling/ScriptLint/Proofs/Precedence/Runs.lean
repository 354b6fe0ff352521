import ScriptLint.Proofs.Nesting
import ScriptLint.Proofs.Precedence.Grouping
import ScriptLint.Proofs.Writes

/-!
# Rows of operators are parsed as they group

The parser of expressions loops over operators and calls itself for right operands, both limited by
binding powers. On names with operators between them, that is a walk through the tree in which the
operators group by their levels.

- `Grammar.levelsWith`: the grammar with another check of comparisons.
- `Grouping.walk`: the walk through a tree, which checks the comparisons on the way.
- `Session.Fronting`: a session that stands before a row of tokens.
- `walk_passes`: what a walk consumes, and how it ends.
- `operators_continues`: the loop over operators does what the walk does, then goes on behind it.
- `expression_grouped`: an expression made of such a row is the walk through its tree.
-/

namespace ScriptLint

open Parse Grammar Lexer

/-! ## Checks of comparisons -/

namespace Grammar

/-- A check of a comparison: of its two sides, of the operator and of the token where that
stands. -/
abbrev ComparisonCheck : Type := Summary → Summary → Punctuator → Token → Parse Unit

variable (check : ComparisonCheck)

/-- `operatorStep` with another check of comparisons. -/
def operatorStepWith (inner : Nested) (left : Summary) (op : Punctuator) (power : Nat) (t : Token) :
    Parse Summary :=
  match op with
  | .equal | .notEqual | .identical | .notIdentical | .less | .greater | .atMost | .atLeast => do
    let right ← rightOperand inner power
    check left right op t
    return left.within (.binary op)
  | _ => operatorStep inner left op power t

/-- `operatorRound` with another check of comparisons. -/
def operatorRoundWith (inner : Nested) (least : Nat) (left : Summary) : Parse (Round Summary) := do
  let s ← get
  match Power.ofToken? s.token s.noIn with
  | none => return .done left
  | some (leftPower, rightPower) =>
    if leftPower < least then return .done left
    else match s.token.kind with
      | .punctuator op =>
        if op.isUpdate && s.token.newlineBefore then return .done left
        else return .again (← operatorStepWith check inner left op rightPower s.token)
      | _ =>
        discard (rightOperand inner rightPower)
        return .again (left.within .other)

/-- The parsers of a level with another check of comparisons, from those one level deeper. -/
def levelWith (inner : Nested) : Nested :=
  { forms inner with
    expression :=
      fun least => do loop (operatorRoundWith check inner least) (← unary inner) }.deeper

/-- The grammar with another check of comparisons. -/
def levelsWith : (count : Nat) → Nested
  | 0 => .exhausted
  | count + 1 => levelWith check (levelsWith count)

/-- With the real check the step is the one of the grammar. -/
theorem operatorStepWith_checkComparison : operatorStepWith checkComparison = operatorStep := by
  funext inner left op power t
  unfold operatorStepWith
  split <;> rfl

/-- With the check it has, the grammar is what it was. -/
theorem levelsWith_checkComparison (n : Nat) : levelsWith checkComparison n = levels n := by
  induction n with
  | zero => rfl
  | succ n ih =>
    have hRound : operatorRoundWith checkComparison = operatorRound := by
      funext inner least left
      unfold operatorRoundWith
      rw [operatorStepWith_checkComparison]
      rfl
    show levelWith checkComparison (levelsWith checkComparison n) = level (levels n)
    rw [ih, levelWith, hRound]
    rfl

end Grammar

/-! ## Walks -/

/-- Consumes the name and uses it. -/
def Operand.use (x : Operand) : Parse Unit := do
  discard (peekIs (·.isPunctuator .arrow))
  discard (nameUse x.name x.token)

namespace Operator

/-- Reports an operator on bits. -/
def report (op : Operator) : Parse Unit :=
  match op.token.kind with
  | .punctuator p => checkBitwise p op.token
  | _ => pure ()

/-- Counts an operator that decides whether its right operand is evaluated. -/
def count (op : Operator) : Parse Unit :=
  match op.token.kind with
  | .punctuator .and | .punctuator .or => modifyMetrics Metrics.addBranch
  | _ => pure ()

/-- Consumes the operator. -/
def consume (op : Operator) : Parse Unit := do
  op.report
  advance
  op.count

/-- Checks the operands of a comparison. -/
def compare (check : ComparisonCheck) (op : Operator) (left right : Summary) : Parse Unit :=
  match op.comparison? with
  | some p => check left right p op.token
  | none => pure ()

/-- Consumes the operator and then its right operand, which counts as a level. Then both sides are
checked. -/
def take (check : ComparisonCheck) (op : Operator) (left right : Summary) (operand : Parse Unit) :
    Parse Unit := do
  op.consume
  operand.deeper
  op.compare check left right

end Operator

namespace Grouping

/-- Reads the operands and operators of a tree in order. A comparison is checked once both sides are
read. -/
def walk (check : ComparisonCheck) : Grouping → Parse Unit
  | operand x => x.use
  | binary op left right => do
    left.walk check
    op.take check left.summary right.summary (right.walk check)

/-- The tokens of the tree in order. -/
def tokens : Grouping → List Token
  | operand x => [x.token]
  | binary op left right => left.tokens ++ op.token :: right.tokens

/-- A tree reads its row from left to right. -/
theorem tokens_eq (g : Grouping) :
    g.tokens = g.first.token :: g.rest.flatMap fun p => [p.1.token, p.2.token] := by
  induction g with
  | operand x => rfl
  | binary op left right ihLeft ihRight =>
    rw [tokens, ihLeft, ihRight, rest, List.flatMap_append, List.flatMap_cons]
    rfl

/-- So does the tree of a row. -/
theorem tokens_group (x : Operand) (rest : List (Operator × Operand)) :
    (group x rest).tokens = x.token :: rest.flatMap fun p => [p.1.token, p.2.token] := by
  rw [tokens_eq, first_group, rest_group]

end Grouping

/-! ## Standing before a row -/

namespace Lexer

/-- From a lexer, the tokens are the next significant ones, without directives between them, and
another lexer goes on behind them. -/
inductive Supplies : Lexer → List Token → Lexer → Prop
  | nil (l : Lexer) : Supplies l [] l
  | cons {l m last : Lexer} {rs : List Result} {t : Token} {ts : List Token}
    (hLeads : Leads l rs t m)
    (hPlain : ∀ r ∈ rs, directive? r = none) (h : Supplies m ts last) : Supplies l (t :: ts) last

end Lexer

/-- What the parsers do to a session between tokens: they note findings, and only those can stop the
run. -/
def noting : Contract where
  Goes s t := t.layers = s.layers ∧ t.noIn = s.noIn ∧ t.nesting = s.nesting
  Stops s _ := s.layers.enabled .passfail
  refl _ := ⟨rfl, rfl, rfl⟩
  trans h h' := ⟨h'.1.trans h.1, h'.2.1.trans h.2.1, h'.2.2.trans h.2.2⟩
  stop h h' := h.1 ▸ h'

/-- The contract to do nothing but note findings. -/
def remarking : Contract where
  Goes s t := ∃ journal, t = { s with journal }
  Stops s t := s.layers.enabled .passfail ∧ ∃ journal, t = { s with journal }
  refl _ := ⟨_, rfl⟩
  trans := by
    rintro s t u ⟨_, rfl⟩ ⟨_, rfl⟩
    exact ⟨_, rfl⟩
  stop := by
    rintro s t u ⟨_, rfl⟩ ⟨h, _, rfl⟩
    exact ⟨h, _, rfl⟩

namespace Session

variable {s t u : Session} {ts ts' : List Token} {a b : Token} {last : Lexer}

/-- The session stands before the tokens, the first of which is the current one. `in` is an
operator. -/
structure Fronting (s : Session) (ts : List Token) (last : Lexer) : Prop where
  aligned : s.Aligned
  noIn : s.noIn = false
  ahead : ∃ l rest, ts = s.token :: rest ∧ s.stream.From l ∧ l.Supplies rest last

/-- From the one session the parser came to the other, which stands before the tokens. -/
structure Passed (s : Session) (ts : List Token) (last : Lexer) (t : Session) : Prop where
  fronting : t.Fronting ts last
  kept : noting.Goes s t
  budget : t.budget ≤ s.budget

/-- The first token of a row is the current one. -/
theorem Fronting.token (h : s.Fronting (a :: ts) last) : s.token = a := by
  obtain ⟨-, -, l, rest, hSame, -⟩ := h
  exact (List.cons.inj hSame).1.symm

/-- Passing one part of a row and then the next passes both. -/
theorem Passed.trans (h : s.Passed ts last t) (h' : t.Passed ts' last u) : s.Passed ts' last u :=
  ⟨h'.fronting, noting.trans h.kept h'.kept, Nat.le_trans h'.budget h.budget⟩

/-- A session that stays in place still stands before the tokens. -/
theorem Fronting.placed (h : s.Fronting ts last) (hPlaced : s.Placed t) (hKept : noting.Goes s t) :
    s.Passed ts last t := by
  obtain ⟨hAligned, hNoIn, l, rest, hSame, hFrom, hSupplies⟩ := h
  refine ⟨⟨hAligned.placed hPlaced, hKept.2.1.trans hNoIn, l, rest, ?_, hPlaced.stream ▸ hFrom,
    hSupplies⟩, hKept, ?_⟩
  · rw [hPlaced.token, hSame]
  · exact Nat.le_of_eq (by rw [budget, budget, hPlaced.token, hPlaced.sourceLength])

/-- Looking ahead passes nothing. -/
theorem Fronting.glances (h : s.Fronting ts last) (hLook : s.Glances t) : s.Passed ts last t := by
  obtain ⟨stream, rfl, hFrom⟩ := hLook
  obtain ⟨hAligned, hNoIn, l, rest, hSame, hl, hSupplies⟩ := h
  exact ⟨⟨hAligned.stay rfl rfl fun l hl => ⟨l, hFrom l hl, rfl⟩, hNoIn, l, rest, hSame,
    hFrom l hl, hSupplies⟩, ⟨rfl, rfl, rfl⟩, Nat.le_refl _⟩

end Session

namespace Parse

variable {α : Type} {p : Parse α} {s : Session} {ts : List Token} {a b : Token} {last : Lexer}

/-- A diagnostic leaves the settings and the depth. -/
theorem noting_emit (d : Diagnostic) : Resolves noting (emit d) := by
  intro s
  unfold emit
  dsimp only
  split
  · next h => exact (Bool.and_eq_true_iff.mp h).2
  · exact ⟨rfl, rfl, rfl⟩

theorem noting_modify {f : Session → Session}
    (h : ∀ s : Session, ((f s).layers, (f s).noIn, (f s).nesting) = (s.layers, s.noIn, s.nesting)) :
    Resolves noting (modify f) := by
  refine .modify fun s => ?_
  obtain ⟨hLayers, hRest⟩ := Prod.mk.inj (h s)
  exact ⟨hLayers, Prod.mk.inj hRest⟩

theorem noting_attentive : noting.Attentive where
  warnAt _ _ _ := (noting_emit _).keeps
  noted := by
    rintro s t ⟨_, _, _, rfl⟩
    exact ⟨rfl, rfl, rfl⟩

theorem noting_flushScopes : noting.Keeps flushScopes :=
  noting.read fun _ => noting.bind (noting_modify fun _ => rfl).keeps fun _ =>
    noting.forM fun _ _ => (noting_emit _).keeps

/-- So does what is read between tokens, unless it is a directive. -/
theorem noting_note {r : Result} (h : directive? r = none) : noting.Keeps (note r) := by
  rcases note_of_plain h with hNote | ⟨e, hNote⟩
  · exact hNote ▸ noting.pure ()
  · exact hNote ▸ (noting_emit _).keeps

/-- Consuming a token leads to the one behind it. -/
theorem advance_passed (h : s.Fronting (a :: b :: ts) last) (ha : a.isEnd = false) :
    Resolved (fun t => s.Passed (b :: ts) last t ∧ t.budget < s.budget)
      (fun _ => s.layers.enabled .passfail) (advance s) := by
  -- the lexer behind the row supplies the next token, with nothing between that directs
  have hToken := h.token
  obtain ⟨hAligned, hNoIn, l, rest, hSame, hFrom, hSupplies⟩ := h
  obtain rfl := (List.cons.inj hSame).2
  cases hSupplies with
  | @cons _ m _ rs _ _ hLeads hPlain hRest =>
    have hKeeps : noting.Keeps (arrive s.stream.pullSignificant.2 rs b) := by
      refine noting.bind noting_attentive.checkConsumed fun _ => ?_
      refine noting.bind (noting_modify fun _ => rfl).keeps fun _ => ?_
      refine noting.bind (noting.forM fun r hr => noting_note (hPlain r hr)) fun _ => ?_
      exact noting.bind (noting_modify fun _ => rfl).keeps fun _ =>
        noting_attentive.checkLinesBefore _
    have hKept := hKeeps s
    rw [← advance_eq hFrom hLeads] at hKept
    have hArrives := advance_arrives hFrom hLeads
    have hGains := advance_gains hAligned
    cases hr : advance s with
    | error e t =>
      rw [hr] at hArrives hKept
      cases e with
      | badSyntax => exact hArrives
      | halt => exact hKept
    | ok _ t =>
      rw [hr] at hArrives hGains hKept
      have hLess := budget_lt hGains.1 (hGains.2 (hToken ▸ ha))
      refine ⟨⟨⟨hGains.1.aligned, hKept.2.1.trans hNoIn, m, ts, ?_, hArrives.front, hRest⟩, hKept,
        Nat.le_of_lt hLess⟩, hLess⟩
      rw [hArrives.token]

/-- What stays in place leaves the session before the same tokens. -/
theorem passed_of_placed (h : s.Fronting ts last) (hPlaced : Resolves placed p)
    (hNoting : noting.Keeps p) :
    Resolved (s.Passed ts last) (fun _ => s.layers.enabled .passfail) (p s) := by
  have hPlace := hPlaced s
  have hKept := hNoting s
  cases hr : p s with
  | error e t =>
    rw [hr] at hPlace hKept
    cases e with
    | badSyntax => exact hPlace
    | halt => exact hKept
  | ok a t =>
    rw [hr] at hPlace hKept
    exact h.placed hPlace hKept

/-- One thing after another. -/
theorem passed_bind {β : Type} {f : α → Parse β} {ts' : List Token}
    (h : Resolved (s.Passed ts last) (fun _ => s.layers.enabled .passfail) (p s))
    (hf : ∀ a t, s.Passed ts last t →
    Resolved (t.Passed ts' last) (fun _ => t.layers.enabled .passfail) (f a t)) :
    Resolved (s.Passed ts' last) (fun _ => s.layers.enabled .passfail) ((p >>= f) s) :=
  h.bind (fun a t ht => (hf a t ht).imp (fun _ hu => ht.trans hu) fun _ hu => ht.kept.1 ▸ hu)
    fun _ => id

/-- A remark is a note. -/
theorem noting_remark (h : Resolves remarking p) : noting.Keeps p := by
  refine fun s => (h s).settles.imp ?_ fun _ => And.left
  rintro t ⟨_, rfl⟩
  exact ⟨rfl, rfl, rfl⟩

theorem placed_remark (h : Resolves remarking p) : Resolves placed p := by
  refine fun s => (h s).imp ?_ ?_
  · rintro t ⟨_, rfl⟩
    exact ⟨rfl, rfl, rfl, rfl, rfl⟩
  · rintro t ⟨-, _, rfl⟩
    exact ⟨rfl, rfl, rfl, rfl, rfl⟩

/-- A diagnostic is a remark. -/
theorem remarking_emit (d : Diagnostic) : Resolves remarking (emit d) := by
  intro s
  unfold emit
  dsimp only
  split
  · next h => exact ⟨(Bool.and_eq_true_iff.mp h).2, _, rfl⟩
  · exact ⟨_, rfl⟩

theorem remarking_checkBitwise (op : Punctuator) (t : Token) :
    Resolves remarking (checkBitwise op t) :=
  .ite _ (.read fun _ => .ite _ (remarking_emit _) (.pure ())) (.pure ())

theorem remarking_checkComparison (left right : Summary) (op : Punctuator) (t : Token) :
    Resolves remarking (checkComparison left right op t) := by
  refine .read fun s => ?_
  split
  · exact remarking_emit _
  · exact .pure ()

end Parse

/-! ## What a walk consumes -/

namespace Grammar

/-- A use of a name is its check behind the token. -/
theorem nameUse_eq (name : String) (t : Token) : nameUse name t = (do
    advance
    let s ← get
    checkUse name t (modifiesName s.token && s.context.strict && isRestricted name)
      (s.token.isPunctuator .assign)
    return .startingAt t (.name name)) := by
  refine bind_congr fun _ => bind_congr fun s => ?_
  show (if modifiesName s.token && s.context.strict &&
    isRestricted name then _ else _ : Parse Summary) = _
  unfold checkUse
  split <;> split <;> simp only [bind_assoc]

/-- A use of a name is noted. -/
theorem noting_checkUse (name : String) (t : Token) (violates writes : Bool) :
    noting.Keeps (checkUse name t violates writes) := by
  have hUse :
      noting.Keeps
      (if writes then assign name t.line t.column else reference name t.line t.column) :=
    noting.ite _ (noting.bind (noting_modify fun _ => rfl).keeps fun _ => noting_flushScopes)
      (noting.bind (noting_modify fun _ => rfl).keeps fun _ => noting_flushScopes)
  exact noting.ite _ (noting.bind (noting_emit _).keeps fun _ => hUse) hUse

end Grammar

section Walks

variable {s t : Session} {ts : List Token} {a b : Token} {last : Lexer} {x : Operand}
  {op : Operator}

/-- No operator ends the program. -/
theorem Operator.isEnd_token (op : Operator) : op.token.isEnd = false := by
  have h := op.isOperator
  unfold Token.isEnd
  split
  · next hKind =>
    rw [hKind] at h
    cases h
  · rfl

/-- No operand ends the program. -/
theorem Operand.isEnd_token (x : Operand) : x.token.isEnd = false := by
  rw [Token.isEnd, x.isName]

/-- A name is consumed and used. -/
theorem Operand.nameUse_passes (h : s.Fronting (x.token :: b :: ts) last) :
    Resolved (s.Passed (b :: ts) last) (fun _ => s.layers.enabled .passfail)
      (nameUse x.name x.token s) := by
  rw [nameUse_eq]
  refine passed_bind ((advance_passed h x.isEnd_token).imp (fun _ => And.left) fun _ => id)
    fun _ t ht => ?_
  show Resolved _ _ ((checkUse _ _ _ _ >>= _) t)
  exact passed_bind
    (passed_of_placed ht.fronting (checkUse_placed _ _ _ _) (noting_checkUse _ _ _ _)) fun _ u hu =>
    hu.fronting.placed ⟨rfl, rfl, rfl, rfl, rfl⟩ ⟨rfl, rfl, rfl⟩

/-- Using an operand passes its token. -/
theorem Operand.use_passes (h : s.Fronting (x.token :: b :: ts) last) :
    Resolved (s.Passed (b :: ts) last) (fun _ => s.layers.enabled .passfail) (x.use s) := by
  have hLook : s.Passed (x.token :: b :: ts) last { s with stream := (s.stream.peek 0).2 } :=
    h.glances ⟨_, rfl, fun _ => TokenStream.from_peek 0⟩
  show Resolved _ _ (discard (nameUse x.name x.token) { s with stream := (s.stream.peek 0).2 })
  rw [discard_eq_bind]
  refine (passed_bind (Operand.nameUse_passes hLook.fronting) fun _ u hu => ?_).imp
    (fun _ => hLook.trans) fun _ => id
  exact hu.fronting.placed ⟨rfl, rfl, rfl, rfl, rfl⟩ ⟨rfl, rfl, rfl⟩

/-- An operator is consumed. -/
theorem Operator.consume_passes (h : s.Fronting (op.token :: b :: ts) last) :
    Resolved (fun t => s.Passed (b :: ts) last t ∧ t.budget < s.budget)
      (fun _ => s.layers.enabled .passfail) (op.consume s) := by
  -- the report, the token, the branch: only the token is passed
  have hReport : Resolves remarking op.report := by
    unfold report
    split
    · exact remarking_checkBitwise _ _
    · exact .pure ()
  have hCount (t : Session) : ∃ u : Session, t.Placed u ∧ noting.Goes t u ∧ op.count t =
      .ok () u := by
    have hCases : op.count = modifyMetrics Metrics.addBranch ∨ op.count = pure () := by
      unfold count
      split
      · exact .inl rfl
      · exact .inl rfl
      · exact .inr rfl
    rcases hCases with hRun | hRun
    · exact ⟨{ t with metrics := t.metrics.addBranch }, ⟨rfl, rfl, rfl, rfl, rfl⟩,
        ⟨rfl, rfl, rfl⟩, congrFun hRun t⟩
    · exact ⟨t, ⟨rfl, rfl, rfl, rfl, rfl⟩, ⟨rfl, rfl, rfl⟩, congrFun hRun t⟩
  refine (passed_of_placed h (placed_remark hReport) (noting_remark hReport)).bind
    (fun _ t ht => ?_) fun _ => id
  refine (advance_passed ht.fronting op.isEnd_token).bind (fun _ u hu => ?_) fun _ hu =>
    ht.kept.1 ▸ hu
  obtain ⟨hu, hLess⟩ := hu
  obtain ⟨v, hPlaced, hKept, hRun⟩ := hCount u
  have hv := hu.fronting.placed hPlaced hKept
  rw [hRun]
  exact ⟨ht.trans (hu.trans hv), Nat.lt_of_le_of_lt hv.budget (Nat.lt_of_lt_of_le hLess ht.budget)⟩

/-- Comparing two sides is a remark. -/
theorem Operator.remarking_compare {check : ComparisonCheck}
    (hCheck : ∀ left right p t, Resolves remarking (check left right p t)) (op : Operator)
    (left right : Summary) : Resolves remarking (op.compare check left right) := by
  unfold compare
  split
  · exact hCheck _ _ _ _
  · exact .pure ()

/-- A level deeper, a session stands where it stood. -/
theorem Session.Fronting.below (h : s.Fronting ts last) (nesting : Nat) :
    Session.Fronting { s with nesting } ts last :=
  ⟨h.aligned.placed ⟨rfl, rfl, rfl, rfl, rfl⟩, h.noIn, h.ahead⟩

/-- The tokens of a tree do not end before they start. -/
theorem Grouping.exists_tokens (g : Grouping) (b : Token) (ts : List Token) :
    ∃ c cs, g.tokens ++ b :: ts = c :: cs := by
  rw [g.tokens_eq]
  exact ⟨_, _, rfl⟩

/-- What runs one level deeper passes the tokens, unless it lies too deep. -/
theorem deeper_passes {α : Type} {p : Parse α} {depth : Nat} (hNesting : s.nesting ≤ maxNesting)
    (h : s.nesting < maxNesting →
      Resolved (fun t => Session.Passed { s with nesting := s.nesting + 1 } ts last t ∧
        s.nesting + 1 + depth ≤ maxNesting)
        (fun _ => s.layers.enabled .passfail ∨ maxNesting < s.nesting + 1 + depth)
        (p { s with nesting := s.nesting + 1 })) :
    Resolved (fun t => s.Passed ts last t ∧ s.nesting + (depth + 1) ≤ maxNesting)
      (fun _ => s.layers.enabled .passfail ∨ maxNesting < s.nesting + (depth + 1))
        (p.deeper s) := by
  rw [Nat.add_comm depth, ← Nat.add_assoc]
  -- at the limit the guard strikes, whatever the depth of the row
  by_cases hGuard : s.nesting < maxNesting
  · have hInner := h hGuard
    rw [deeper_eq hGuard]
    show Resolved _ _ (p.ensuring _ { s with nesting := s.nesting + 1 })
    cases hr : p { s with nesting := s.nesting + 1 } with
    | ok _ t =>
      rw [hr] at hInner
      rw [ensuring_of_ok hr]
      obtain ⟨ht, hSmall⟩ := hInner
      refine ⟨⟨ht.fronting.below _, ⟨ht.kept.1, ht.kept.2.1, ?_⟩, ht.budget⟩, hSmall⟩
      exact congrArg (· - 1) ht.kept.2.2
    | error e t =>
      rw [hr] at hInner
      rw [ensuring_of_error hr]
      cases e with
      | badSyntax => exact hInner
      | halt => exact hInner
  · have hLast : s.nesting = maxNesting := by omega
    rw [deeper_eq_tooDeep hLast]
    exact .inr (by omega)

/-- An operator takes its right operand, unless that lies too deep. -/
theorem Operator.take_passes {check : ComparisonCheck}
    (hCheck : ∀ left right p t, Resolves remarking (check left right p t)) (left : Summary)
    {right : Grouping}
    (hRight : ∀ u : Session, u.Fronting (right.tokens ++ b :: ts) last → u.nesting ≤ maxNesting →
      Resolved (fun v => u.Passed (b :: ts) last v ∧ u.nesting + right.depth ≤ maxNesting)
        (fun _ => u.layers.enabled .passfail ∨ maxNesting < u.nesting + right.depth)
          (right.walk check u))
    (h : s.Fronting (op.token :: (right.tokens ++ b :: ts)) last)
      (hNesting : s.nesting ≤ maxNesting) :
    Resolved (fun t => (s.Passed (b :: ts) last t ∧ t.budget < s.budget) ∧
      s.nesting + (right.depth + 1) ≤ maxNesting)
      (fun _ => s.layers.enabled .passfail ∨ maxNesting < s.nesting + (right.depth + 1))
      (op.take check left right.summary (right.walk check) s) := by
  obtain ⟨c, cs, hTokens⟩ := right.exists_tokens b ts
  refine (Operator.consume_passes (hTokens ▸ h)).bind (fun _ t ht => ?_) fun _ => .inl
  obtain ⟨ht, hLess⟩ := ht
  rw [← hTokens] at ht
  have hLayers : t.layers = s.layers := ht.kept.1
  have hLevel : t.nesting = s.nesting := ht.kept.2.2
  have hDeeper := deeper_passes (hLevel ▸ hNesting) fun hGuard =>
    hRight _ (ht.fronting.below (t.nesting + 1)) hGuard
  rw [hLayers, hLevel] at hDeeper
  refine hDeeper.bind (fun _ u hu => ?_) fun _ => id
  obtain ⟨hu, hSmall⟩ := hu
  have hCompare := Operator.remarking_compare hCheck op left right.summary
  refine (passed_of_placed hu.fronting (placed_remark hCompare) (noting_remark hCompare)).imp
    (fun v hv => ?_) fun _ hStop => .inl ((ht.trans hu).kept.1 ▸ hStop)
  have hAll := hu.trans hv
  exact ⟨⟨ht.trans hAll, Nat.lt_of_le_of_lt hAll.budget hLess⟩, hSmall⟩

/-- By induction on the tree: a walk consumes the tokens of the tree, unless right operands lie too
deep in one another. -/
theorem walk_passes {check : ComparisonCheck}
    (hCheck : ∀ left right p t, Resolves remarking (check left right p t))
    (g : Grouping) (h : s.Fronting (g.tokens ++ b :: ts) last) (hNesting : s.nesting ≤ maxNesting) :
    Resolved (fun t => s.Passed (b :: ts) last t ∧ s.nesting + g.depth ≤ maxNesting)
      (fun _ => s.layers.enabled .passfail ∨ maxNesting < s.nesting + g.depth)
        (g.walk check s) := by
  induction g generalizing s b ts with
  | operand x => exact (Operand.use_passes h).imp (fun _ ht => ⟨ht, hNesting⟩) fun _ => .inl
  | binary op left right ihLeft ihRight =>
    have hMax : (Grouping.binary op left right).depth = max left.depth (right.depth + 1) := rfl
    rw [Grouping.tokens, List.append_assoc, List.cons_append] at h
    refine (ihLeft h hNesting).bind (fun _ t ht => ?_) fun _ hStop => hStop.imp_right fun _ => by
      omega
    obtain ⟨ht, hLeft⟩ := ht
    have hLevel : t.nesting = s.nesting := ht.kept.2.2
    have hTake :=
      Operator.take_passes hCheck left.summary (fun u => ihRight) ht.fronting (hLevel ▸ hNesting)
    rw [hLevel, ht.kept.1] at hTake
    refine hTake.imp (fun u hu => ?_) fun _ hStop => hStop.imp_right fun _ => by omega
    obtain ⟨⟨hu, -⟩, hSmall⟩ := hu
    exact ⟨ht.trans hu, by omega⟩

/-! ## Operands -/

/-- The token ends an operand before it: it is an operator, or the semicolon behind the row. -/
def EndsOperand (t : Token) :
    Prop := (Level.ofKind? t.kind).isSome ∨ t.kind = .punctuator .semicolon

/-- An operator ends the operand before it. -/
theorem Operator.endsOperand (op : Operator) :
    EndsOperand op.token := .inl (by rw [op.isOperator]; rfl)

/-- Whether an operator of a row stands at the token that a parser for tighter operators leaves
alone. -/
def Below (power : Nat) (t : Token) : Prop :=
  ∀ level, Level.ofKind? t.kind = some level → level.leftPower < power

/-- Where a weak operator ends an operand, a weaker one does. -/
theorem Below.mono {power power' : Nat} (h : Below power b) (hLess : power ≤ power') :
    Below power' b :=
  fun level hLevel => Nat.lt_of_lt_of_le (h level hLevel) hLess

namespace Grammar

variable {inner : Nested}

/-- At the end of an operand there is no link. -/
theorem chainLink_eq (h : EndsOperand s.token) (e : Summary) :
    chainLink inner true e s = .ok (.done e) s := by
  rw [chainLink, bind_of_ok (show current s = .ok s.token s from rfl)]
  unfold EndsOperand at h
  cases hKind : s.token.kind with
  | punctuator p =>
    rw [hKind] at h
    cases p <;> first
      | rfl
      | rcases h with h | h <;> cases h
  | template part cooked =>
    rw [hKind] at h
    rcases h with h | h <;> cases h
  | _ => rfl

/-- Nor a chain. -/
theorem chain_eq (h : EndsOperand s.token) (hs : s.Aligned) (e : Summary) :
    chain inner true e s = .ok e s := by
  show rounds (chainLink inner true) s.budget e s = _
  obtain ⟨n, hn⟩ := Nat.exists_eq_succ_of_ne_zero (Nat.ne_of_gt hs.budget_pos)
  rw [hn, Nat.succ_eq_add_one, rounds, bind_of_ok (chainLink_eq h e)]
  rfl

/-- A name before such a token is an operand by itself. -/
theorem operand_eq (h : s.Fronting (x.token :: b :: ts) last) (hb : EndsOperand b) :
    operand inner s =
      (do discard (peekIs (·.isPunctuator .arrow)); nameUse x.name x.token : Parse Summary) s := by
  have hToken := h.token
  have hKind : s.token.kind = .identifier x.name := hToken ▸ x.isName
  obtain ⟨hAligned, -, l, rest, hSame, hFrom, hSupplies⟩ := h
  obtain rfl := (List.cons.inj hSame).2
  -- what follows the name is no arrow, and the name no `async`: the form is that of a name
  cases hSupplies with
  | @cons _ m _ rs _ _ hLeads hPlain hRest =>
  have hArrow : b.isPunctuator .arrow = false := by
    unfold Token.isPunctuator
    rcases hb with hb | hb
    · split
      · next p hp =>
        rw [hp] at hb
        cases p <;> first | rfl | cases hb
      · rfl
    · rw [hb]
      rfl
  have hPeek :
      peekIs (·.isPunctuator .arrow) s = .ok false { s with stream := (s.stream.peek 0).2 } := by
    show EStateM.Result.ok ((s.stream.peek 0).1.any fun t => t.isPunctuator .arrow)
      { s with stream := (s.stream.peek 0).2 } = _
    rw [TokenStream.peek_of_leads hFrom hLeads, Option.any_some, hArrow]
  have hAsync : ¬(x.name == "async") = true := fun hName => x.isPlain (by simp [eq_of_beq hName])
  have hClass : s.token.isKeyword .classWord = false := by
    rw [Token.isKeyword, hKind]
  obtain ⟨n, hn⟩ := Nat.exists_eq_succ_of_ne_zero (Nat.ne_of_gt hAligned.budget_pos)
  show unfolded (operandForm inner) s.budget s = _
  rw [hn]
  show (if s.token.isKeyword .classWord then _ else simpleOperand inner : Parse Summary) s = _
  rw [hClass, if_neg Bool.false_ne_true, simpleOperand,
    bind_of_ok (show current s = .ok s.token s from rfl), hKind]
  show identifierForm inner x.name s.token s = _
  rw [identifierForm, bind_of_ok hPeek, if_neg Bool.false_ne_true, if_neg hAsync]
  exact congrArg (fun t => nameUse x.name t { s with stream := (s.stream.peek 0).2 }) hToken

/-- A name has its own form, whatever is found of it. -/
theorem nameUse_value {name : String} {token : Token} {e : Summary}
    (hUse : nameUse name token s = .ok e t) : e = .startingAt token (.name name) := by
  rw [nameUse_eq] at hUse
  obtain ⟨_, u, -, hUse⟩ := exists_of_bind hUse
  obtain ⟨_, v, -, hUse⟩ := exists_of_bind hUse
  obtain ⟨_, w, -, hUse⟩ := exists_of_bind hUse
  exact (EStateM.Result.ok.inj hUse).1.symm

/-- A name before such a token is used, and that is all. -/
theorem unary_eq (h : s.Fronting (x.token :: b :: ts) last) (hb : EndsOperand b) :
    unary inner s = (do x.use; return .startingAt x.token (.name x.name) : Parse Summary) s := by
  have hKind : s.token.kind = .identifier x.name := h.token ▸ x.isName
  -- a name is none of the words that begin a unary expression
  have hUnary : unary inner s = (do chain inner true (← operand inner) : Parse Summary) s := by
    rw [unary, bind_of_ok (show current s = .ok s.token s from rfl)]
    refine congrFun ?_ s
    rw [hKind]
    split
    all_goals first
      | rfl
      | next hOther => cases hOther
      | next hOther =>
        exact absurd (TokenKind.identifier.inj hOther) fun hName => x.isPlain (by simp [hName])
  have hOperand : operand inner s = _ := operand_eq h hb
  have hUse := Operand.use_passes h
  -- the peek for an arrow only fills the buffer
  have hWalk :
      x.use s = discard (nameUse x.name x.token) { s with stream := (s.stream.peek 0).2 } := rfl
  replace hOperand :
    operand inner s = nameUse x.name x.token { s with stream := (s.stream.peek 0).2 } := hOperand
  rw [hUnary]
  cases hRun : nameUse x.name x.token { s with stream := (s.stream.peek 0).2 } with
  | error e t =>
    rw [bind_of_error (hOperand.trans hRun), bind_of_error (hWalk.trans (bind_of_error hRun))]
  | ok e t =>
    have hDone : x.use s = .ok () t := hWalk.trans (bind_of_ok hRun)
    rw [hDone] at hUse
    rw [bind_of_ok (hOperand.trans hRun), bind_of_ok hDone,
      chain_eq (hUse.fronting.token ▸ hb) hUse.fronting.aligned, nameUse_value hRun]
    rfl

/-! ## Operators -/

variable {check : ComparisonCheck} {left : Summary} {least : Nat}

/-- Applies an operator to what is on its left. -/
def applied (check : ComparisonCheck) (inner : Nested) (op : Operator) (left : Summary) :
    Parse Summary := do
  op.consume
  let right ← inner.expression op.level.rightPower
  op.compare check left right
  return left.within op.form

/-- Whether the expression is a text. -/
def isText : Form → Bool
  | .text _ => true
  | _ => false

/-- The sum of what is no text is no text. -/
theorem sum_eq (h : isText left.form = false) (right : Summary) :
    sum left right = pure (left.within (.binary .plus)) := by
  unfold sum
  split
  · next hLeft _ =>
    rw [hLeft] at h
    cases h
  · rfl

/-- One case for each punctuator. -/
theorem operatorStepWith_eq {p : Punctuator} (op : Operator) (hKind : op.token.kind = .punctuator p)
    (hText : isText left.form = false) :
    operatorStepWith check inner left p op.level.rightPower op.token =
      applied check inner op left := by
  obtain ⟨t, level, hLevel⟩ := op
  have hSum : sum left = fun right => pure (left.within (.binary .plus)) :=
    funext fun right => sum_eq hText right
  dsimp only at hKind
  rw [hKind] at hLevel
  unfold applied Operator.consume Operator.report Operator.count Operator.compare
    Operator.comparison? Operator.form
  simp only [hKind]
  cases p <;> cases hLevel <;>
    simp only [operatorStepWith, operatorStep, rightOperand, discard_eq_bind, bind_assoc, pure_bind,
      hSum] <;> rfl

/-- The operators that are words say nothing about their operands. -/
theorem applied_word {word : Keyword} (op : Operator) (hKind : op.token.kind = .keyword word) :
    applied check inner op left =
      (do discard (rightOperand inner op.level.rightPower); return left.within .other) := by
  obtain ⟨t, level, hLevel⟩ := op
  dsimp only at hKind
  rw [hKind] at hLevel
  unfold applied Operator.consume Operator.report Operator.count Operator.compare
    Operator.comparison? Operator.form
  simp only [hKind]
  cases word <;> cases hLevel <;> simp only [rightOperand, discard_eq_bind, bind_assoc, pure_bind]

/-- One case for each kind of operator. -/
theorem operatorRoundWith_eq (op : Operator) (hToken : s.token = op.token) (hNoIn : s.noIn = false)
    (hLeast : least ≤ op.level.leftPower) (hText : isText left.form = false) :
    operatorRoundWith check inner least left s =
      (do return .again (← applied check inner op left) : Parse _) s := by
  have hPower : Power.ofToken? s.token s.noIn = some (op.level.leftPower, op.level.rightPower) := by
    rw [hNoIn, hToken]
    exact Level.ofToken?_eq op.isOperator
  show (match Power.ofToken? s.token s.noIn with
    | none => pure (.done left)
    | some (leftPower, rightPower) =>
      if leftPower < least then pure (.done left)
      else match s.token.kind with
        | .punctuator p =>
          if p.isUpdate && s.token.newlineBefore then pure (.done left)
          else do return .again (← operatorStepWith check inner left p rightPower s.token)
        | _ => do
          discard (rightOperand inner rightPower)
          return .again (left.within .other) : Parse (Round Summary)) s = _
  -- the power is that of the operator's level, which is at least `least`
  rw [hPower]
  dsimp only
  rw [if_neg (Nat.not_lt.mpr hLeast), hToken]
  have hOperator := op.isOperator
  cases hKind : op.token.kind with
  | punctuator p =>
    have hUpdate : p.isUpdate = false := by
      rw [hKind] at hOperator
      cases p <;> first | rfl | cases hOperator
    dsimp only
    rw [hUpdate, Bool.false_and, if_neg Bool.false_ne_true, operatorStepWith_eq op hKind hText]
  | keyword word =>
    dsimp only
    rw [applied_word op hKind, bind_assoc]
    rfl
  | _ =>
    rw [hKind] at hOperator
    cases hOperator

/-- A looser operator, or the semicolon, ends the loop. -/
theorem operatorRoundWith_done (hEnds : EndsOperand s.token) (hNoIn : s.noIn = false)
    (hBelow : Below least s.token) :
    operatorRoundWith check inner least left s = .ok (.done left) s := by
  have hPower : Power.ofToken? s.token s.noIn = none ∨
      ∃ level, Level.ofKind? s.token.kind = some level ∧
        Power.ofToken? s.token s.noIn = some (level.leftPower, level.rightPower) := by
    rw [hNoIn]
    rcases hEnds with hEnds | hEnds
    · obtain ⟨level, hLevel⟩ := Option.isSome_iff_exists.mp hEnds
      exact .inr ⟨level, hLevel, Level.ofToken?_eq hLevel⟩
    · refine .inl ?_
      rw [Power.ofToken?, hEnds]
      rfl
  show (match Power.ofToken? s.token s.noIn with
    | none => pure (.done left)
    | some (leftPower, rightPower) =>
      if leftPower < least then pure (.done left) else _ : Parse (Round Summary)) s = _
  rcases hPower with hPower | ⟨level, hLevel, hPower⟩
  · rw [hPower]
    rfl
  · rw [hPower]
    show (if level.leftPower < least then pure (.done left) else _ : Parse (Round Summary)) s = _
    rw [if_pos (hBelow level hLevel)]
    rfl

/-! ## Expressions -/

/-- A loop did what leads to the session, and goes on from there with at least as many rounds as are
left. -/
def Continues (step : Summary → Parse (Round Summary)) (e : Summary) :
    EStateM.Result Abort Session Unit → EStateM.Result Abort Session Summary → Prop
  | .ok _ t, r => ∃ k, t.budget ≤ k ∧ r = rounds step k e t
  | .error a t, r => r = .error a t

/-- Deeper than the limit the guard strikes. -/
theorem deeper_of_guarded {α : Type} (p : Parse α) (h : ¬s.nesting < maxNesting) :
    p.deeper s = tooDeep s := by
  show (if s.nesting < maxNesting then p.below else tooDeep) s = _
  rw [if_neg h]

/-- A result that is known beforehand can be returned inside or outside. -/
theorem deeper_return {α : Type} (p : Parse Unit) (a : α) (s : Session) :
    (do p; return a : Parse α).deeper s = (do p.deeper; return a : Parse α) s := by
  by_cases hGuard : s.nesting < maxNesting
  · cases hRun : p { s with nesting := s.nesting + 1 } with
    | ok _ t =>
      have hBelow : p.deeper s = .ok () { t with nesting := t.nesting - 1 } :=
        (deeper_eq hGuard p).trans (ensuring_of_ok hRun)
      rw [deeper_eq hGuard, bind_of_ok hBelow]
      exact ensuring_of_ok (bind_of_ok hRun)
    | error e t =>
      have hBelow : p.deeper s = .error e { t with nesting := t.nesting - 1 } :=
        (deeper_eq hGuard p).trans (ensuring_of_error hRun)
      rw [deeper_eq hGuard, bind_of_error hBelow]
      exact ensuring_of_error (bind_of_error hRun)
  · have hStops : p.deeper s = .error .halt _ := deeper_of_guarded p hGuard
    rw [deeper_of_guarded _ hGuard, bind_of_error hStops]
    rfl

/-- Above the limit only the run one level down matters. -/
theorem deeper_congr {α : Type} {p q : Parse α} (h : s.nesting < maxNesting →
    p { s with nesting := s.nesting + 1 } = q { s with nesting := s.nesting + 1 }) : p.deeper s =
      q.deeper s := by
  by_cases hGuard : s.nesting < maxNesting
  · rw [deeper_eq hGuard, deeper_eq hGuard]
    show p.ensuring _ { s with nesting := s.nesting + 1 } =
      q.ensuring _ { s with nesting := s.nesting + 1 }
    rw [ensuring, ensuring, h hGuard]
  · rw [deeper_of_guarded p hGuard, deeper_of_guarded q hGuard]

/-- What the loop over operators did and goes on with, before such a token. -/
abbrev Operates (check : ComparisonCheck) (n least : Nat) (g : Grouping) (s : Session) : Prop :=
  Continues (operatorRoundWith check (levelsWith check n) least) g.summary (g.walk check s)
    ((do
      loop (operatorRoundWith check (levelsWith check n) least)
        (← unary (levelsWith check n)) : Parse Summary) s)

/-- If the loop does what the walk does, and stops behind it, the expression is the walk. -/
theorem expression_eq {g : Grouping} {n power : Nat}
    (hCheck : ∀ left right p t, Resolves remarking (check left right p t))
    (hOperates : ∀ m (u : Session), u.Fronting (g.tokens ++ b :: ts) last → u.nesting ≤ maxNesting →
      maxNesting ≤ m + u.nesting → Operates check m power g u)
    (h : s.Fronting (g.tokens ++ b :: ts) last) (hb : EndsOperand b) (hBelow : Below power b)
    (hNesting : s.nesting ≤ maxNesting) (hLevels : maxNesting ≤ n + s.nesting) :
    (levelsWith check n).expression power s =
    (do (g.walk check).deeper; return g.summary : Parse Summary) s := by
  rw [← deeper_return]
  -- with no level left both sides halt; else the loop ends at `b`, which binds too weakly
  cases n with
  | zero =>
    rw [deeper_of_guarded _ (by omega)]
    rfl
  | succ n =>
    refine deeper_congr fun hGuard => ?_
    have hFronting := h.below (s.nesting + 1)
    have hRun : Operates check n power g { s with nesting := s.nesting + 1 } :=
      hOperates n _ hFronting hGuard (by show maxNesting ≤ n + (s.nesting + 1); omega)
    have hPasses := walk_passes hCheck g hFronting hGuard
    unfold Operates at hRun
    cases hWalk : g.walk check { s with nesting := s.nesting + 1 } with
    | error e t =>
      rw [hWalk] at hRun
      rw [bind_of_error hWalk]
      exact hRun
    | ok _ t =>
      rw [hWalk] at hRun hPasses
      obtain ⟨k, hBudget, hLoop⟩ := hRun
      obtain ⟨⟨ht, -⟩, -⟩ := hPasses
      obtain ⟨k, rfl⟩ :=
        Nat.exists_eq_succ_of_ne_zero
          (Nat.ne_of_gt (Nat.lt_of_lt_of_le ht.aligned.budget_pos hBudget))
      have hDone : operatorRoundWith check (levelsWith check n) power g.summary t =
          .ok (.done g.summary) t :=
        operatorRoundWith_done (ht.token ▸ hb) ht.noIn (ht.token ▸ hBelow)
      rw [bind_of_ok hWalk]
      exact hLoop.trans (bind_of_ok hDone)

/-- No tree is a text. -/
theorem isText_summary (g : Grouping) : isText g.summary.form = false := by
  cases g with
  | operand x => rfl
  | binary op left right =>
    show isText op.form = false
    unfold Operator.form
    split <;> rfl

/-- An operator is applied to what is on its left as the walk takes its right operand. -/
theorem applied_eq {right : Grouping}
    (hRight : ∀ t, op.consume s = .ok () t → inner.expression op.level.rightPower t =
      (do (right.walk check).deeper; return right.summary : Parse Summary) t) :
    applied check inner op left s =
      (do
        op.take check left right.summary (right.walk check)
        return left.within op.form : Parse Summary) s := by
  unfold applied Operator.take
  simp only [bind_assoc]
  cases hConsume : op.consume s with
  | error e t => rw [bind_of_error hConsume, bind_of_error hConsume]
  | ok _ t =>
    have hOperand := hRight t hConsume
    rw [bind_of_ok hConsume, bind_of_ok hConsume]
    cases hWalk : (right.walk check).deeper t with
    | error e u => rw [bind_of_error (hOperand.trans (bind_of_error hWalk)), bind_of_error hWalk]
    | ok _ u =>
      rw [bind_of_ok (hOperand.trans (bind_of_ok hWalk)), bind_of_ok hWalk]

/-- By induction on the tree: the loop takes the operators of the left operand, then the last one,
whose right operand is an expression of tighter operators. -/
theorem operators_continues {g : Grouping} {n least : Nat}
    (hCheck : ∀ left right p t, Resolves remarking (check left right p t)) (hg : g.Grouped)
    (h : s.Fronting (g.tokens ++ b :: ts) last) (hb : EndsOperand b)
    (hLeast : ∀ root ∈ g.root?, least ≤ root.level.leftPower)
    (hBelow : ∀ root ∈ g.root?, Below root.level.rightPower b)
    (hNesting : s.nesting ≤ maxNesting) (hLevels : maxNesting ≤ n + s.nesting) :
    Operates check n least g s := by
  unfold Operates
  -- by induction on the tree: the left subtree, one round for the operator, the right one deeper
  induction hg generalizing s b ts n least with
  | operand x =>
    have hUnary : unary (levelsWith check n) s = _ := unary_eq h hb
    have hPasses := Operand.use_passes h
    show Continues _ _ (x.use s) _
    cases hUse : x.use s with
    | error e t => exact bind_of_error (hUnary.trans (bind_of_error hUse))
    | ok _ t =>
      rw [bind_of_ok (hUnary.trans (bind_of_ok hUse))]
      exact ⟨t.budget, Nat.le_refl _, rfl⟩
  | @binary op left right hl hr hLeft hRight ihLeft ihRight =>
    rw [Grouping.tokens, List.append_assoc, List.cons_append] at h
    -- the operator ends the left subtree, since every root on its spine binds tighter
    have hLeftBelow (root) (hRoot : root ∈ left.root?) : Below root.level.rightPower op.token := by
      intro level hLevel
      obtain rfl : op.level = level := Option.some.inj (op.isOperator.symm.trans hLevel)
      exact Level.takesLeft_iff.mp (hLeft root hRoot)
    have hLeftLeast (root) (hRoot : root ∈ left.root?) : least ≤ root.level.leftPower := by
      have hTight := Level.takesLeft_iff.mp (hLeft root hRoot)
      have hNext := root.level.rightPower_le_succ
      have hOp := hLeast op rfl
      omega
    have hRun := ihLeft h op.endsOperand hLeftLeast hLeftBelow hNesting hLevels
    have hPasses := walk_passes hCheck left h hNesting
    show Continues _ _
      ((left.walk check >>= fun _ => op.take check left.summary right.summary (right.walk check)) s)
      _
    cases hWalk : left.walk check s with
    | error e t =>
      rw [hWalk] at hRun
      rw [bind_of_error hWalk]
      exact hRun
    | ok _ t =>
      rw [hWalk] at hRun hPasses
      obtain ⟨k, hBudget, hLoop⟩ := hRun
      obtain ⟨⟨ht, hKept, -⟩, -⟩ := hPasses
      obtain ⟨k, rfl⟩ :=
        Nat.exists_eq_succ_of_ne_zero
          (Nat.ne_of_gt (Nat.lt_of_lt_of_le ht.aligned.budget_pos hBudget))
      have hLevel : t.nesting = s.nesting := hKept.2.2
      rw [← hLevel] at hNesting hLevels
      rw [bind_of_ok hWalk]
      -- the right subtree is an expression of its own, read with the operator's right power
      have hTake :=
        Operator.take_passes hCheck left.summary
          (fun u hu => walk_passes hCheck right hu) ht hNesting
      have hRound : operatorRoundWith check (levelsWith check n) least left.summary t = _ :=
        operatorRoundWith_eq op ht.token ht.noIn (hLeast op rfl) (isText_summary left)
      have hApplied : applied check (levelsWith check n) op left.summary t =
          (do
            op.take check left.summary right.summary (right.walk check)
            return left.summary.within op.form) t := by
        refine applied_eq fun u hConsume => ?_
        obtain ⟨c, cs, hTokens⟩ := right.exists_tokens b ts
        have hConsumed := Operator.consume_passes (hTokens ▸ ht)
        rw [hConsume, ← hTokens] at hConsumed
        obtain ⟨hu, hDeeper⟩ : u.Fronting (right.tokens ++ b :: ts) last ∧ u.nesting = t.nesting :=
          ⟨hConsumed.1.fronting, hConsumed.1.kept.2.2⟩
        refine expression_eq hCheck
          (fun m v hv hv' hv'' => ihRight hv hb (fun root hRoot => ?_)
          (fun root hRoot => ?_) hv' hv'')
          hu hb (hBelow op rfl) (hDeeper ▸ hNesting) (hDeeper ▸ hLevels)
        · exact Level.takesRight_iff.mp (hRight root hRoot)
        · refine (hBelow op rfl).mono
            (Nat.le_trans (Level.takesRight_iff.mp (hRight root hRoot)) ?_)
          exact root.level.leftPower_le_rightPower
      cases hRest : op.take check left.summary right.summary (right.walk check) t with
      | error e u =>
        exact hLoop.trans
          (bind_of_error (hRound.trans (bind_of_error (hApplied.trans (bind_of_error hRest)))))
      | ok _ u =>
        rw [hRest] at hTake
        refine ⟨k, Nat.le_of_lt_succ (Nat.lt_of_lt_of_le hTake.1.2 hBudget), ?_⟩
        exact hLoop.trans
          (bind_of_ok (hRound.trans (bind_of_ok (hApplied.trans (bind_of_ok hRest)))))

/-- Names with operators between them are one expression, up to the semicolon. They have one tree in
which the operators group by their levels, and parsing the expression is a walk through it: whatever
a check of comparisons notes, it is called with the two sides of each comparison when both are read.
If the right operands do not lie too deep in one another, exactly these tokens are consumed, and the
result is what the last operator makes of it; otherwise the nesting guard halts the run. -/
theorem expression_grouped {rest : List (Operator × Operand)} {next : Token} {n : Nat}
    (h : s.Fronting ((x.token :: rest.flatMap fun p => [p.1.token, p.2.token]) ++ [next]) last)
    (hNext : next.kind = .punctuator .semicolon) (hOptions : s.layers.enabled .passfail = false)
    (hNesting : s.nesting ≤ maxNesting) (hLevels : maxNesting ≤ n + s.nesting) :
    ((group x rest).Grouped ∧ (group x rest).first = x ∧ (group x rest).rest = rest ∧
        ∀ g : Grouping, g.Grouped → g.first = x → g.rest = rest → g = group x rest) ∧
      (∀ check : ComparisonCheck, (∀ left right p t, Resolves remarking (check left right p t)) →
        (levelsWith check n).wholeExpression s =
          (do ((group x rest).walk check).deeper; return (group x rest).summary : Parse Summary)
            s) ∧
      levelsWith checkComparison n = levels n ∧
      if s.nesting + (group x rest).depth < maxNesting then
        ∃ t, (levels n).wholeExpression s = .ok (group x rest).summary t ∧ t.token =
          next ∧ t.stream.From last
      else ∃ t, (levels n).wholeExpression s = .error .halt t := by
  have hGrouped := Grouping.grouped_group x rest
  have hEnds : EndsOperand next := .inr hNext
  -- a semicolon binds nothing, so the row ends there
  have hLoose (power : Nat) : Below power next := by
    intro level hLevel
    rw [hNext] at hLevel
    cases hLevel
  rw [← Grouping.tokens_group] at h
  have hRun (check : ComparisonCheck)
    (hCheck : ∀ left right p t, Resolves remarking (check left right p t)) :
      (levelsWith check n).wholeExpression s =
        (do ((group x rest).walk check).deeper; return (group x rest).summary : Parse Summary) s :=
    expression_eq hCheck (fun m u hu hDepth hRest => operators_continues hCheck hGrouped hu hEnds
      (fun _ _ => Nat.zero_le _) (fun _ _ => hLoose _) hDepth hRest) h hEnds
        (hLoose 0) hNesting hLevels
  refine ⟨⟨hGrouped, Grouping.first_group x rest, Grouping.rest_group x rest,
    fun g hg hFirst hRest => ?_⟩, hRun, levelsWith_checkComparison n, ?_⟩
  · rw [← Grouping.group_of_grouped hg, hFirst, hRest]
  -- with the real check the walk passes the row, or halts where it is too deep
  have hReal := hRun checkComparison remarking_checkComparison
  rw [levelsWith_checkComparison] at hReal
  have hPasses := deeper_passes hNesting fun hGuard =>
    walk_passes remarking_checkComparison (group x rest) (h.below (s.nesting + 1)) hGuard
  rw [hOptions] at hPasses
  rw [hReal]
  cases hWalk : ((group x rest).walk checkComparison).deeper s with
  | ok _ t =>
    rw [hWalk] at hPasses
    obtain ⟨ht, hShallow⟩ := hPasses
    obtain ⟨-, -, l, more, hSame, hFrom, hSupplies⟩ := ht.fronting
    obtain ⟨hToken, rfl⟩ := List.cons.inj hSame
    cases hSupplies
    rw [if_pos (by omega)]
    exact ⟨t, bind_of_ok hWalk, hToken.symm, hFrom⟩
  | error e t =>
    rw [hWalk] at hPasses
    cases e with
    | badSyntax => exact hPasses.elim
    | halt =>
      have hDeep := hPasses.resolve_left Bool.false_ne_true
      rw [if_neg (by omega)]
      exact ⟨t, bind_of_error hWalk⟩

end Grammar

end Walks

/-! ## A comparison with a sum -/

namespace TokenStream

/-- The next significant tokens, unless there are directives between them. -/
def upcoming : Nat → TokenStream → Option (List Token)
  | 0, _ => some []
  | n + 1, stream =>
    if stream.pullSignificant.1.all fun r => (directive? r).isNone then
      ((stream.pullSignificant.1.getLast?.bind significant?).getD .origin :: ·) <$> upcoming n
        stream.pullSignificant.2
    else none

/-- The tokens to come are those the lexer supplies. -/
theorem exists_supplies {stream : TokenStream} {l : Lexer} {n : Nat} {ts : List Token}
    (hFrom : stream.From l) (h : stream.upcoming n = some ts) : ∃ last, l.Supplies ts last := by
  -- by induction on the number of tokens
  induction n generalizing stream l ts with
  | zero =>
    obtain rfl := Option.some.inj h
    exact ⟨l, .nil l⟩
  | succ n ih =>
    obtain ⟨rs, t, m, hLeads⟩ := exists_leads l
    obtain ⟨hResults, hAfter, -⟩ := pullSignificant_spec hFrom hLeads
    rw [upcoming, hResults, hLeads.last] at h
    split at h
    · next hAll =>
      obtain ⟨later, hLater, rfl⟩ := Option.map_eq_some_iff.mp h
      obtain ⟨last, hSupplies⟩ := ih hAfter hLater
      have hPlain (r) (hr : r ∈ rs) : directive? r = none :=
        Option.isNone_iff_eq_none.mp (List.all_eq_true.mp hAll r hr)
      exact ⟨last, .cons hLeads hPlain hSupplies⟩
    · cases h

end TokenStream

namespace Grammar

/-- Whether the text starts with a name that is compared with a sum of names. -/
def comparesSum (source : String) : Bool :=
  match advance (.start source {} none) with
  | .ok _ s => match s.stream.upcoming 5 with
    | some [op, y, op', z, next] =>
      s.token.identifier? = some "a" && Level.ofKind? op.kind =
        some .equality && y.identifier? = some "b" &&
        Level.ofKind? op'.kind = some .addition && z.identifier? =
          some "c" && next.isPunctuator .semicolon &&
        !s.noIn && s.nesting = 0 && !s.layers.enabled .passfail
    | _ => false
  | .error _ _ => false

theorem kind_of_identifier {t : Token} {name : String} (h : t.identifier? = some name) :
    t.kind = .identifier name := by
  unfold Token.identifier? at h
  split at h
  · next hKind => rw [hKind, Option.some.inj h]
  · cases h

/-- The sum is the right side of the comparison. -/
theorem expression_grouped_sum :
    ∃ (s : Session) (last : Lexer) (x y z : Operand) (op op' : Operator) (next : Token),
      s.Fronting [x.token, op.token, y.token, op'.token, z.token, next] last ∧
      group x [(op, y), (op', z)] =
        .binary op (.operand x) (.binary op' (.operand y) (.operand z)) ∧
      ∃ t, (levels maxNesting).wholeExpression s = .ok (group x [(op, y), (op', z)]).summary t ∧
        t.token = next ∧ t.stream.From last := by
  have hReads : comparesSum "a == b + c;" = true := by decide +kernel
  unfold comparesSum at hReads
  split at hReads
  case h_2 => cases hReads
  case h_1 s hStart =>
  split at hReads
  case h_2 => cases hReads
  case h_1 first second third fourth next hUpcoming =>
  simp only [Bool.and_eq_true, decide_eq_true_eq, Bool.not_eq_true'] at hReads
  obtain ⟨⟨⟨⟨⟨⟨⟨⟨hX, hOp⟩, hY⟩, hOp'⟩, hZ⟩, hNext⟩, hNoIn⟩, hNesting⟩, hOptions⟩ := hReads
  have hAligned : s.Aligned := (Session.aligned_start _ _ _).advance hStart
  obtain ⟨_, l, -, -, hFrom, -⟩ := id hAligned
  obtain ⟨last, hSupplies⟩ := TokenStream.exists_supplies hFrom hUpcoming
  let x : Operand := ⟨s.token, "a", kind_of_identifier hX, by decide⟩
  let y : Operand := ⟨second, "b", kind_of_identifier hY, by decide⟩
  let z : Operand := ⟨fourth, "c", kind_of_identifier hZ, by decide⟩
  let op : Operator := ⟨first, .equality, hOp⟩
  let op' : Operator := ⟨third, .addition, hOp'⟩
  let rest : List (Operator × Operand) := [(op, y), (op', z)]
  have hFronting :
      s.Fronting ((x.token :: rest.flatMap fun p => [p.1.token, p.2.token]) ++ [next]) last :=
    ⟨hAligned, hNoIn, l, _, rfl, hFrom, hSupplies⟩
  have hTree :
      group x [(op, y), (op', z)] =
      .binary op (.operand x) (.binary op' (.operand y) (.operand z)) := rfl
  obtain ⟨-, -, -, hRun⟩ := expression_grouped hFronting (kind_of_isPunctuator hNext) hOptions
    (hNesting ▸ Nat.zero_le _) (Nat.le_add_right maxNesting _)
  have hShallow : s.nesting + (group x rest).depth < maxNesting := by
    rw [hNesting]
    exact (by decide : 0 + 2 < maxNesting)
  rw [if_pos hShallow] at hRun
  exact ⟨s, last, x, y, z, op, op', next, hFronting, hTree, hRun⟩

end Grammar

end ScriptLint
