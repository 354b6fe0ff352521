import ScriptLint.Proofs.Lexer.Lookahead
import ScriptLint.Proofs.Progress.Termination
import ScriptLint.Proofs.Scope.Arena

/-!
# The check of names that are modified

Whether a name is read or written is decided when it is consumed, from the one token behind it. So
only a plain assignment to a name that stands by itself gets the check of writes. The operators that
compute before they assign, the updates, and assignments to a name in parentheses get the check of
reads.

- `Session.Uses`: an operand that is a name, with the checks it gets.
- `unary_uses`: a run of the parser of operands that results in a name is such a use.
- `Grammar.Modifies`: the expressions that modify a name.
- `modification_checks`: which checks they get.
-/

namespace ScriptLint

open Parse Grammar

/-! ## Looking ahead -/

namespace Session

/-- Only what was read ahead differs. -/
def Glances (s t : Session) : Prop :=
  ∃ stream, t = { s with stream } ∧ ∀ l, s.stream.From l → stream.From l

variable {s t u : Session}

/-- Looking twice is looking. -/
theorem Glances.trans : s.Glances t → t.Glances u → s.Glances u := by
  rintro ⟨_, rfl, hFrom⟩ ⟨stream, rfl, hFrom'⟩
  exact ⟨stream, rfl, fun l hl => hFrom' l (hFrom l hl)⟩

/-- Looking ahead stays at the token. -/
theorem Glances.token : s.Glances t → t.token = s.token := by
  rintro ⟨_, rfl, -⟩
  rfl

/-- It leaves the session aligned. -/
theorem Glances.aligned (hs : s.Aligned) : s.Glances t → t.Aligned := by
  rintro ⟨_, rfl, hFrom⟩
  exact hs.stay rfl rfl fun l hl => ⟨l, hFrom l hl, rfl⟩

/-- So does advancing. -/
theorem Aligned.advance (hs : s.Aligned) (h : Parse.advance s = .ok () t) : t.Aligned := by
  have hGains := advance_gains hs
  rw [h] at hGains
  exact hGains.1.aligned

end Session

namespace Parse

variable {s t : Session} {b : Bool}

/-- A peek looks ahead. -/
theorem glances_peek (n : Nat) {token : Option Token} (h : peek n s = .ok token t) :
    s.Glances t := by
  obtain ⟨-, rfl⟩ := EStateM.Result.ok.inj h
  exact ⟨_, rfl, fun _ => TokenStream.from_peek n⟩

theorem glances_peekIs {test : Token → Bool} (h : peekIs test s = .ok b t) : s.Glances t := by
  obtain ⟨_, u, hPeek, hRest⟩ := exists_of_bind h
  obtain ⟨-, rfl⟩ := EStateM.Result.ok.inj hRest
  exact glances_peek 0 hPeek

theorem glances_peekArrowAfterNext (h : peekArrowAfterNext s = .ok b t) : s.Glances t := by
  obtain ⟨_, u, hPeek, hRest⟩ := exists_of_bind h
  obtain ⟨-, rfl⟩ := EStateM.Result.ok.inj hRest
  exact glances_peek 1 hPeek

theorem glances_startsArrow (h : startsArrow s = .ok b t) : s.Glances t := by
  obtain ⟨-, rfl⟩ := EStateM.Result.ok.inj h
  exact ⟨_, rfl, fun _ => TokenStream.from_closesBeforeArrow⟩

/-- What was seen behind the current token is the next token. -/
theorem advance_peeked {test : Token → Bool} {u : Session} (hs : s.Aligned)
    (h : peekIs test s = .ok true t) (hAdvance : advance t = .ok () u) : test u.token := by
  obtain ⟨text, l, -, -, hFrom, -⟩ := hs
  obtain ⟨rs, next, l', hLeads⟩ := Lexer.exists_leads l
  obtain ⟨stream, rfl, hSame⟩ := glances_peekIs h
  have hArrives := advance_arrives (s := { s with stream }) (hSame l hFrom) hLeads
  rw [hAdvance] at hArrives
  have hVisit : Lexer.Visits TokenStream.passing l 0 next rs.length :=
    hLeads.visits (by simp [TokenStream.passing])
  have hPeek := (TokenStream.peek_spec hFrom hVisit).1
  have hTest : (s.stream.peek 0).1.any test = true := (EStateM.Result.ok.inj h).1
  rw [hPeek] at hTest
  rw [hArrives.token]
  exact hTest

end Parse

/-! ## What parsers result in -/

namespace Parse

variable {α β : Type} {p q : Parse α} {P : α → Session → Prop} {Q : β → Session → Prop}
  {s : Session}

/-- If the parser succeeds from the session, its value and the session it leaves are as
described. -/
def Yields (p : Parse α) (s : Session) (P : α → Session → Prop) :
    Prop := ∀ a t, p s = .ok a t → P a t

namespace Yields

theorem pure {a : α} (h : P a s) : Yields (pure a) s P := by
  intro b t hb
  obtain ⟨rfl, rfl⟩ := EStateM.Result.ok.inj hb
  exact h

/-- What the second parser results in, for whatever the first did. -/
theorem bind {f : α → Parse β} (hf : ∀ a t, p s = .ok a t → Yields (f a) t Q) :
    Yields (p >>= f) s Q := by
  intro b u hb
  obtain ⟨a, t, ha, hRest⟩ := exists_of_bind hb
  exact hf a t ha b u hRest

/-- Only the last of the parsers matters. -/
theorem last {f : α → Parse β} (hf : ∀ a t, Yields (f a) t Q) :
    Yields (p >>= f) s Q := bind fun a t _ => hf a t

theorem read {f : Session → Parse α} (h : Yields (f s) s P) : Yields (get >>= f) s P := h

theorem sees {f : Bool → Parse α} {p : Punctuator} (h : Yields (f (s.token.isPunctuator p)) s P) :
    Yields (sees p >>= f) s P := h

theorem ask {f : Token → Parse α} (h : Yields (f s.token) s P) : Yields (current >>= f) s P := h

theorem ite (c : Prop) [Decidable c] (hp : c → Yields p s P) (hq : ¬c → Yields q s P) :
    Yields (if c then p else q) s P := by
  split
  · exact hp ‹_›
  · exact hq ‹_›

theorem throw (e : Abort) : Yields (throw e : Parse α) s P := by
  intro a t h
  cases h

theorem tooDeep : Yields (tooDeep : Parse α) s P := by
  intro a t h
  cases h

theorem failIdentifier : Yields (failIdentifier : Parse α) s P :=
  last fun _ _ => last fun _ _ => last fun _ _ => throw _

end Yields

variable {step : α → Parse (Round α)} {a b : α} {t : Session}

/-- A loop that succeeds has not run out of rounds. -/
theorem repeats_of_ok {n : Nat} (h : rounds step n a s = .ok b t) : Repeats step a s (.ok b t) := by
  induction n generalizing a s with
  | zero => cases h
  | succ n ih =>
    obtain ⟨r, u, hRound, hRest⟩ := exists_of_bind h
    cases r with
    | again c => exact .again hRound (ih hRest)
    | done c =>
      obtain ⟨rfl, rfl⟩ := EStateM.Result.ok.inj hRest
      exact .done hRound

/-- The last round leaves everything as it is and then has the property, or a round that asks for
another one does not have it. -/
def Unmoving (P : α → Session → Prop) (a : α) (s : Session) : Round α → Session → Prop
  | .done b, t => b = a ∧ t = s
  | .again b, t => ¬P b t

/-- If a loop ends with a property that its rounds lose, it did nothing. -/
theorem Repeats.unmoved (h : Repeats step a s (.ok b t)) (hb : P b t)
    (hStep : ∀ a s, Yields (step a) s (Unmoving P a s)) : b = a ∧ t = s := by
  generalize hr : EStateM.Result.ok b t = r at h
  induction h with
  | done h =>
    obtain ⟨rfl, rfl⟩ := EStateM.Result.ok.inj hr
    exact hStep _ _ _ _ h
  | fails => cases hr
  | again h _ ih =>
    obtain ⟨rfl, rfl⟩ := ih hr
    exact absurd hb (hStep _ _ _ _ h)

end Parse

/-! ## Forms that are no names -/

/-- Whether the expression is a name. -/
def Form.isName : Form → Bool
  | name _ => true
  | _ => false

namespace Grammar

variable {inner : Nested} {s t u : Session} {left e : Summary} {name : String}

/-- What the parser results in is no name. -/
abbrev Nameless (p : Parse Summary) : Prop := ∀ s, Yields p s fun e _ => e.form.isName = false

/-- A sum is no name. -/
theorem nameless_sum (left right : Summary) : Nameless (sum left right) := by
  intro s
  unfold sum
  split
  · exact .ite _ (fun _ => .last fun _ _ => .pure rfl) fun _ => .pure rfl
  · exact .pure rfl

/-- One case for each operator: what it makes of its operands is no name. -/
theorem nameless_operatorStep (left : Summary) (op : Punctuator) (power : Nat) (token : Token) :
    Nameless (operatorStep inner left op power token) := by
  intro s
  -- each form that the operators result in is no name
  have hResult {α : Type} (p : Parse α) {f : α → Form} (h : ∀ a, (f a).isName = false) :
      Nameless (do let a ← p; return left.within (f a)) :=
    fun _ => .last fun a _ => .pure (h a)
  have compare : Nameless (do
      let right ← rightOperand inner power
      checkComparison left right op token
      return left.within (.binary op)) :=
    fun _ => .last fun right => hResult _ fun _ => rfl
  have update : Nameless (do checkUpdate left op token; advance; return left.within .update) :=
    fun _ => .last fun _ => hResult _ fun _ => rfl
  have decision : Nameless (do
      advance
      modifyMetrics Metrics.addBranch
      discard (inner.expression power)
      return left.within .logical) :=
    fun _ => .last fun _ _ => .last fun _ => hResult _ fun _ => rfl
  unfold operatorStep
  split
  · exact hResult _ (fun _ => rfl) s
  · exact hResult _ (fun _ => rfl) s
  · exact update s
  · exact update s
  · exact decision s
  · exact decision s
  · exact hResult _ (fun _ => rfl) s
  · exact compare s
  · exact compare s
  · exact compare s
  · exact compare s
  · exact compare s
  · exact compare s
  · exact compare s
  · exact compare s
  · exact .last fun right => nameless_sum left right
  · exact .ite _ (fun _ => hResult _ (fun _ => rfl) s) fun _ => .last fun _ =>
      hResult _ fun _ => rfl

/-- An operator is applied, or nothing happens. -/
theorem operatorRound_unmoving (least : Nat) (left : Summary) (s : Session) :
    Yields (operatorRound inner least left) s (Unmoving (fun e _ => e.form.isName) left s) := by
  have hNothing : Yields (pure (.done left)) s (Unmoving (fun e _ => e.form.isName) left s) :=
    .pure ⟨rfl, rfl⟩
  refine .read ?_
  split
  · exact hNothing
  · refine .ite _ (fun _ => hNothing) fun _ => ?_
    split
    · refine .ite _ (fun _ => hNothing) fun _ => .bind fun e t he => .pure ?_
      exact Bool.eq_false_iff.mp (nameless_operatorStep left _ _ _ s e t he)
    · exact .last fun _ _ => .pure Bool.false_ne_true

/-- An expression that is a name has no operators. -/
theorem operators_name {least : Nat} (h : operators inner least s = .ok e u)
    (hName : e.form.isName) : unary inner s = .ok e u := by
  obtain ⟨left, t, hLeft, hLoop⟩ := exists_of_bind h
  have hRepeats : Repeats (operatorRound inner least) left t (.ok e u) := repeats_of_ok hLoop
  obtain ⟨rfl, rfl⟩ := hRepeats.unmoved hName (operatorRound_unmoving least)
  exact hLeft

/-! ## Chains -/

/-- The token opens arguments or a subscript. -/
def OpensLink (t : Token) : Prop := t.isPunctuator .leftParen ∨ t.isPunctuator .leftBracket

/-- A property is no name. Behind the dot of an optional access, arguments or a subscript may
follow. -/
theorem dottedProperty_cases (left : Summary) (optional : Bool) (s : Session) :
    Yields (dottedProperty left optional) s fun e t => ¬(e.form.isName ∧ ¬OpensLink t.token) := by
  refine .last fun _ t => .ask (.ite _ (fun hOpens => .pure ?_) fun _ => ?_)
  · rw [Bool.and_eq_true, Bool.or_eq_true] at hOpens
    exact fun h => h.2 hOpens.2
  · split
    · exact .last fun _ _ => .last fun _ _ => .pure fun h => Bool.false_ne_true h.1
    · exact .failIdentifier

/-- Nor is a subscript. -/
theorem nameless_subscript (left : Summary) : Nameless (subscript inner left) := by
  intro s
  refine .last fun _ _ => .last fun _ _ => .last fun key _ => .last fun _ _ => ?_
  split
  · exact .last fun _ _ => .last fun _ _ => .pure rfl
  · exact .pure rfl

/-- A link is added, or nothing happens. -/
theorem chainLink_unmoving (left : Summary) (s : Session) :
    Yields (chainLink inner true left) s
      (Unmoving (fun e t => e.form.isName ∧ ¬OpensLink t.token) left s) := by
  refine .ask ?_
  split
  · exact .bind fun e t he => .pure (dottedProperty_cases left _ s e t he)
  · exact .bind fun e t he => .pure (dottedProperty_cases left _ s e t he)
  · exact .bind fun e t he => .pure fun h => Bool.eq_false_iff.mp
      (nameless_subscript left s e t he) h.1
  · exact .ite _ (fun _ => .last fun _ _ => .last fun _ _ => .pure fun h => Bool.false_ne_true h.1)
      fun _ => .pure ⟨rfl, rfl⟩
  · exact .last fun _ _ => .pure fun h => Bool.false_ne_true h.1
  · exact .last fun _ _ => .pure fun h => Bool.false_ne_true h.1
  · exact .pure ⟨rfl, rfl⟩

/-- Arguments and subscripts are always added. -/
theorem chainLink_done (left : Summary) (s : Session) :
    Yields (chainLink inner true left) s fun r t => ∀ e, r = .done e → ¬OpensLink t.token := by
  have hAgain (e : Summary) (t : Session) :
      Yields (pure (.again e) : Parse (Round Summary)) t fun r t => ∀ e, r =
        .done e → ¬OpensLink t.token :=
    .pure fun _ hSame => by cases hSame
  refine .ask ?_
  split
  · exact .last hAgain
  · exact .last hAgain
  · exact .last hAgain
  · exact .last fun _ _ => .last fun _ => hAgain _
  · exact .last fun _ => hAgain _
  · exact .last fun _ => hAgain _
  · next hBracket hParen _ _ =>
    refine .pure fun _ _ hOpens => ?_
    rcases hOpens with h | h
    · exact hParen (Lexer.kind_of_isPunctuator h)
    · exact hBracket (Lexer.kind_of_isPunctuator h)

/-- A chain that is a name has no links, and stands before no link. -/
theorem chain_name {left : Summary} (h : chain inner true left s = .ok e t)
    (hName : e.form.isName) : e = left ∧ t = s ∧ ¬OpensLink t.token := by
  have hRepeats : Repeats (chainLink inner true) left s (.ok e t) := repeats_of_ok h
  have hEnd : ¬OpensLink t.token :=
    hRepeats.last (P := fun t => ¬OpensLink t.token) fun a b u v hDone =>
      chainLink_done a u _ v hDone b rfl
  obtain ⟨rfl, rfl⟩ := hRepeats.unmoved ⟨hName, hEnd⟩ chainLink_unmoving
  exact ⟨rfl, rfl, hEnd⟩

end Grammar

/-! ## Uses of names -/

namespace Grammar

/-- The checks of a name at a token that has been consumed. A write may be to a name that strict
code must not modify. -/
def checkUse (name : String) (t : Token) (violates writes : Bool) : Parse Unit := do
  if violates then warn .strictViolation t
  if writes then assign name t.line t.column else reference name t.line t.column

/-- The names that strict code must not modify. -/
def isRestricted (name : String) : Bool := name == "eval" || name == "arguments"

end Grammar

/-- An operand that is a name: the parentheses around it are consumed, so many on each side, and the
name in between. There it is checked once. The flags say whether the name counts as modified and as
written. -/
inductive Session.Uses (name : String) (modified written : Bool) :
    (depth : Nat) → Session → Session → Prop
  | bare {s m v u : Session} (hName : s.token.kind = .identifier name) (hLook : s.Glances m)
    (hAdvance : advance m = .ok () v)
    (hCheck : checkUse name s.token (modified && v.context.strict && isRestricted name) written
    v = .ok () u) : Uses name modified written 0 s u
  | deeper {depth : Nat} {s u : Session}
    (h : Uses name modified written depth { s with nesting := s.nesting + 1 } u) :
    Uses name modified written depth s { u with nesting := u.nesting - 1 }
  | parenthesized {depth : Nat} {s m o i u : Session} (hOpen : s.token.isPunctuator .leftParen)
    (hLook : s.Glances m) (hIn : advance m = .ok () o)
    (h : Uses name modified written depth { o with noIn := false } i)
    (hClose : i.token.isPunctuator .rightParen)
    (hOut : advance { i with noIn := o.noIn } = .ok () u) :
    Uses name modified written (depth + 1) s u

namespace Grammar

variable {inner : Nested} {s t u : Session} {e : Summary} {name : String}

/-- The use of a name keeps the place. -/
theorem checkUse_placed (name : String) (token : Token) (violates writes : Bool) :
    Resolves placed (checkUse name token violates writes) := by
  have hFlush : Resolves placed flushScopes := placed_of_standing standing_flushScopes
  have hUse : Resolves placed (if writes then assign name token.line token.column
      else reference name token.line token.column) :=
    .ite _ (.bind (placed_modifyScopes _) fun _ => hFlush)
      (.bind (placed_modifyScopes _) fun _ => hFlush)
  exact .ite _ (.bind (placed_emit _) fun _ => hUse) hUse

/-- The token behind the name says how it is used. -/
theorem nameUse_uses (hKind : s.token.kind = .identifier name) (hLook : s.Glances t)
    (h : nameUse name s.token t = .ok e u) :
    e = .startingAt s.token (.name name) ∧
      s.Uses name (modifiesName u.token) (u.token.isPunctuator .assign) 0 u := by
  obtain ⟨_, v, hAdvance, h⟩ := exists_of_bind h
  replace h : (do
      checkUse name s.token (modifiesName v.token && v.context.strict && isRestricted name)
        (v.token.isPunctuator .assign)
      return .startingAt s.token (.name name) : Parse Summary) v = .ok e u := by
    rw [← h]
    show _ =
      (if modifiesName v.token && v.context.strict &&
      isRestricted name then _ else _ : Parse Summary) v
    unfold checkUse
    split <;> split
    · exact congrFun (bind_assoc _ _ _) v
    · rfl
    · exact congrFun (bind_assoc _ _ _) v
    · rfl
  obtain ⟨_, w, hCheck, hRest⟩ := exists_of_bind h
  obtain ⟨rfl, rfl⟩ := EStateM.Result.ok.inj hRest
  have hPlaced :=
    checkUse_placed name s.token (modifiesName v.token && v.context.strict && isRestricted name)
    (v.token.isPunctuator .assign) v
  rw [hCheck] at hPlaced
  rw [show w.token = v.token from hPlaced.token]
  exact ⟨rfl, .bare hKind hLook hAdvance hCheck⟩

/-- An operand that is a name uses it as its last token and the one behind it say. -/
def AccountsFor (s : Session) (e : Summary) (u : Session) : Prop :=
  ∀ name, e.form = .name name → ∃ depth, e.parenthesized = decide (0 < depth) ∧
    s.Uses name (decide (depth = 0) && modifiesName u.token)
      (decide (depth = 0) && u.token.isPunctuator .assign) depth u

/-- What is no name uses none. -/
theorem accountsFor_nameless (h : e.form.isName = false) : AccountsFor s e u := by
  intro name hName
  rw [hName] at h
  cases h

/-- An arrow function is no name. -/
theorem nameless_arrowFunction (t : Token) : Nameless (arrowFunction inner t) :=
  fun _ => .last fun _ _ => .pure rfl

/-- Nor is any other function. -/
theorem nameless_functionExpression : Nameless (functionExpression inner) := by
  refine fun _ => .last fun t _ => .last fun _ _ => .last fun _ _ => .last fun _ _ =>
    .last fun _ _ => ?_
  refine .last fun next _ => ?_
  split
  · exact .last fun _ _ => .last fun _ _ => .pure rfl
  · exact .last fun _ _ => .pure rfl

/-- The word `async` is used as a name here only before its arguments. -/
theorem asyncForm_cases (hs : s.Aligned) :
    Yields (asyncForm inner s.token) s fun r u =>
      (r = none → s.Glances u) ∧ ∀ e, r = some e → e.form.isName → OpensLink u.token := by
  -- without a form nothing but peeks happened
  have hNone {u : Session} (hu : s.Glances u) : Yields (pure none) u fun (r : Option Summary) u =>
      (r = none → s.Glances u) ∧ ∀ e, r = some e → e.form.isName → OpensLink u.token :=
    .pure ⟨fun _ => hu, by rintro _ ⟨⟩⟩
  have hSome {p : Parse Summary} {m : Session} (hp : Nameless p) :
      Yields (do return some (← p)) m fun r u =>
      (r = none → s.Glances u) ∧ ∀ e, r = some e → e.form.isName → OpensLink u.token := by
    refine .bind fun e u he => .pure ⟨by rintro ⟨⟩, fun _ hSame hName => ?_⟩
    cases hSame
    rw [hp m e u he] at hName
    cases hName
  -- one peek after the other
  refine .bind fun newline m₁ h₁ => ?_
  replace h₁ := glances_peekIs h₁
  refine .ite _ (fun _ => hNone h₁) fun _ => .bind fun function m₂ h₂ => ?_
  replace h₂ := h₁.trans (glances_peekIs h₂)
  refine .ite _ (fun _ => .last fun _ _ => hSome nameless_functionExpression) fun _ =>
    .bind fun single m₃ h₃ => ?_
  replace h₃ := h₂.trans (glances_peekIs h₃)
  refine .ite _ (fun _ => .bind fun arrow m₄ h₄ => ?_) fun _ => .bind fun opens m₄ h₄ => ?_
  · replace h₄ := h₃.trans (glances_peekArrowAfterNext h₄)
    exact .ite _ (fun _ => .last fun _ _ => hSome (nameless_arrowFunction _)) fun _ => hNone h₄
  · refine .ite _ (fun hOpens => .bind fun _ v hAdvance => ?_) fun _ =>
      hNone (h₃.trans (glances_peekIs h₄))
    subst hOpens
    have hParen : v.token.isPunctuator .leftParen := advance_peeked (h₃.aligned hs) h₄ hAdvance
    refine .bind fun arrow w hArrow => .ite _ (fun _ => hSome (nameless_arrowFunction _)) fun _ =>
      ?_
    refine .bind fun _ x hReference => .pure ⟨by rintro ⟨⟩, fun _ _ _ => .inl ?_⟩
    have hPlaced := checkUse_placed "async" s.token false false w
    have hSame : checkUse "async" s.token false false w = .ok () x := hReference
    rw [hSame] at hPlaced
    rw [show x.token = w.token from hPlaced.token, (glances_startsArrow hArrow).token]
    exact hParen

/-- A name that starts an operand. -/
theorem identifierForm_uses (hs : s.Aligned) (hKind : s.token.kind = .identifier name) :
    Yields (identifierForm inner name s.token) s fun e u => e.form.isName → OpensLink u.token ∨
      AccountsFor s e u := by
  have hUse {m : Session} (hm : s.Glances m) :
      Yields (nameUse name s.token) m fun e u => e.form.isName → OpensLink u.token ∨
        AccountsFor s e u := by
    intro e u he _
    obtain ⟨rfl, hUses⟩ := nameUse_uses hKind hm he
    refine .inr fun _ hName => ⟨0, rfl, ?_⟩
    cases hName
    exact hUses
  refine .bind fun arrow m hArrow => ?_
  have hm := glances_peekIs hArrow
  refine .ite _ (fun _ e u he hName => ?_) fun _ =>
    .ite _ (fun _ => .bind fun r v hr => ?_) fun _ => hUse hm
  · rw [nameless_arrowFunction _ m e u he] at hName
    cases hName
  · have hToken := hm.token
    rw [← hToken] at hr
    obtain ⟨hNone, hSome⟩ := asyncForm_cases (hm.aligned hs) r v hr
    cases r with
    | none => exact hUse (hm.trans (hNone rfl))
    | some e => exact .pure fun hName => .inl (hSome e rfl hName)

/-! ## Operands -/

/-- The parsers for what is nested account for the names they result in. -/
structure Accounting (inner : Nested) : Prop where
  expression (power : Nat) (s : Session) (hs : s.Aligned) :
    Yields (inner.expression power) s (AccountsFor s)
  construction : Nameless inner.construction

/-- A closing that is there is advanced over. -/
theorem expectClosing_advances (p : Punctuator) (opener : Token) :
    Yields (expectClosing p opener) s fun _ t => s.token.isPunctuator p ∧ advance s = .ok () t := by
  have hRest : Yields (do
      if (← current).isEnd then
        failAt (.unmatched opener.raw) opener else failExpected p.spelling : Parse Unit) s
      fun _ t => s.token.isPunctuator p ∧ advance s = .ok () t := by
    refine .ask (.ite _ (fun _ => .last fun _ _ => .throw _) fun _ => ?_)
    exact .last fun _ _ => .last fun _ _ => .last fun _ _ => .throw _
  exact .sees (.ite _ (fun hClose u t ht => ⟨hClose, ht⟩) fun _ => hRest)

/-- The token behind a name in parentheses is no operator. -/
theorem parenthesized_uses (h : Accounting inner) {m : Session} (hs : s.Aligned)
    (hLook : s.Glances m)
    (hOpen : s.token.isPunctuator .leftParen) : Yields (parenthesized inner) m (AccountsFor s) := by
  refine .ask (.bind fun _ o hIn => .bind fun e m' hRun => .bind fun _ u hOut =>
    .pure fun name hName => ?_)
  obtain ⟨i, hInside, rfl⟩ := exists_of_ensuring (s := { o with noIn := false }) hRun
  have hAligned : o.Aligned := (hLook.aligned hs).advance hIn
  obtain ⟨hClose, hOut⟩ := expectClosing_advances .rightParen _ _ _ hOut
  have hStart : ({ o with noIn := false } : Session).Aligned :=
    hAligned.placed ⟨rfl, rfl, rfl, rfl, rfl⟩
  obtain ⟨depth, -, hUses⟩ := h.expression 0 _ hStart e i hInside name hName
  have hModified : modifiesName i.token = false := by
    rw [modifiesName, Lexer.kind_of_isPunctuator hClose]
    rfl
  have hWritten : i.token.isPunctuator .assign = false := by
    rw [Token.isPunctuator, Lexer.kind_of_isPunctuator hClose]
    rfl
  rw [hModified, hWritten, Bool.and_false] at hUses
  exact ⟨depth + 1, rfl, hUses.parenthesized hOpen hLook hIn hClose hOut⟩

/-- One case for each kind of token. -/
theorem simpleOperand_uses (h : Accounting inner) (hs : s.Aligned) :
    Yields (simpleOperand inner) s fun e u => e.form.isName → OpensLink u.token ∨
      AccountsFor s e u := by
  -- a form that is no name has nothing to account for
  have hNameless {p : Parse Summary} (hp : Nameless p) :
      Yields p s fun e u => e.form.isName → OpensLink u.token ∨ AccountsFor s e u := by
    intro e u he hName
    rw [hp s e u he] at hName
    cases hName
  have hLiteral (form : Form) (hForm : form.isName = false) :
      Nameless (do advance; return .startingAt s.token form) :=
    fun _ => .last fun _ _ => .pure hForm
  refine .ask ?_
  split
  · exact identifierForm_uses hs ‹_›
  · exact hNameless fun _ => .last fun _ _ => .last fun _ _ => .pure rfl
  · exact hNameless (hLiteral .this rfl)
  · exact hNameless nameless_functionExpression
  · exact hNameless h.construction
  · exact hNameless (hLiteral (.boolean true) rfl)
  · exact hNameless (hLiteral (.boolean false) rfl)
  · exact hNameless (hLiteral .null rfl)
  · exact hNameless (hLiteral .other rfl)
  · exact hNameless (hLiteral (.number _) rfl)
  · exact hNameless (hLiteral (.text _) rfl)
  · exact hNameless (hLiteral .regexp rfl)
  · exact hNameless fun _ => .last fun _ _ => .pure rfl
  · exact hNameless (hLiteral .template rfl)
  -- a parenthesis opens an arrow function or an expression in parentheses
  · next hOpen =>
    refine .bind fun arrow m hArrow => .ite _ (fun _ e u he hName => ?_) fun _ e u he _ => .inr ?_
    · rw [nameless_arrowFunction _ m e u he] at hName
      cases hName
    · exact parenthesized_uses h hs (glances_startsArrow hArrow)
        (by simp [Token.isPunctuator, hOpen]) e u he
  · exact hNameless fun _ => .last fun _ _ => .last fun _ _ => .last fun _ _ =>
      .last fun _ _ => .pure rfl
  · exact hNameless fun _ => .last fun _ _ => .last fun _ _ => .last fun _ _ =>
      .last fun _ _ => .pure rfl
  · exact .failIdentifier

/-- An operand that is a name was used once, or opens a link. -/
theorem operand_uses (h : Accounting inner) (hs : s.Aligned) :
    Yields (operand inner) s fun e u => e.form.isName → OpensLink u.token ∨ AccountsFor s e u := by
  show Yields (unfolded (operandForm inner) s.budget) s _
  cases s.budget with
  | zero => exact .throw _
  | succ n =>
    refine .ask (.ite _ (fun _ => .last fun _ _ => .pure ?_) fun _ => simpleOperand_uses h hs)
    exact fun hName => absurd hName Bool.false_ne_true

/-- One case for each kind of token: the operators before an operand make no names. -/
theorem unary_uses (h : Accounting inner) (hs : s.Aligned) :
    Yields (unary inner) s (AccountsFor s) := by
  have hNameless {p : Parse Summary} (hp : Nameless p) : Yields p s (AccountsFor s) :=
    fun e u he => accountsFor_nameless (hp s e u he)
  -- the operators result in forms that are no names
  have hSigned : Nameless (signed inner s.token) :=
    fun _ => .last fun _ _ => .last fun _ _ => .pure rfl
  have hUpdated (op : Punctuator) : Nameless (updated inner op s.token) :=
    fun _ => .last fun _ _ => .last fun _ _ => .last fun _ _ => .pure rfl
  have hAwaiting (power : Nat) : Nameless (awaiting inner power s.token) := by
    refine fun _ => .last fun hasOperand _ => .last fun _ _ =>
      .ite _ (fun _ => ?_) fun _ => .pure rfl
    exact .last fun _ _ => .last fun _ _ => .pure rfl
  have hDeletion : Nameless (deletion inner s.token) := by
    refine fun _ => .last fun _ _ => .last fun e _ => ?_
    split
    · exact .last fun _ _ => .pure rfl
    · exact .pure rfl
  refine .ask ?_
  split
  · exact hNameless hSigned
  · exact hNameless hSigned
  · exact hNameless hSigned
  · exact hNameless hSigned
  · exact hNameless fun _ => .last fun _ => hSigned
  · exact hNameless (hUpdated _)
  · exact hNameless (hUpdated _)
  · exact hNameless fun _ => .last fun _ _ => .last fun _ _ => .pure rfl
  · exact hNameless hDeletion
  · exact hNameless (hAwaiting _)
  · exact hNameless (hAwaiting _)
  -- without an operator the operand is the name, if no chain follows
  · refine .bind fun left m hLeft e u he name hName => ?_
    have hIs : e.form.isName := by rw [hName, Form.isName]
    obtain ⟨rfl, rfl, hEnd⟩ := chain_name he hIs
    rcases operand_uses h hs e u hLeft hIs with hOpens | hUses
    · exact absurd hOpens hEnd
    · exact hUses name hName

/-- A construction is no name. -/
theorem nameless_construction : Nameless (construction inner) := by
  refine fun _ => .last fun _ _ => .last fun _ _ => .last fun dotted _ =>
    .ite _ (fun _ => ?_) fun _ => ?_
  · exact .last fun _ _ => .pure rfl
  have hEnd (newToken : Token) : Nameless (do
      if ← sees .leftParen then discard (arguments inner)
      return .startingAt newToken .construction) :=
    fun _ => .last fun opens _ => .ite _ (fun _ => .last fun _ _ => .pure rfl) fun _ => .pure rfl
  have hCallee (newToken calleeToken : Token) : Nameless (do
      let callee ← chain inner false (← operand inner)
      match callee.form with
      | .name name => checkConstructor name newToken calleeToken
      | _ => pure ()
      if ← sees .leftParen then discard (arguments inner)
      return .startingAt newToken .construction) := by
    refine fun _ => .last fun _ _ => .last fun callee _ => ?_
    split
    · exact .last fun _ => hEnd newToken
    · exact hEnd newToken _
  exact .last fun calleeToken _ => .ite _ (fun _ => .last fun _ => hCallee _ calleeToken) fun _ =>
    hCallee _ calleeToken _

/-- By induction on the levels. -/
theorem accounting_levels (n : Nat) : Accounting (levels n) := by
  induction n with
  | zero => exact ⟨fun _ _ _ => .tooDeep, fun _ => .tooDeep⟩
  | succ n ih =>
    refine ⟨fun power s hs => .read (.ite _ (fun _ e u' hRun name hName => ?_) fun _ => .tooDeep),
      fun s => ?_⟩
    · obtain ⟨u, h, rfl⟩ := exists_of_ensuring (s := { s with nesting := s.nesting + 1 }) hRun
      have hLeft := operators_name h (by rw [hName, Form.isName])
      have hStart : ({ s with nesting := s.nesting + 1 } : Session).Aligned :=
        hs.placed ⟨rfl, rfl, rfl, rfl, rfl⟩
      obtain ⟨depth, hDepth, hUses⟩ := unary_uses ih hStart e u hLeft name hName
      exact ⟨depth, hDepth, hUses.deeper⟩
    · refine .read (.ite _ (fun _ e u' hRun => ?_) fun _ => .tooDeep)
      obtain ⟨u, h, rfl⟩ := exists_of_ensuring (s := { s with nesting := s.nesting + 1 }) hRun
      exact nameless_construction _ e u h

/-! ## Modifications -/

/-- How an expression modifies its operand. -/
inductive Modification where
  | assigns (op : Punctuator)
  | updatesAfter (op : Punctuator)
  | updatesBefore (op : Punctuator)

/-- An expression that modifies a name and is parsed without an error, up to the operand on its
right. The name stands between the two sessions, with the parentheses around it. -/
inductive Modifies (inner : Nested) (name : String) : Modification → Session → Session → Prop
  | assigns {s t u : Session} {left e : Summary} {op : Punctuator} {least : Nat}
    (hTarget : unary inner s = .ok left t) (hName : left.form = .name name)
    (hToken : t.token.kind = .punctuator op) (hOp : op.isAssignment)
    (h : operatorRound inner least left t = .ok (.again e) u) :
    Modifies inner name (.assigns op) s t
  | updatesAfter {s t u : Session} {left e : Summary} {op : Punctuator} {least : Nat}
    (hTarget : unary inner s = .ok left t) (hName : left.form = .name name)
    (hToken : t.token.kind = .punctuator op) (hOp : op.isUpdate)
    (h : operatorRound inner least left t = .ok (.again e) u) :
    Modifies inner name (.updatesAfter op) s t
  | updatesBefore {s t u v : Session} {target e : Summary} {op : Punctuator}
    (hToken : s.token.kind = .punctuator op) (hOp : op.isUpdate) (h : unary inner s = .ok e v)
    (hAdvance : advance s = .ok () t) (hTarget : inner.expression Power.unary t = .ok target u)
    (hName : target.form = .name name) : Modifies inner name (.updatesBefore op) t u

namespace Modification

/-- Whether the name counts as modified, with so many parentheses around it and the token behind
it. -/
def isNoticed : Modification → (depth : Nat) → (next : Token) → Bool
  | assigns _, depth, _ | updatesAfter _, depth, _ => depth = 0
  | updatesBefore _, depth, next => depth = 0 && modifiesName next

/-- Whether the name is checked as one that is written. -/
def isChecked : Modification → (depth : Nat) → (next : Token) → Bool
  | assigns op, depth, _ => depth = 0 && op = .assign
  | updatesAfter _, _, _ => false
  | updatesBefore _, depth, next => depth = 0 && next.isPunctuator .assign

end Modification

/-- An update on a line of its own belongs to what follows. -/
theorem operatorRound_update {least : Nat} {left : Summary} {op : Punctuator}
    (hToken : s.token.kind = .punctuator op) (hOp : op.isUpdate) :
    Yields (operatorRound inner least left) s fun r _ => ∀ e, r =
      .again e → s.token.newlineBefore = false := by
  have hDone : Yields (pure (.done left) : Parse (Round Summary)) s fun r _ => ∀ e, r =
      .again e → s.token.newlineBefore = false :=
    .pure fun _ hSame => by cases hSame
  refine .read ?_
  split
  · exact hDone
  · refine .ite _ (fun _ => hDone) fun _ => ?_
    rw [hToken]
    refine .ite _ (fun _ => hDone) fun hSameLine => .last fun _ _ => .pure fun _ _ => ?_
    simpa [hOp] using hSameLine

end Grammar

/-! ## What a write is checked for -/

namespace Scope.Tracker

open Setting (Layers)

/-- What is wrong with writing to the name: it is a constant, an exception, a function, or a global
that programs may not assign to. -/
def writeFinding? (t : Tracker) (name : String) : Option Finding :=
  match t.lookup name with
  | some id => (t.binding? id name).bind (assignFinding? name)
  | none =>
    if t.resolvesImplicitly name || t.predefined.lookup name ≠ some false then
      none else some .readOnly

/-- What writing to the name and reading it report alike. -/
def useFindings (t : Tracker) (name : String) (line column : Nat) (layers : Layers) :
    List PlacedFinding :=
  match t.lookup name with
  | some id =>
    if (t.binding? id name).any (·.hoisted) && !layers.enabled .funcscope then
      [⟨.outOfScope name, line, column⟩]
    else []
  | none => []

variable (t : Tracker) (name : String) (line column : Nat) (layers : Layers)

/-- A hoisted name is out of scope unless `funcscope` allows it. -/
theorem findings_reportOutOfScope (id : FrameId) :
    (t.reportOutOfScope id name line column layers).findings = t.findings ++
      if (t.binding? id name).any (·.hoisted) && !layers.enabled .funcscope then
        [⟨.outOfScope name, line, column⟩]
      else [] := by
  unfold reportOutOfScope
  split
  · rfl
  · exact (List.append_nil _).symm

/-- A read adds what is said about uses. -/
theorem findings_reference :
    (t.reference name line column layers).findings =
    t.findings ++ t.useFindings name line column layers := by
  unfold reference useFindings
  -- bound, or not: only a hoisted binding may be out of scope
  cases t.lookup name with
  | some id =>
    have hHoisted : ((t.markUsed id name line).binding? id name).any (·.hoisted) =
        (t.binding? id name).any (·.hoisted) := by
      rw [markUsed, binding?_modifyBinding, if_pos ⟨rfl, rfl⟩]
      cases t.binding? id name with
      | none => rfl
      | some b => rfl
    rw [findings_reportOutOfScope, hHoisted]
    rfl
  | none =>
    rw [List.append_nil]
    dsimp only
    split
    · rfl
    · split <;> rfl

/-- A write adds what is said about writes, then what is said about uses. -/
theorem findings_assign :
    (t.assign name line column layers).findings =
      t.findings ++ (t.writeFinding? name).toList.map (⟨·, line, column⟩) ++
        t.useFindings name line column layers := by
  unfold assign useFindings writeFinding?
  -- a binding may be constant; a predefined name may be read-only
  cases t.lookup name with
  | some id =>
    dsimp only
    cases hFinding : (t.binding? id name).bind (assignFinding? name) with
    | some finding =>
      dsimp only
      rw [findings_reportOutOfScope]
      rfl
    | none =>
      dsimp only
      rw [findings_reportOutOfScope, Option.toList_none, List.map_nil, List.append_nil]
  | none =>
    dsimp only
    by_cases hImplicit : t.resolvesImplicitly name
    · simp [hImplicit]
    · cases hGlobal : t.predefined.lookup name with
      | none => simp [hImplicit, defer]
      | some writable => cases writable <;> simp [hImplicit, report, useDirectiveGlobal]

end Scope.Tracker

namespace Grammar

variable {s t : Session} {name : String}

/-- A name that a program modifies is used once, and whether it is checked as one that is written
depends on how it is modified: only a plain assignment to a name without parentheses is. Only where
the operator comes right behind the name does strict code notice that the name is modified. Being
written is what makes the difference for constants, exceptions, functions and read-only globals. -/
theorem modification_checks {n : Nat} {m : Modification} (hs : s.Aligned)
    (h : Modifies (levels n) name m s t) :
    (∃ depth, s.Uses name (m.isNoticed depth t.token) (m.isChecked depth t.token) depth t) ∧
      ∀ (scopes : Scope.Tracker) (line column : Nat) (layers : Setting.Layers), ∃ alike,
        (scopes.assign name line column layers).findings =
          scopes.findings ++ (scopes.writeFinding? name).toList.map (⟨·, line, column⟩) ++ alike ∧
        (scopes.reference name line column layers).findings = scopes.findings ++ alike := by
  refine ⟨?_, fun scopes line column layers => ⟨scopes.useFindings name line column layers,
    scopes.findings_assign name line column layers,
    scopes.findings_reference name line column layers⟩⟩
  -- an assignment, an update after the name, an update before it
  cases h with
  | @assigns _ _ u left e op least hTarget hName hToken hOp h =>
    obtain ⟨depth, -, hUses⟩ := unary_uses (accounting_levels n) hs left t hTarget name hName
    have hModifies : modifiesName t.token = true := by
      rw [modifiesName, hToken]
      exact Bool.or_eq_true_iff.mpr (.inl hOp)
    have hWrites : t.token.isPunctuator .assign = decide (op = .assign) := by
      rw [Token.isPunctuator, hToken]
    rw [hModifies, hWrites, Bool.and_true] at hUses
    exact ⟨depth, hUses⟩
  | @updatesAfter _ _ u left e op least hTarget hName hToken hOp h =>
    obtain ⟨depth, -, hUses⟩ := unary_uses (accounting_levels n) hs left t hTarget name hName
    have hSameLine := operatorRound_update hToken hOp _ u h e rfl
    have hModifies : modifiesName t.token = true := by
      rw [modifiesName, hToken]
      simp [hOp, hSameLine]
    have hWrites : t.token.isPunctuator .assign = false := by
      rw [Token.isPunctuator, hToken]
      cases op <;> first | rfl | cases hOp
    rw [hModifies, hWrites, Bool.and_true, Bool.and_false] at hUses
    exact ⟨depth, hUses⟩
  | @updatesBefore first _ _ v target e op hToken hOp h hAdvance hTarget hName =>
    obtain ⟨depth, -, hUses⟩ :=
      (accounting_levels n).expression Power.unary s hs target t hTarget name hName
    exact ⟨depth, hUses⟩

/-- Whether the text starts with an addition that is assigned to the name. -/
def startsCompound (source name : String) : Bool :=
  match advance (.start source {} none) with
  | .ok _ s => match unary (levels 2) s with
    | .ok left t => match left.form, t.token.kind, operatorRound (levels 2) 0 left t with
      | .name found, .punctuator .plusAssign, .ok (.again _) _ => found == name
      | _, _, _ => false
    | .error _ _ => false
  | .error _ _ => false

/-- What the test shows is a compound assignment to the name. -/
theorem exists_of_startsCompound {source : String} (h : startsCompound source name) :
    ∃ s left t next u, advance (.start source {} none) = .ok () s ∧ unary (levels 2) s =
      .ok left t ∧ left.form = .name name ∧ t.token.kind = .punctuator .plusAssign ∧
      operatorRound (levels 2) 0 left t = .ok (.again next) u := by
  unfold startsCompound at h
  split at h
  case h_2 => cases h
  case h_1 s hStart =>
  split at h
  case h_2 => cases h
  case h_1 left t hTarget =>
  split at h
  case h_2 => cases h
  case h_1 found next u hName hToken hRound =>
  exact ⟨s, left, t, next, u, hStart, hTarget, hName.trans (congrArg _ (eq_of_beq h)),
    hToken, hRound⟩

/-- A compound assignment: the name is checked as one that is read. -/
theorem modification_checks_compound :
    ∃ s t : Session, s.Aligned ∧ Modifies (levels 2) "a" (.assigns .plusAssign) s t ∧
      ∃ depth, s.Uses "a" (decide (depth = 0)) false depth t := by
  have hRuns : startsCompound "a += b" "a" := by decide +kernel
  obtain ⟨s, left, t, _, _, hStart, hTarget, hName, hToken, hRound⟩ :=
    exists_of_startsCompound hRuns
  have hAligned : s.Aligned := (Session.aligned_start _ _ _).advance hStart
  have hModifies : Modifies (levels 2) "a" (.assigns .plusAssign) s t :=
    .assigns hTarget hName hToken rfl hRound
  obtain ⟨⟨depth, hUses⟩, -⟩ := modification_checks hAligned hModifies
  have hRead : (Modification.assigns .plusAssign).isChecked depth t.token = false := by
    simp [Modification.isChecked]
  rw [hRead] at hUses
  exact ⟨s, t, hAligned, hModifies, depth, hUses⟩

end Grammar

end ScriptLint
