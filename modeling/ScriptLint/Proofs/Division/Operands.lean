import ScriptLint.Proofs.Division.Tail
import ScriptLint.Proofs.Grammar.Lenient

/-!
# Operands at the end of the shorter source

Every operand whose last token is the last one before the sources part leaves the longer source at
its division, and its own parser reports nothing there that is about syntax. One lemma for each
parser of operands, in the order of the grammar.

- `Settled`: what is known of the parsers one level deeper.
- `Settled.operand`: an operand closes whatever it is.
-/

namespace ScriptLint.Division

open Parse Grammar

variable {α : Type} {stop : Nat} {inner : Nested}

/-- An operand read with the power ends before a division. -/
abbrev Tight (power : Nat) : Prop := 130 < power

/-- What is known of the parsers one level deeper. -/
structure Settled (stop : Nat) (inner : Nested) : Prop where
  nested : (lockstep stop).Nested inner inner
  expression (power : Nat) :
    Closes stop (Tight power) (inner.expression power) (inner.expression power)
  construction : Closes stop True inner.construction inner.construction

/-! ## Expected tokens -/

/-- A token that is expected is consumed. -/
theorem closes_expect (p : Punctuator) : Closes stop True (expect p) (expect p) :=
  .prepend ((lockstep stop).sees p) fun _ => .ite _ closes_advance (closes_failExpected _)

theorem closes_expectClosing (p : Punctuator) (opener : Token) :
    Closes stop True (expectClosing p opener) (expectClosing p opener) := by
  refine .prepend ((lockstep stop).sees p) fun _ => .ite _ closes_advance ?_
  exact .prepend (lockstep stop).current fun _ =>
    .ite _ (closes_failAt _ _ rfl) (closes_failExpected _)

theorem closes_expectIdentifier : Closes stop True expectIdentifier expectIdentifier := by
  refine .prepend (lockstep stop).current fun t => ?_
  cases t.identifier? with
  | some name => exact closes_advance.bind fun _ => rests_pure _
  | none => exact closes_failIdentifier

/-- A literal. -/
theorem closes_literal (a : α) : Closes stop True (do advance; return a) (do advance; return a) :=
  closes_advance.bind fun _ => rests_pure a

/-! ## What follows an operand -/

namespace Settled

theorem arguments (h : Settled stop inner) :
    Closes stop True (arguments inner) (arguments inner) := by
  refine .prepend (lockstep stop).current fun opener => .prepend .advance fun _ => ?_
  refine .prepend (.withNoIn false (.loop h.nested.argument none)) fun first => ?_
  exact (closes_expectClosing _ _).bind fun _ => rests_pure first

theorem template (h : Settled stop inner) : Closes stop True (template inner) (template inner) := by
  refine .prepend .advance fun _ => .loop (fun _ => ?_) ()
  refine .prepend ((lockstep stop).discard (.withNoIn false h.nested.wholeExpression)) fun _ => ?_
  refine .prepend (lockstep stop).current fun t => ?_
  split
  · exact closes_literal _
  · exact closes_literal _
  · exact closes_failExpected _

end Settled

theorem rests_checkProperty (object : Summary) (key : String) (place : Token) :
    Rests stop True (checkProperty object key place) (checkProperty object key place) :=
  rests_remark (Congruence.Nested.checkProperty (K := lockstep stop) object key place)
    (standing_lenient.checkProperty object key place)

/-- At the semicolon there is no property. -/
theorem closes_dottedProperty (left : Summary) (optional : Bool) :
    Closes stop True (dottedProperty left optional) (dottedProperty left optional) := by
  refine .prepend .advance fun _ => .current (fun property => ?_) fun property hp => ?_
  · split
    · exact trails_pure left
    · cases property.propertyName? with
      | some key =>
        refine (closes_advance.bind fun _ => ?_).toTrails
        exact (rests_checkProperty left key property).bind fun _ => rests_pure _
      | none => exact closes_failIdentifier.toTrails
  · have hName : property.propertyName? = none := by
      unfold Token.propertyName?
      rw [hp]
    have hParen (p : Punctuator) (h : Punctuator.semicolon ≠ p) :
        property.isPunctuator p = false := by
      unfold Token.isPunctuator
      rw [hp]
      exact decide_eq_false h
    rw [hName, hParen _ (by decide), hParen _ (by decide), Bool.or_false, Bool.and_false]
    exact Closes.stuck (closes_failIdentifier : Closes stop True _ _)

namespace Settled

theorem subscript (h : Settled stop inner) (left : Summary) :
    Closes stop True (subscript inner left) (subscript inner left) := by
  refine .prepend (lockstep stop).current fun opener => .prepend .advance fun _ => ?_
  refine .prepend (.withNoIn false h.nested.wholeExpression) fun key => ?_
  refine (closes_expectClosing _ _).bind fun _ => ?_
  split
  · next name _ =>
    have hCheck : Rests stop True (checkSubscript name key) (checkSubscript name key) :=
      rests_remark (Congruence.Nested.checkSubscript (K := lockstep stop) name key)
        (standing_lenient.checkSubscript name key)
    exact hCheck.bind fun _ => (rests_checkProperty left name opener).bind fun _ => rests_pure _
  · exact rests_pure _

/-- One link of a chain; neither a semicolon nor a slash begins one. -/
theorem chainLink (h : Settled stop inner) (allowCall : Bool) (left : Summary) :
    Rests stop True (chainLink inner allowCall left) (chainLink inner allowCall left) := by
  refine .current (fun t => ?_) fun t t' ht ht' => ?_
  -- neither the semicolon nor the slash begins a link
  · split
    · exact ((closes_dottedProperty left false).bind fun _ => rests_pure _).toTrails
    · exact ((closes_dottedProperty left true).bind fun _ => rests_pure _).toTrails
    · exact ((h.subscript left).bind fun _ => rests_pure _).toTrails
    · split
      · refine (h.arguments.bind fun first => ?_).toTrails
        have hCheck : Rests stop True (checkCall left first) (checkCall left first) :=
          rests_remark (Congruence.Nested.checkCall (K := lockstep stop) left first)
            (standing_lenient.checkCall left first)
        exact hCheck.bind fun _ => rests_pure _
      · exact trails_pure _
    · exact (h.template.bind fun _ => rests_pure _).toTrails
    · exact (closes_literal _).toTrails
    · exact trails_pure _
  · rw [ht]
    rcases ht' with ht' | ht'
    · rw [ht']
      exact idles_pure _
    · rw [ht']
      exact idles_pure _

theorem chain (h : Settled stop inner) (allowCall : Bool) (left : Summary) :
    Rests stop True (chain inner allowCall left) (chain inner allowCall left) :=
  .loop (h.chainLink allowCall) left

end Settled

/-! ## Functions -/

/-- By induction on the rounds: a loop ends with the round that is done. -/
theorem exists_of_rounds {f : α → Parse (Round α)} {n : Nat} {a b : α} {s t : Session}
    (h : rounds f n a s = .ok b t) : ∃ c m, f c m = .ok (.done b) t := by
  induction n generalizing a s with
  | zero => cases h
  | succ n ih =>
    obtain ⟨r, m, hr, hRest⟩ := exists_of_bind h
    cases r with
    | again c => exact ih hRest
    | done c =>
      cases hRest
      exact ⟨a, s, hr⟩

/-- A list of statements in braces ends at the closing one or at the end of input. -/
theorem token_of_statementList {s t : Session} {n : Nat}
    (h : statementList inner .brace s = .ok n t) : ListEnd.brace.isAt t.token = true := by
  obtain ⟨state, m, hLoop, hCount⟩ := exists_of_bind h
  obtain ⟨c, u, hRound⟩ := exists_of_rounds hLoop
  cases hCount
  change
    (if ListEnd.brace.isAt u.token then pure (.done c) else
    _ : Parse (Round ListState)) u = _ at hRound
  split at hRound
  · next hEnd =>
    cases hRound
    exact hEnd
  · obtain ⟨_, _, -, hAgain⟩ := exists_of_bind
      (show (listStatement inner c >>= fun state => pure (Round.again state)) u = _ from hRound)
    cases hAgain

/-- A parser that comes to no semicolon. -/
theorem closes_of_elsewhere {p q : Parse α} {tight : Prop} (h : Lockstep stop p q)
    (hp : ∀ s a t, p s = .ok a t → t.token.kind ≠ .punctuator .semicolon) :
    Closes stop tight p q where
  toLockstep := h
  trails s _ _ a t ht hStopped := absurd hStopped.token (hp s a t ht)
  stuck s _ a t ht hStopped := absurd hStopped.token (hp s a t ht)

namespace Settled

theorem statementList (h : Settled stop inner) :
    Closes stop True (statementList inner .brace) (statementList inner .brace) := by
  refine closes_of_elsewhere (h.nested.statementList _) fun s n t ht hKind => ?_
  have hEnd := token_of_statementList ht
  rw [ListEnd.isAt, Token.isEnd, Token.isPunctuator, hKind] at hEnd
  cases hEnd

theorem bracedBody (h : Settled stop inner) (kind : FunctionKind) :
    Closes stop True (bracedBody inner kind) (bracedBody inner kind) := by
  have hBody : Closes stop True (functionBody inner kind) (functionBody inner kind) := by
    refine .prepend (Congruence.Nested.prologue (K := lockstep stop)) fun _ => ?_
    refine .read fun s s' ⟨_, _, _, _, hs⟩ => ?_
    subst hs
    exact .when _ ((lockstep stop).warnHere _ rfl) fun _ => h.statementList.discard fun _ => trivial
  refine .prepend ((lockstep stop).sees _) fun _ => ?_
  split
  · exact .prepend (.modify (still_apart fun _ _ _ _ _ => rfl)) fun _ => .prepend .advance fun _ =>
      hBody.withNoIn false
  · exact closes_failExpected _

/-- The rest of a function behind its parameters. -/
theorem functionTail (h : Settled stop inner) (kind : FunctionKind) :
    Closes stop True (functionTail inner kind) (functionTail inner kind) := by
  have hRest : Closes stop True
      (do
        if kind = .arrow && !(← Parse.sees .leftBrace) then
          openOverlay
          discard (Parse.withNoIn false inner.assignment)
          return false
        else
          Grammar.bracedBody inner kind
          return true)
      (do
        if kind = .arrow && !(← Parse.sees .leftBrace) then
          openOverlay
          discard (Parse.withNoIn false inner.assignment)
          return false
        else
          Grammar.bracedBody inner kind
          return true) := by
    refine .prepend ((lockstep stop).sees _) fun _ => ?_
    split
    · refine .prepend (.modify (still_apart fun _ _ _ _ _ => rfl)) fun _ => Closes.bind ?_ fun _ =>
        rests_pure false
      exact ((h.expression _).withNoIn false).discard fun _ => trivial
    · exact (h.bracedBody kind).bind fun _ => rests_pure true
  unfold Grammar.functionTail
  split
  · exact .prepend ((lockstep stop).expect _) fun _ => hRest
  · exact hRest

/-- A function's parts. -/
theorem functionParts (h : Settled stop inner) (kind : FunctionKind) (name : Option String)
    (line column : Nat) : Closes stop True (functionParts inner kind name line column)
      (functionParts inner kind name line column) := by
  have hRest : Closes stop True
      (do
        let count ← parameters inner kind
        modifyMetrics (·.setParameters count)
        Grammar.functionTail inner kind)
      (do
        let count ← parameters inner kind
        modifyMetrics (·.setParameters count)
        Grammar.functionTail inner kind) :=
    .prepend (h.nested.parameters kind) fun _ =>
      .prepend (.modify (still_apart fun _ _ _ _ _ => rfl)) fun _ => h.functionTail kind
  unfold Grammar.functionParts
  split
  · exact .prepend ((lockstep stop).declare _ _ _ _) fun _ => hRest
  · exact hRest

/-- A function that is a value or a method. -/
theorem function (h : Settled stop inner) {kind : FunctionKind} (hKind : kind ≠ .declaration)
    (name : Option String) (line column : Nat) :
    Closes stop True (function inner kind name line column)
      (function inner kind name line column) := by
  have hBrace : Closes stop True (closingBrace kind) (closingBrace kind) := by
    refine .prepend ((lockstep stop).sees _) fun _ => ?_
    rw [decide_eq_false hKind, Bool.false_and]
    exact closes_expect .rightBrace
  have hRest (_ : Unit) : Closes stop True
      (do
        let braced ← insideFunction kind name line column
          (Grammar.functionParts inner kind name line column)
        if braced then closingBrace kind)
      (do
        let braced ← insideFunction kind name line column
          (Grammar.functionParts inner kind name line column)
        if braced then closingBrace kind) := by
    refine Closes.bind
      ((h.functionParts kind name line column).insideFunction kind name line column)
      fun braced => ?_
    cases braced with
    | true => exact hBrace.rests
    | false => exact rests_pure ()
  refine .read fun s s' ⟨_, _, _, _, hs⟩ => ?_
  subst hs
  exact .when _ ((lockstep stop).warnUnless _ _ _ _ rfl) hRest

end Settled

/-! ## Names and functions as values -/

/-- What is noted about a name once it was consumed. -/
def noteUse (name : String) (t : Token) : Parse Summary := do
  let s ← get
  if modifiesName s.token && s.context.strict && (name == "eval" || name == "arguments") then
    warn .strictViolation t
  if s.token.isPunctuator .assign then assign name t.line t.column
  else reference name t.line t.column
  return .startingAt t (.name name)

theorem resolves_noteUse {C : Contract} (h : C.Lenient) (name : String) (t : Token) :
    Resolves C (noteUse name t) := by
  refine .read fun s => .when _ (h.warn t rfl) (.ite _ ?_ ?_)
  · exact .bind (h.assign _ _ _) fun _ => .pure _
  · exact .bind (h.reference _ _ _) fun _ => .pure _

/-- The use of a name gives that name. -/
theorem gives_noteUse (name : String) (t : Token) :
    Gives (.startingAt t (.name name)) (noteUse name t) := by
  refine .bind fun s => .ite _ (.bind fun _ => ?_) ?_
  · exact .ite _ (.bind fun _ => gives_pure _) (.bind fun _ => gives_pure _)
  · exact .ite _ (.bind fun _ => gives_pure _) (.bind fun _ => gives_pure _)

/-- A name used as a value ends at the name. -/
theorem closes_nameUse (name : String) (t : Token) :
    Closes stop True (nameUse name t) (nameUse name t) := by
  have hLockstep : Lockstep stop (noteUse name t) (noteUse name t) := by
    refine .read fun s s' ⟨_, _, _, _, hs⟩ => ?_
    subst hs
    refine (lockstep stop).when _ ((lockstep stop).warn .strictViolation t rfl) fun _ => ?_
    refine (lockstep stop).ite _ ?_ ?_
    · exact .bind ((lockstep stop).assign _ _ _) fun _ => .pure _
    · exact .bind ((lockstep stop).reference _ _ _) fun _ => .pure _
  exact closes_advance.bind fun _ =>
    rests_check hLockstep (resolves_noteUse standing_lenient name t) (gives_noteUse name t)

namespace Settled

theorem arrowFunction (h : Settled stop inner) (t : Token) :
    Closes stop True (arrowFunction inner t) (arrowFunction inner t) :=
  (h.function (by decide : FunctionKind.arrow ≠ .declaration) none t.line t.column).bind fun _ =>
    rests_pure _

/-- A function as a value ends with its body. -/
theorem functionExpression (h : Settled stop inner) :
    Closes stop True (functionExpression inner) (functionExpression inner) := by
  refine .prepend (lockstep stop).current fun t =>
    .prepend ((lockstep stop).expectWord _) fun _ => ?_
  refine .prepend ((lockstep stop).discard ((lockstep stop).eat _)) fun _ => ?_
  refine .read fun s s' ⟨_, _, _, _, hs⟩ => ?_
  subst hs
  refine .prepend (.modify (still_apart fun _ _ _ _ _ => rfl)) fun _ =>
    .prepend (lockstep stop).current fun next => ?_
  cases next.identifier? with
  | some name =>
    refine .prepend .advance fun _ => ?_
    exact (h.function (by decide : FunctionKind.named ≠ .declaration) _ _ _).bind fun _ =>
      rests_pure _
  | none =>
    exact (h.function (by decide : FunctionKind.anonymous ≠ .declaration) _ _ _).bind fun _ =>
      rests_pure _

end Settled

/-- Where the sources have parted, no arrow follows. -/
theorem startsArrow_trailing {s : Session} {l : Lexer} (hFrom : s.stream.From l)
    (hTrailing : Lexer.Trailing l) :
    ∃ stream, stream.From l ∧ startsArrow s = .ok false { s with stream } := by
  obtain ⟨b, n, hVisit⟩ := Lexer.exists_visits TokenStream.answersAtEnd_closing l 1
  obtain ⟨hSome, hFront, -⟩ := TokenStream.survey_spec TokenStream.answersAtEnd_closing hFrom hVisit
  obtain rfl : b = false :=
    visits_trailing (P := (· = false))
      (fun _ _ _ hPlain hClosing => closing_of_plain hPlain hClosing) hVisit
      hTrailing.next.1 hTrailing.next.2
  refine ⟨_, hFront, ?_⟩
  show EStateM.Result.ok ((s.stream.survey TokenStream.closing 1).1.getD false) _ = _
  rw [hSome]
  rfl

/-- Whether an arrow function starts, or a name is called. -/
theorem rests_startsArrow {p q : Parse α} (hp : Closes stop True p p) (hq : Rests stop True q q) :
    Rests stop True (do if ← startsArrow then p else q) (do if ← startsArrow then p else q) := by
  -- both branches are settled; the lookahead itself can tell the runs apart only behind the end
  have hBranch (b : Bool) : Rests stop True (if b then p else q) (if b then p else q) := by
    cases b with
    | true => exact hp.rests
    | false => exact hq
  -- behind the end the second run goes for the name, and so does the first one if it stays there
  have hBehind {P : Session → Prop} (hFollows : Follows stop True (Behind stop P) q q)
      (hFalse : ∀ s, P s → ∃ m, startsArrow s = .ok false m ∧ P m) :
      Follows stop True (Behind stop P) (do if ← startsArrow then p else q)
        (do if ← startsArrow then p else q) := by
    intro s s' hs a t ht hStopped
    obtain ⟨m', hm', hP⟩ := hFalse s' hs.2
    obtain ⟨b, m, hm, hb⟩ := exists_of_bind ht
    have hBefore : Stopped stop m :=
      hStopped.before hb (hBranch b).onward (hs.1.ended.of_ok hm onward_startsArrow)
    rw [bind_of_ok hm']
    cases b with
    | true => exact absurd hStopped (hp.stuck m hBefore a t hb)
    | false => exact hFollows m m' ⟨hBefore, hP⟩ a t hb hStopped
  refine ⟨.after .startsArrow (fun _ _ _ ht => ?_) fun b => (hBranch b).toTrails, ?_, ?_⟩
  · cases ht
    rfl
  · refine hBehind hq.held fun s hAt => ?_
    obtain ⟨hs, hToken, l, hFrom, hRest⟩ := hAt
    obtain ⟨stream, hFront, hRun⟩ :=
      startsArrow_trailing hFrom (by rw [Lexer.Trailing, hRest]; decide)
    exact ⟨_, hRun, ⟨hs.calm, hs.clean⟩, hToken, l, hFront, hRest⟩
  · refine hBehind hq.past fun s hAt => ?_
    obtain ⟨hs, hToken, l, hFrom, hRest⟩ := hAt
    obtain ⟨stream, hFront, hRun⟩ :=
      startsArrow_trailing hFrom (by rw [Lexer.Trailing, hRest]; decide)
    exact ⟨_, hRun, ⟨hs.calm, hs.clean⟩, hToken, l, hFront, hRest⟩

namespace Settled

/-- What `async` begins ends alike in both runs. -/
theorem asyncForm (h : Settled stop inner) (t : Token) :
    Trails stop True (asyncForm inner t) (asyncForm inner t) := by
  have hStay {test : Token → Bool} (s : Session) (b : Bool) (u : Session)
      (hu : peekIs test s = .ok b u) : u.token = s.token := by
    cases hu
    rfl
  -- each test looks at one token ahead and passes over both the semicolon and the slash
  refine .after ((lockstep stop).peekIs fun t ht _ => ht) hStay fun newline => ?_
  split
  · exact trails_pure none
  refine .after ((lockstep stop).peekIs ?_) hStay fun isFunction => ?_
  · rintro t - (h | h) <;> simp [Token.isKeyword, h]
  split
  · exact (Closes.prepend .advance fun _ => h.functionExpression.bind fun _ =>
      rests_pure _).toTrails
  refine .after ((lockstep stop).peekIs ?_) hStay fun isName => ?_
  · rintro t - (h | h) <;> simp [Token.identifier?, h]
  split
  · refine .after .peekArrowAfterNext (fun _ _ _ hu => by cases hu; rfl) fun arrow => ?_
    split
    · exact (Closes.prepend .advance fun _ => (h.arrowFunction t).bind fun _ =>
        rests_pure _).toTrails
    · exact trails_pure none
  refine .after ((lockstep stop).peekIs ?_) hStay fun isCall => ?_
  · rintro t - (h | h) <;> simp [Token.isPunctuator, h]
  split
  · have hName :
      Rests stop True (reference "async" t.line t.column) (reference "async" t.line t.column) :=
      rests_remark ((lockstep stop).reference _ _ _) (standing_lenient.reference _ _ _)
    refine (closes_advance.bind fun _ => rests_startsArrow ?_
      (hName.bind fun _ => rests_pure _)).toTrails
    exact (h.arrowFunction t).bind fun _ => rests_pure _
  · exact trails_pure none

/-- What a name begins ends alike in both runs. -/
theorem identifierForm (h : Settled stop inner) (name : String) (t : Token) :
    Trails stop True (identifierForm inner name t) (identifierForm inner name t) := by
  refine .after ((lockstep stop).peekIs ?_) (fun _ _ _ hu => by cases hu; rfl) fun arrow => ?_
  · rintro t - (h | h) <;> simp [Token.isPunctuator, h]
  split
  · exact (h.arrowFunction t).toTrails
  split
  · refine (h.asyncForm t).bind fun e => ?_
    cases e with
    | some e => exact rests_pure e
    | none => exact (closes_nameUse name t).rests
  · exact (closes_nameUse name t).toTrails

/-! ## Brackets -/

theorem parenthesized (h : Settled stop inner) :
    Closes stop True (parenthesized inner) (parenthesized inner) := by
  refine .prepend (lockstep stop).current fun opener => .prepend .advance fun _ => ?_
  refine .prepend (.withNoIn false h.nested.wholeExpression) fun e => ?_
  exact (closes_expectClosing _ _).bind fun _ => rests_pure _

theorem arrayLiteral (h : Settled stop inner) :
    Closes stop True (arrayLiteral inner) (arrayLiteral inner) := by
  refine .prepend (lockstep stop).current fun opener => .prepend .advance fun _ => ?_
  refine .prepend (.withNoIn false (.loop h.nested.arrayElement ())) fun _ => ?_
  exact (closes_expectClosing _ _).bind fun _ => rests_pure _

theorem objectLiteral (h : Settled stop inner) :
    Closes stop True (objectLiteral inner) (objectLiteral inner) := by
  refine .prepend (lockstep stop).current fun opener => .prepend .advance fun _ => ?_
  refine .prepend (.withNoIn false (.loop h.nested.objectElement ())) fun _ => ?_
  exact (closes_expectClosing _ _).bind fun _ => rests_pure _

/-- A class as a value; what it extends need only run in lockstep. -/
theorem classForm (h : Settled stop inner) {heritage heritage' : Parse Unit}
    (hHeritage : Lockstep stop heritage heritage') :
    Closes stop True (classForm inner heritage false) (classForm inner heritage' false) := by
  refine .prepend ((lockstep stop).expectWord _) fun _ => ?_
  refine .prepend (Congruence.Nested.className (K := lockstep stop) false) fun _ => ?_
  refine .prepend ((lockstep stop).seesWord _) fun isDerived => ?_
  have hRest (_ : Unit) : Closes stop True
      (do
        let opener ← Parse.current
        expect .leftBrace
        Parse.loop (classElement inner) ()
        expectClosing .rightBrace opener)
      (do
        let opener ← Parse.current
        expect .leftBrace
        Parse.loop (classElement inner) ()
        expectClosing .rightBrace opener) := by
    refine .prepend (lockstep stop).current fun opener =>
      .prepend ((lockstep stop).expect _) fun _ => ?_
    exact .prepend (.loop h.nested.classElement ()) fun _ => closes_expectClosing _ _
  exact .ite _ (.prepend .advance fun _ => .prepend hHeritage hRest) (hRest ())

/-! ## Operands -/

/-- An operand ends alike in both runs, whatever it begins with. -/
theorem simpleOperand (h : Settled stop inner) :
    Closes stop True (simpleOperand inner) (simpleOperand inner) := by
  refine .current (fun t => ?_) fun t ht => ?_
  -- one case for each token an operand begins with
  · split
    · exact h.identifierForm _ t
    · refine (Closes.prepend (Congruence.Nested.checkThis (K := lockstep stop) t) fun _ =>
        ?_).toTrails
      exact closes_literal _
    · exact (closes_literal _).toTrails
    · exact h.functionExpression.toTrails
    · exact h.construction.toTrails
    · exact (closes_literal _).toTrails
    · exact (closes_literal _).toTrails
    · exact (closes_literal _).toTrails
    · exact (closes_literal _).toTrails
    · exact (closes_literal _).toTrails
    · exact (closes_literal _).toTrails
    · exact (closes_literal _).toTrails
    · exact (h.template.bind fun _ => rests_pure _).toTrails
    · exact (closes_literal _).toTrails
    · exact (Closes.prepend .startsArrow fun _ =>
        .ite _ (h.arrowFunction t) h.parenthesized).toTrails
    · exact h.arrayLiteral.toTrails
    · exact h.objectLiteral.toTrails
    · exact closes_failIdentifier.toTrails
  -- a semicolon begins none
  · rw [ht]
    exact Closes.stuck (closes_failIdentifier : Closes stop True _ _)

theorem operandForm (h : Settled stop inner) {p q : Parse Summary} (hp : Lockstep stop p q) :
    Closes stop True (operandForm inner p) (operandForm inner q) := by
  refine .prepend (lockstep stop).current fun t => .ite _ ?_ h.simpleOperand
  exact (h.classForm (h.nested.heritageOf hp)).bind fun _ => rests_pure _

/-- An operand closes at once, however deeply classes extend classes in it. -/
theorem operand (h : Settled stop inner) : Closes stop True (operand inner) (operand inner) := by
  have hForm (p q : Parse Summary) (hp : Lockstep stop p q) :
      Lockstep stop (Grammar.operandForm inner p) (Grammar.operandForm inner q) :=
    (h.operandForm hp).toLockstep
  have hUnfolded {n n' : Nat} (hn : n ≤ n') : Closes stop True
      (unfolded (Grammar.operandForm inner) n) (unfolded (Grammar.operandForm inner) n') := by
    cases n with
    | zero => exact closes_of_error (.unfolded hForm hn) fun _ _ _ ht => by cases ht
    | succ n =>
      obtain ⟨m, rfl⟩ : ∃ m, n' = m + 1 := ⟨n' - 1, by omega⟩
      exact h.operandForm (.unfolded hForm (Nat.le_of_succ_le_succ hn))
  refine ⟨⟨.recursive hForm, fun s s' hs => ?_⟩, fun s => ?_⟩
  · exact (hUnfolded (Lockstep.budget_le hs)).trails s s' hs
  · exact (hUnfolded (Nat.le_refl s.budget)).stuck s

/-- A `new` expression. -/
theorem constructionForm (h : Settled stop inner) :
    Closes stop True (Grammar.construction inner) (Grammar.construction inner) := by
  refine .prepend (lockstep stop).current fun newToken => .prepend .advance fun _ => ?_
  refine .prepend ((lockstep stop).eat _) fun _ => .ite _ ?_ ?_
  · exact (closes_expectIdentifier.discard fun _ => trivial).bind fun _ => rests_pure _
  refine .prepend (lockstep stop).current fun calleeToken => ?_
  refine .when _ ((lockstep stop).warnUnless .supernew .weirdNew _ _ rfl) fun _ => ?_
  refine h.operand.bind fun base => (h.chain false base).bind fun callee => ?_
  have hRest (_ : Unit) : Rests stop True
      (do
        if ← Parse.sees .leftParen then discard (Grammar.arguments inner)
        return Summary.startingAt newToken .construction)
      (do
        if ← Parse.sees .leftParen then discard (Grammar.arguments inner)
        return Summary.startingAt newToken .construction) := by
    refine Rests.bind (rests_sees (by decide)) fun hasArguments => ?_
    split
    · exact ((h.arguments.discard fun _ => trivial).bind fun _ => rests_pure _).rests
    · exact rests_pure _
  split
  · next name _ =>
    have hCheck := Congruence.Nested.checkConstructor (K := lockstep stop) name newToken calleeToken
    exact (rests_remark hCheck (standing_lenient.checkConstructor name newToken calleeToken)).bind
      hRest
  · exact hRest ()

end Settled

end ScriptLint.Division
