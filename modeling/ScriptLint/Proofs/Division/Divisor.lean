import ScriptLint.Proofs.Division.Operands

/-!
# The division and what follows it

Where the shorter source has its semicolon, the longer one has a division, a name and a semicolon.
The second run reads them by itself: the name is an operand with no operators of its own, and the
semicolon ends the statement.

- `Session.Spares`: what was reported is kept, and nothing harmful comes with it.
- `Brings`: parsers that come from one place behind the end to another, or stop unharmed.
- `brings_divisor`: an expression that starts at the name ends at the semicolon.
-/

namespace ScriptLint

/-! ## Tokens -/

namespace Lexer

variable {l : Lexer} {c d : Char} {rest : List Char}

/-- A name ends after its first letter if no part of a name follows. -/
theorem wordBody_letter (hc : isNamePart c = true) (hd : isNamePart d = false)
    (hEscape : (c == '\x5c') = false ∧ (d == '\x5c') = false) :
    wordBody 0 (c :: d :: rest) {} = { name := String.push "" c, length := 1 } := by
  simp [wordBody, hc, hd, hEscape]

/-- A single letter in front of a character of no name is scanned as a name. -/
theorem scanWord_letter (hc : isNamePart c = true) (hd : isNamePart d = false)
    (hEscape : (c == '\x5c') = false ∧ (d == '\x5c') = false)
    (hWord : Keyword.ofWord? (String.push "" c) = none) (templates : List Nat) :
    scanWord templates (c :: d :: rest) =
      { length := 1, scanned := .token (.identifier (String.push "" c)), templates } := by
  unfold scanWord
  rw [wordBody_letter hc hd hEscape]
  dsimp only [WordScan.kind]
  rw [hWord]

/-- A token is read where one was scanned. -/
theorem next_token {s : Scan} {kind : TokenKind} (hRest : l.skipBlank.cursor.rest = c :: rest)
    (hScan : scan l.skipBlank.regexAllowed l.skipBlank.templates c rest = s)
    (hs : s.scanned = .token kind) :
    ∃ t, l.next.1 = .ok t ∧ t.kind = kind ∧ l.next.2.cursor.rest = (c :: rest).drop s.length := by
  have hAfter : l.next.2.cursor.rest = (c :: rest).drop s.length := by
    rw [next_of_cons hRest, hScan, cursor_read, Cursor.rest_advance, hRest]
  refine ⟨((l.skipBlank.consume s).finish l.skipBlank.cursor kind).1, ?_, kind_finish .., hAfter⟩
  rw [next_of_cons hRest, hScan]
  unfold read
  rw [hs]

/-- Behind the slash comes the name. -/
theorem next_divisor (h : l.cursor.rest = [' ', 'y', ';']) :
    ∃ t, l.next.1 = .ok t ∧ t.kind = .identifier "y" ∧ l.next.2.cursor.rest = [';'] := by
  have hRest : l.skipBlank.cursor.rest = ['y', ';'] := by
    rw [rest_skipBlank, h]
    rfl
  have hScan := scan_divisor l.skipBlank.regexAllowed l.skipBlank.templates [';']
  rw [scanWord_letter (by decide +kernel) (by decide +kernel) (by decide)
    (by decide +kernel)] at hScan
  exact next_token hRest hScan rfl

/-- Behind the name comes the semicolon. -/
theorem next_semicolon (h : l.cursor.rest = [';']) :
    ∃ t, l.next.1 = .ok t ∧ t.kind = .punctuator .semicolon ∧ l.next.2.cursor.rest = [] := by
  have hRest : l.skipBlank.cursor.rest = [';'] := by
    rw [rest_skipBlank, h]
    rfl
  exact next_token hRest (scan_semicolon _ _ _) rfl

/-- Behind the semicolon comes the end of input. -/
theorem next_end (h : l.cursor.rest = []) :
    ∃ t, l.next.1 = .ok t ∧ t.kind = .endOfInput ∧ l.next.2.cursor.rest = [] := by
  have hRest : l.skipBlank.cursor.rest = [] := by
    rw [rest_skipBlank, h]
    rfl
  rw [next_of_nil hRest]
  exact ⟨_, rfl, kind_finish .., by rw [cursor_finish, hRest]⟩

end Lexer

/-! ## Consuming a token -/

namespace Session

/-- What was reported is kept, and nothing harmful comes with it. -/
structure Spares (s t : Session) : Prop where
  kept : ∀ d ∈ s.journal.kept, d ∈ t.journal.kept
  unharmed : s.Unharmed → t.Unharmed

theorem Spares.refl (s : Session) : s.Spares s := ⟨fun _ => id, id⟩

/-- Sparing is transitive. -/
theorem Spares.trans {s t u : Session} (h : s.Spares t) (h' : t.Spares u) : s.Spares u :=
  ⟨fun d hd => h'.kept d (h.kept d hd), fun hs => h'.unharmed (h.unharmed hs)⟩

/-- A session that stays where it is spares everything. -/
theorem Stands.spares {s t : Session} (h : s.Stands True t) :
    s.Spares t := ⟨h.kept, fun hs => hs.stands h⟩

end Session

/-- The contract to keep what was reported and add nothing harmful. -/
def sparing : Contract where
  Goes := Session.Spares
  Stops := Session.Spares
  refl := .refl
  trans := .trans
  stop := .trans

namespace Parse

open Lexer

variable {α : Type} {s : Session} {l : Lexer} {t : Token}

/-- What consumes nothing spares everything. -/
theorem sparing_of_standing {p : Parse α} (h : Resolves (standing True) p) : Resolves sparing p :=
  fun s => (h s).imp (fun _ => (·.spares)) fun _ => (·.spares)

theorem Resolved.ensuring {goes stops goes' stops' : Session → Prop} {p : Parse α}
    {change : Session → Session}
    (h : Resolved goes stops (p s)) (hg : ∀ t, goes t → goes' (change t))
    (hs : ∀ t, stops t → stops' (change t)) : Resolved goes' stops' (p.ensuring change s) := by
  cases hr : p s with
  | ok a t =>
    rw [hr] at h
    rw [ensuring_of_ok hr]
    exact hg t h
  | error e t =>
    rw [hr] at h
    rw [ensuring_of_error hr]
    cases e with
    | badSyntax => exact h
    | halt => exact hs t h

/-- Where the next token follows at once, nothing is noted on the way to it, and a contract is kept
that allows what is checked at a token and in the lines before it. -/
theorem advance_next {C : Contract} (hFrom : s.stream.From l) (hNext : l.next.1 = .ok t)
    (hKind : t.kind.isTrivia = false) (hConsumed : Resolves C checkConsumed)
    (hLines : ∀ line, Resolves C (checkLinesBefore line))
    (hMoves : ∀ (u : Session) consumed stream previous token,
    C.Goes u { u with consumed, stream, previous, token }) :
    Resolved (C.Goes s) (C.Stops s) (advance s) ∧
      Resolved (Arrives s 1 t l.next.2) (fun _ => True) (advance s) := by
  have hLeads : Leads l [.ok t] t l.next.2 := by
    rw [← hNext]
    exact .here (significant_of_kind hNext rfl hKind)
  have hNote : [Except.ok t].forM note = Pure.pure () := by
    have hNone : note (.ok t) = Pure.pure () := by
      unfold note
      dsimp only
      split
      · next h =>
        rw [h] at hKind
        cases hKind
      · rfl
    show (note (.ok t) >>= fun _ => Pure.pure ()) = _
    rw [hNone]
    rfl
  have hSteps : Resolves C (arrive s.stream.pullSignificant.2 [.ok t] t) := by
    refine .bind hConsumed fun _ => .bind (.modify fun u => hMoves u _ _ _ _) fun _ => ?_
    exact .bind (hNote ▸ .pure ()) fun _ => .bind (.modify fun u => hMoves u _ _ _ _)
      fun _ => hLines _
  refine ⟨?_, advance_arrives hFrom hLeads⟩
  rw [advance_eq hFrom hLeads]
  exact hSteps s

/-- Consuming a token of the source spares what was reported. -/
theorem advance_spares (hFrom : s.stream.From l) (hNext : l.next.1 = .ok t)
    (hKind : t.kind.isTrivia = false) : Resolved
      (fun u => s.Spares u ∧ Arrives s 1 t l.next.2 u) s.Spares (advance s) := by
  obtain ⟨hSpares, hArrives⟩ := advance_next (C := sparing) hFrom hNext hKind
    (sparing_of_standing standing_checkConsumed)
      (fun line => sparing_of_standing (standing_checkLinesBefore line))
    fun _ _ _ _ _ => ⟨fun _ => id, fun hu => ⟨hu.calm, hu.clean⟩⟩
  exact (hSpares.and hArrives).imp (fun _ => id) fun _ => And.left

end Parse

namespace Division

open Parse Grammar

variable {α β : Type} {p : Parse α} {f : α → Parse β} {kind kind' : TokenKind}
  {rest rest' : List Char} {inner : Nested}

/-! ## From place to place -/

/-- From sessions as described the run comes to others as described, or it stops unharmed. -/
def Brings (before after : Session → Prop) (p : Parse α) : Prop :=
  ∀ s, before s → Resolved after Session.Unharmed (p s)

/-- The longer source is at the name after its division. -/
abbrev Named : Session → Prop := At (.identifier "y") [';']

section Brings

variable {P Q R : Session → Prop}

theorem brings_pure (a : α) : Brings P P (pure a) := fun _ => id

theorem Brings.bind (h : Brings P Q p) (hf : ∀ a, Brings Q R (f a)) : Brings P R (p >>= f) :=
  fun s hs => (h s hs).bind (fun a t => hf a t) fun _ => id

theorem Brings.discard (h : Brings P Q p) : Brings P Q (discard p) := by
  rw [discard_eq_bind]
  exact h.bind fun _ => brings_pure ()

end Brings

/-- A check leads nowhere. -/
theorem brings_check (h : Resolves (standing True) p) : Brings (At kind rest) (At kind rest) p :=
  fun _ hs => h.unharmed hs.toUnharmed fun _ => hs.stands

/-- What is done depends on the kind of the current token only. -/
theorem brings_current {f : Token → Parse α} {Q : Session → Prop}
    (h : ∀ t : Token, t.kind = kind → Brings (At kind rest) Q (f t)) :
    Brings (At kind rest) Q (current >>= f) :=
  fun s hs => h s.token hs.token s hs

/-- Consuming the next token leads one token further. -/
theorem brings_advance (hKind : kind'.isTrivia = false)
    (h : ∀ l : Lexer, l.cursor.rest = rest →
      ∃ t, l.next.1 = .ok t ∧ t.kind = kind' ∧ l.next.2.cursor.rest = rest') :
    Brings (At kind rest) (At kind' rest') advance := by
  intro s hs
  obtain ⟨l, hFrom, hRest⟩ := hs.front
  obtain ⟨t, hNext, hToken, hAfter⟩ := h l hRest
  refine (advance_spares hFrom hNext (hToken ▸ hKind)).imp (fun u hu => ?_) fun u hu =>
    hu.unharmed hs.toUnharmed
  exact ⟨hu.1.unharmed hs.toUnharmed, hu.2.token ▸ hToken, _, hu.2.front, hAfter⟩

/-- A look at the next token, which is known. -/
theorem peekIs_eq {s : Session} {l : Lexer} {t : Token} {test : Token → Bool}
    (hFrom : s.stream.From l) (hNext : l.next.1 = .ok t) (hKind : t.kind.isTrivia = false) :
    peekIs test s = .ok (test t) { s with stream := (s.stream.peek 0).2 } := by
  have hLeads : Lexer.Leads l [l.next.1] t l.next.2 :=
    .here (Lexer.significant_of_kind hNext rfl hKind)
  obtain ⟨hSome, -⟩ := TokenStream.peek_spec hFrom (n := 0) (hLeads.visits rfl)
  show EStateM.Result.ok ((s.stream.peek 0).1.any test) _ = _
  rw [hSome]
  rfl

/-- A loop whose body is done at once leads nowhere. -/
theorem brings_rounds {g : α → Parse (Round α)} {P : Session → Prop}
    (hUnharmed : ∀ s, P s → s.Unharmed)
    (h : ∀ a s, P s → g a s = .ok (.done a) s) (n : Nat) (a : α) : Brings P P (rounds g n a) := by
  intro s hs
  cases n with
  | zero => exact hUnharmed s hs
  | succ n =>
    show Resolved _ _ ((g a >>= _) s)
    rw [bind_of_ok (h a s hs)]
    exact hs

/-- A loop that is done at once stays where it is. -/
theorem brings_loop {g : α → Parse (Round α)} {P : Session → Prop}
    (hUnharmed : ∀ s, P s → s.Unharmed)
    (h : ∀ a s, P s → g a s = .ok (.done a) s) (a : α) : Brings P P (loop g a) :=
  fun s => brings_rounds hUnharmed h s.budget a s

/-! ## The name after the division -/

/-- A use of the name leads past it. -/
theorem brings_nameUse (t : Token) : Brings Named Past (nameUse "y" t) :=
  (brings_advance rfl fun _ => Lexer.next_semicolon).bind fun _ =>
    brings_check (resolves_noteUse standing_lenient "y" t)

/-- The name after the division starts no arrow function. -/
theorem brings_identifierForm (t : Token) : Brings Named Past (identifierForm inner "y" t) := by
  intro s hs
  obtain ⟨l, hFrom, hRest⟩ := hs.front
  -- the semicolon comes next, and it is no arrow
  obtain ⟨semicolon, hNext, hKind, -⟩ := Lexer.next_semicolon hRest
  have hPeek : peekIs (·.isPunctuator .arrow) s =
      .ok (semicolon.isPunctuator .arrow) { s with stream := (s.stream.peek 0).2 } :=
    peekIs_eq hFrom hNext (by rw [hKind]; rfl)
  have hArrow : semicolon.isPunctuator .arrow = false := by
    rw [Token.isPunctuator, hKind]
    rfl
  rw [hArrow] at hPeek
  show Resolved _ _ ((peekIs (·.isPunctuator .arrow) >>= _) s)
  rw [bind_of_ok hPeek]
  exact brings_nameUse t _ ⟨⟨hs.calm, hs.clean⟩, hs.token, l, TokenStream.from_peek 0 hFrom, hRest⟩

/-- The name is an operand of its own. -/
theorem brings_operand : Brings Named Past (operand inner) := by
  intro s hs
  show Resolved _ _ (unfolded (operandForm inner) s.budget s)
  cases s.budget with
  | zero => exact hs.toUnharmed
  | succ n =>
    refine brings_current (fun t ht => ?_) s hs
    have hClass : t.isKeyword .classWord = false := by
      rw [Token.isKeyword, ht]
    rw [hClass]
    refine brings_current fun t ht => ?_
    rw [ht]
    exact brings_identifierForm t

/-- Nothing is chained to the name, since a semicolon follows. -/
theorem brings_chain (left : Summary) : Brings Past Past (chain inner true left) := by
  refine brings_loop (fun _ hs => hs.toUnharmed) (fun left s hs => ?_) left
  have hCurrent : current s = .ok s.token s := rfl
  unfold chainLink
  rw [bind_of_ok hCurrent, hs.token]
  rfl

/-- No operator stands at a semicolon. -/
theorem operatorRound_semicolon {s : Session} (h : s.token.kind = .punctuator .semicolon)
    (least : Nat) (left : Summary) : operatorRound inner least left s = .ok (.done left) s := by
  have hPower : Power.ofToken? s.token s.noIn = none := by
    rw [Power.ofToken?, h]
    rfl
  have hGet : (get : Parse Session) s = .ok s s := rfl
  unfold operatorRound
  rw [bind_of_ok hGet, hPower]
  rfl

/-- No operator follows the name. -/
theorem brings_operatorRounds (least n : Nat) (left : Summary) :
    Brings Past Past (rounds (operatorRound inner least) n left) :=
  brings_rounds (fun _ hs => hs.toUnharmed)
    (fun left _ hs => operatorRound_semicolon hs.token least left) n left

/-- An expression that starts at the name after the division ends at the semicolon. -/
theorem brings_operators (least : Nat) : Brings Named Past (operators inner least) := by
  have hUnary : Brings Named Past (unary inner) := by
    refine brings_current fun t ht => ?_
    rw [ht]
    exact brings_operand.bind brings_chain
  exact hUnary.bind fun left s => brings_operatorRounds least s.budget left s

/-- A run stopped for its depth arrives nowhere. -/
theorem brings_tooDeep {P Q : Session → Prop} (h : ∀ s, P s → s.Unharmed) :
    Brings P Q (tooDeep : Parse α) := by
  intro s hs
  refine ⟨(h s hs).calm, fun d hd => ?_⟩
  have hHalt : d ∈ (s.journal.halt
      ((Finding.unrecoverable s.percent).diagnostic s.token.line s.token.column)).kept := hd
  unfold Journal.halt at hHalt
  split at hHalt
  · exact (h s hs).clean d hHalt
  · rcases List.mem_cons.mp hHalt with rfl | hKept
    · exact Finding.harmless_unrecoverable _ _ _
    · exact (h s hs).clean d hKept

theorem Brings.ensuring {P Q : Session → Prop} {change : Session → Session} (h : Brings P Q p)
    (hQ : ∀ s, Q s → Q (change s)) (hStops : ∀ s : Session, s.Unharmed → (change s).Unharmed) :
    Brings P Q (p.ensuring change) :=
  fun s hs => (h s hs).ensuring hQ hStops

/-- One level deeper the same happens, unless the program is nested too deeply. -/
theorem Brings.deeper (h : Brings (At kind rest) (At kind' rest') p) :
    Brings (At kind rest) (At kind' rest') p.deeper := by
  intro s hs
  show Resolved _ _ ((if s.nesting < maxNesting then below p else tooDeep : Parse α) s)
  split
  · have hInside : Brings (At kind rest) (At kind' rest')
        (p.ensuring fun s => { s with nesting := s.nesting - 1 }) :=
      h.ensuring (fun _ ht => ⟨⟨ht.calm, ht.clean⟩, ht.token, ht.front⟩) fun _ ht =>
        ⟨ht.calm, ht.clean⟩
    exact hInside { s with nesting := s.nesting + 1 } ⟨⟨hs.calm, hs.clean⟩, hs.token, hs.front⟩
  · exact brings_tooDeep (fun _ => At.toUnharmed) s hs

/-- At every level an expression read at the name ends behind it. -/
theorem brings_divisor (n power : Nat) : Brings Named Past ((levels n).expression power) := by
  cases n with
  | zero => exact brings_tooDeep fun _ => At.toUnharmed
  | succ n => exact (brings_operators power).deeper

/-- A division with its right operand. -/
theorem brings_division (n : Nat) (left : Summary) (t : Token) :
    Brings Held Past (operatorStep (levels n) left .divide 131 t) := by
  have hOperand : Brings Held Past (rightOperand (levels n) 131) :=
    (brings_advance rfl fun _ => Lexer.next_divisor).bind fun _ => brings_divisor n 131
  exact hOperand.discard.bind fun _ => brings_pure _

end Division

end ScriptLint
