import ScriptLint.Lint
import ScriptLint.Proofs.Grammar.Blind
import ScriptLint.Proofs.Lexer.Positions
import ScriptLint.Proofs.Unwinding

/-!
# Where the parser stands in the source

The current token lies before the place from which the stream goes on, or is the end of input.
Whatever the parser reads ahead and reads again, this stays so, and therefore each token that is
consumed brings the parser further on in the source.

- `Lexer.Leads.lies`: where the next significant token lies.
- `Session.Aligned`: the stream goes on behind the current token.
- `Session.Proceeds`: the parser does not go back.
- `advancing`, `proceeding`: no run of the grammar goes back.
- `Parse.advance_gains`: consuming a token other than the end of input brings the parser further on.
- `Session.Reaches.aligned`: the sessions of a run are aligned.
-/

namespace ScriptLint

/-! ## The next token -/

namespace Lexer

variable {text : List Char} {l l' : Lexer} {rs : List Result} {t : Token}

/-- The token ends before the offset, unless it is the end of input, which takes no characters. -/
def EndsBy (t : Token) (offset : Nat) : Prop :=
  t.offset < offset ∨ t.isEnd ∧ t.offset ≤ offset

/-- A token begins before it ends. -/
theorem EndsBy.le {offset : Nat} (h : EndsBy t offset) : t.offset ≤ offset :=
  h.elim Nat.le_of_lt And.right

/-- A significant token that is read takes the characters up to where the lexer goes on. -/
theorem next_spans (h : Follows text l.cursor) (ht : significant? l.next.1 = some t) :
    Spans text l.skipBlank.offset l.next.2.offset t := by
  have hResult := h.proceeds.spans
  cases hNext : l.next.1 with
  | ok u =>
    rw [hNext] at hResult ht
    obtain rfl := Option.some.inj (Option.ite_none_left_eq_some.mp ht).2
    exact hResult
  | error e =>
    rw [hNext] at hResult ht
    exact hResult.2 t ht

/-- The next token lies between the two places of the lexer. -/
theorem next_lies (h : Follows text l.cursor) (ht : significant? l.next.1 = some t) :
    l.offset ≤ t.offset ∧ EndsBy t l.next.2.offset := by
  have hStep := h.proceeds
  have hSpans := next_spans h ht
  have hOffset : t.offset = l.skipBlank.offset := by
    rw [Token.offset, hSpans.place]
    rfl
  rw [EndsBy, hOffset]
  refine ⟨hStep.skips, ?_⟩
  rcases hStep.moves with ⟨-, hFurther⟩ | ⟨⟨u, hNext, hEnd⟩, hStart, hStop⟩
  · exact .inl hFurther
  · rw [hNext] at ht
    obtain rfl := Option.some.inj (Option.ite_none_left_eq_some.mp ht).2
    refine .inr ⟨?_, Nat.le_of_eq (hStart.trans hStop.symm)⟩
    rw [Token.isEnd, hEnd]

/-- By induction on what is passed: the next significant token lies behind the place of the lexer
and before the place where it goes on. -/
theorem Leads.lies (hLeads : Leads l rs t l') (h : Follows text l.cursor) :
    Follows text l'.cursor ∧ l.offset ≤ t.offset ∧ EndsBy t l'.offset := by
  induction hLeads with
  | here ht => exact ⟨h.proceeds.follows, next_lies h ht⟩
  | @pass l l' rs t _ _ ih =>
    obtain ⟨hFollows, hBehind, hBefore⟩ := ih h.proceeds.follows
    exact ⟨hFollows, Nat.le_trans (offset_le_next h) hBehind, hBefore⟩

end Lexer

namespace TokenStream

open Lexer

/-- Reading a slash again does not move the place where the stream goes on. -/
theorem from_allowRegex_cursor {stream : TokenStream} {l : Lexer} (h : stream.From l) :
    ∃ l', stream.allowRegex.From l' ∧ l'.cursor = l.cursor := by
  rcases from_allowRegex h with hSame | hAllowed
  · exact ⟨l, hSame, rfl⟩
  · exact ⟨l.allowRegex, hAllowed, rfl⟩

end TokenStream

/-! ## Sessions -/

namespace Session

open Lexer

/-- The stream goes on from a place of the source before which the current token ends. -/
def Aligned (s : Session) : Prop :=
  ∃ (text : List Char) (l : Lexer), text.length = s.sourceLength ∧ Follows text l.cursor ∧
    s.stream.From l ∧ EndsBy s.token l.offset

/-- A run starts aligned. -/
theorem aligned_start (source : String) (options : Options) (globals : Option Predefined.Globals) :
    (start source options globals).Aligned :=
  ⟨source.toList, .ofSource source, String.length_toList, follows_ofSource source,
    TokenStream.from_ofSource source, .inr ⟨rfl, Nat.zero_le _⟩⟩

variable {s t u : Session}

/-- An aligned token begins in the source. -/
theorem Aligned.offset_le (h : s.Aligned) : s.token.offset ≤ s.sourceLength := by
  obtain ⟨text, l, hLength, hFollows, -, hToken⟩ := h
  exact hLength ▸ Nat.le_trans hToken.le hFollows.bound

/-- There is a round left for every loop. -/
theorem Aligned.budget_pos (h : s.Aligned) : 0 < s.budget := by
  have hOffset := h.offset_le
  unfold Session.budget
  omega

/-- The parser stays aligned and does not go back. It stays at its token or goes further on; from
the end of input it may go on to another token of the same offset. -/
structure Proceeds (s t : Session) : Prop where
  aligned : t.Aligned
  sourceLength : t.sourceLength = s.sourceLength
  token : t.token = s.token ∨ s.token.offset < t.token.offset ∨
    s.token.isEnd ∧ s.token.offset ≤ t.token.offset

/-- Who proceeds does not step back. -/
theorem Proceeds.offset_le (h : s.Proceeds t) : s.token.offset ≤ t.token.offset := by
  rcases h.token with hSame | hFurther | ⟨-, hNotBack⟩
  · exact Nat.le_of_eq (by rw [hSame])
  · exact Nat.le_of_lt hFurther
  · exact hNotBack

/-- Who does nothing proceeds. -/
theorem Proceeds.refl (h : s.Aligned) : s.Proceeds s := ⟨h, rfl, .inl rfl⟩

/-- Proceeding may be continued. -/
theorem Proceeds.trans (h : s.Proceeds t) (h' : t.Proceeds u) : s.Proceeds u := by
  refine ⟨h'.aligned, h'.sourceLength.trans h.sourceLength, ?_⟩
  have hNotBack := h'.offset_le
  rcases h.token with hSame | hFurther | ⟨hEnd, hLess⟩
  · rw [← hSame]
    exact h'.token
  · exact .inr (.inl (Nat.lt_of_lt_of_le hFurther hNotBack))
  · exact .inr (.inr ⟨hEnd, Nat.le_trans hLess hNotBack⟩)

/-- The current token stays, and the stream goes on from the same place. -/
theorem Aligned.stay (h : s.Aligned) (hToken : t.token = s.token)
    (hLength : t.sourceLength = s.sourceLength)
    (hStream : ∀ l, s.stream.From l → ∃ l', t.stream.From l' ∧ l'.cursor = l.cursor) :
    t.Aligned := by
  obtain ⟨text, l, hText, hFollows, hFrom, hEnds⟩ := h
  obtain ⟨l', hFrom', hCursor⟩ := hStream l hFrom
  refine ⟨text, l', hText.trans hLength.symm, hCursor ▸ hFollows, hFrom', ?_⟩
  rw [hToken, Lexer.offset, hCursor]
  exact hEnds

/-- Who keeps his place stays aligned. -/
theorem Aligned.placed (h : s.Aligned) (ht : s.Placed t) : t.Aligned := by
  refine h.stay ht.token ht.sourceLength fun l hl => ⟨l, ?_, rfl⟩
  rw [ht.stream]
  exact hl

end Session

/-! ## Contracts -/

/-- The contract to keep the current token and the place where the stream goes on. -/
def holding : Contract where
  Goes s t := s.Aligned → t.Aligned ∧ t.token = s.token ∧ t.sourceLength = s.sourceLength
  Stops _ _ := True
  refl _ h := ⟨h, rfl, rfl⟩
  trans h h' hs :=
    have ⟨ht, hToken, hLength⟩ := h hs
    have ⟨hu, hToken', hLength'⟩ := h' ht
    ⟨hu, hToken'.trans hToken, hLength'.trans hLength⟩
  stop _ _ := trivial

/-- The contract not to go back. -/
def advancing : Contract where
  Goes s t := s.Aligned → s.Proceeds t
  Stops _ _ := True
  refl _ := .refl
  trans h h' hs := (h hs).trans (h' (h hs).aligned)
  stop _ _ := trivial

namespace Parse

open Lexer

variable {α : Type} {p : Parse α} {s t : Session} {a : α}

/-- Who keeps his place holds. -/
theorem holding_of_placed (h : placed.Keeps p) : holding.Keeps p :=
  fun s => (h s).imp (fun _ ht hs => ⟨hs.placed ht, ht.token, ht.sourceLength⟩) fun _ _ => trivial

/-- Who holds advances, by nothing. -/
theorem advancing_of_holding (h : holding.Keeps p) : advancing.Keeps p := by
  refine fun s => (h s).imp (fun t ht hs => ?_) fun _ _ => trivial
  obtain ⟨hAligned, hToken, hLength⟩ := ht hs
  exact ⟨hAligned, hLength, .inl hToken⟩

theorem advancing_of_placed (h : placed.Keeps p) : advancing.Keeps p :=
  advancing_of_holding (holding_of_placed h)

/-- Looking ahead changes the stream only. -/
theorem holding_look {f : Session → α} {g : TokenStream → TokenStream}
    (hFrom : ∀ (stream : TokenStream) l, stream.From l → ∃ l', (g stream).From l' ∧
    l'.cursor = l.cursor)
    (hp : ∀ s, p s = .ok (f s) { s with stream := g s.stream }) : holding.Keeps p := by
  intro s
  rw [hp s]
  exact fun hs => ⟨hs.stay rfl rfl (hFrom s.stream), rfl, rfl⟩

theorem holding_peek (n : Nat) : holding.Keeps (peek n) :=
  holding_look (fun _ l hl => ⟨l, TokenStream.from_peek n hl, rfl⟩) fun _ => rfl

theorem holding_peekIs (test : Token → Bool) : holding.Keeps (peekIs test) :=
  holding.bind (holding_peek 0) fun _ => holding.pure _

theorem holding_startsArrow : holding.Keeps startsArrow :=
  holding_look (fun _ l hl => ⟨l, TokenStream.from_closesBeforeArrow hl, rfl⟩) fun _ => rfl

theorem holding_allowRegex : holding.Keeps allowRegex :=
  holding_look (f := fun _ => ()) (fun _ _ hl => TokenStream.from_allowRegex_cursor hl) fun _ => rfl

/-- Consuming a token leads to one behind it, and stops the run or succeeds. -/
theorem advance_gains (h : s.Aligned) :
    Resolved (fun t => s.Proceeds t ∧ (s.token.isEnd = false → s.token.offset < t.token.offset))
      (fun _ => True) (advance s) := by
  obtain ⟨text, l, hText, hFollows, hFrom, hEnds⟩ := h
  obtain ⟨rs, next, l', hLeads⟩ := exists_leads l
  obtain ⟨hFollows', hBehind, hEnds'⟩ := hLeads.lies hFollows
  refine (advance_arrives hFrom hLeads).imp (fun t ht => ?_) fun _ => id
  have hAligned : t.Aligned :=
    ⟨text, l', hText.trans ht.sourceLength.symm, hFollows', ht.front, ht.token ▸ hEnds'⟩
  rw [← ht.token] at hBehind
  -- only the end of input need not end before the stream goes on
  rcases hEnds with hLess | ⟨hEnd, hLess⟩
  · have hFurther := Nat.lt_of_lt_of_le hLess hBehind
    exact ⟨⟨hAligned, ht.sourceLength, .inr (.inl hFurther)⟩, fun _ => hFurther⟩
  · refine ⟨⟨hAligned, ht.sourceLength, .inr (.inr ⟨hEnd, Nat.le_trans hLess hBehind⟩)⟩,
      fun hOther => ?_⟩
    rw [hEnd] at hOther
    cases hOther

/-- Only aligned sessions matter. -/
theorem advancing_intro (h : ∀ s : Session, s.Aligned → Settles s.Proceeds (fun _ => True) (p s)) :
    advancing.Keeps p := by
  intro s
  by_cases hs : s.Aligned
  · exact (h s hs).imp (fun _ ht _ => ht) fun _ _ => trivial
  · cases p s with
    | ok a t => exact fun hAligned => absurd hAligned hs
    | error e t =>
      cases e with
      | badSyntax => exact fun hAligned => absurd hAligned hs
      | halt => exact trivial

/-- Advancing advances. -/
theorem advancing_advance : advancing.Keeps advance :=
  advancing_intro fun _ hs => (advance_gains hs).settles.imp (fun _ => And.left) fun _ => id

theorem advancing_advanceToStatement : advancing.Keeps advanceToStatement :=
  advancing.bind (advancing_of_holding holding_allowRegex) fun _ => advancing_advance

theorem advancing_emit (d : Diagnostic) : advancing.Keeps (emit d) :=
  advancing_of_placed (placed_emit d).keeps

theorem advancing_modify {f : Session → Session} (h : ∀ s : Session, s.Placed (f s)) :
    advancing.Keeps (modify f) :=
  advancing_of_placed (placed_modify h).keeps

end Parse

/-! ## The grammar -/

namespace Grammar

open Parse

variable {α β : Type} {p : Parse α}

/-- One case for each step. -/
theorem advancing_step (h : Step p) : advancing.Keeps p := by
  cases h with
  | warnAt f line column _ => exact advancing_emit _
  | failAt f t _ => exact advancing.bind (advancing_emit _) fun _ => advancing.giveUp
  | advance => exact advancing_advance
  | advanceToStatement => exact advancing_advanceToStatement
  | peekIs test _ => exact advancing_of_holding (holding_peekIs test)
  | peekArrowAfterNext =>
    exact advancing_of_holding (holding.bind (holding_peek 1) fun _ => holding.pure _)
  | startsArrow => exact advancing_of_holding holding_startsArrow
  | count f => exact advancing_modify fun _ => ⟨rfl, rfl, rfl, rfl, rfl⟩
  | names _ => exact advancing_modify fun _ => ⟨rfl, rfl, rfl, rfl, rfl⟩
  | flushScopes => exact advancing_of_placed (placed_of_standing standing_flushScopes).keeps
  | setHint name => exact advancing_modify fun _ => ⟨rfl, rfl, rfl, rfl, rfl⟩
  | makeStrict => exact advancing_modify fun _ => ⟨rfl, rfl, rfl, rfl, rfl⟩
  | checkFiltered t =>
    have hStarts : holding.Keeps bodyStartsWithIf :=
      holding.read fun _ => holding.ite _ (holding.pure _)
        (holding.ite _ (holding_peekIs _) (holding.pure _))
    refine advancing.read fun _ => advancing.ite _ ?_ (advancing.pure ())
    refine advancing.bind (advancing_of_holding hStarts) fun _ => ?_
    exact advancing.ite _ (advancing_emit _) (advancing.pure ())

/-- Something else is changed before a parser and after it. -/
theorem advancing_around {before after : Session → Session}
    (hBefore : ∀ s : Session, s.Placed (before s))
    (hAfter : ∀ s : Session, s.Placed (after s)) (h : advancing.Keeps p) :
    advancing.Keeps (do modify before; p.ensuring after) := by
  have hStays {s t : Session} (ht : s.Placed t) (hs : s.Aligned) : s.Proceeds t :=
    ⟨hs.placed ht, ht.sourceLength, .inl ht.token⟩
  refine Ends.around h (fun s t ht hs => ?_) fun _ _ _ => trivial
  have hEntered := hStays (hBefore s) hs
  have hInside := ht hEntered.aligned
  exact (hEntered.trans hInside).trans (hStays (hAfter t) hInside.aligned)

/-- What is closed afterwards keeps its place. -/
theorem advancing_ensuring {after : Session → Session} (hAfter : ∀ s : Session, s.Placed (after s))
    (h : advancing.Keeps p) : advancing.Keeps (p.ensuring after) := by
  have hNothing (s : Session) : s.Placed (id s) := ⟨rfl, rfl, rfl, rfl, rfl⟩
  exact advancing_around hNothing hAfter h

theorem advancing_withFrame (kind : Scope.FrameKind) (h : advancing.Keeps p) :
    advancing.Keeps (withFrame kind p) :=
  advancing_around (fun _ => ⟨rfl, rfl, rfl, rfl, rfl⟩) (fun _ => ⟨rfl, rfl, rfl, rfl, rfl⟩) h

theorem advancing_insideBlock (opener : Token) (h : advancing.Keeps p) :
    advancing.Keeps (Grammar.insideBlock opener p) := by
  have hEnter : advancing.Keeps (enterBlock opener) :=
    advancing_of_placed (placed_of_standing (standing_enterBlock opener)).keeps
  refine advancing.bind hEnter fun _ => advancing_ensuring (fun _ => ⟨rfl, rfl, rfl, rfl, rfl⟩) ?_
  exact advancing_withFrame .block h

/-- Closing a function keeps the place. -/
theorem closeFunction_placed (line column : Nat) (t : Session) :
    Settles t.Placed t.Placed (closeFunction line column t) :=
  (standing_closeFunction (c := False) line column t).settles.imp (fun _ => (·.toPlaced)) fun _ =>
    (·.toPlaced)

theorem advancing_insideFunction (kind : FunctionKind) (name : Option String) (line column : Nat)
    (h : advancing.Keeps p) : advancing.Keeps (Grammar.insideFunction kind name line column p) := by
  refine advancing_intro fun s hs => ?_
  have hEntered : (withFunction s kind name line column).Aligned :=
    hs.placed ⟨rfl, rfl, rfl, rfl, rfl⟩
  refine (h (withFunction s kind name line column)).insideFunction (fun t ht => ?_) (fun t _ => ?_)
    fun _ _ => trivial
  · have hInside := ht hEntered
    have hClosed (u : Session) (hu : t.Placed u) : s.Proceeds u :=
      ⟨hInside.aligned.placed hu, hu.sourceLength.trans hInside.sourceLength,
        hu.token ▸ hInside.token⟩
    exact (closeFunction_placed line column t).imp hClosed hClosed
  · exact (closeFunction_placed line column t).imp (fun _ _ => trivial) fun _ _ => trivial

theorem advancing_tooDeep : advancing.Keeps (tooDeep : Parse α) := fun _ => trivial

theorem advancing_deeper (h : advancing.Keeps p) : advancing.Keeps p.deeper := by
  refine advancing.read fun _ => advancing.ite _ ?_ advancing_tooDeep
  exact advancing_around (fun _ => ⟨rfl, rfl, rfl, rfl, rfl⟩) (fun _ => ⟨rfl, rfl, rfl, rfl, rfl⟩) h

/-- Not going back is respected by the grammar. -/
def proceeding : Congruence where
  hides _ := False
  Rel p _ := advancing.Keeps p
  Parts p _ := advancing.Keeps p
  pure := advancing.pure
  bind := advancing.bind
  read h := advancing.read fun s => h s s (.refl _ s)
  warnAt _ _ _ _ := advancing_emit _
  governs_ne := governs_ne_of_false
  quiet _ _ := False.elim
  loud _ _ := False.elim
  step := advancing_step
  prologueRound := advancing.prologueRound (advancing_of_holding (holding_peek 0))
  loop h := advancing.loop (fun _ => trivial) h
  recursive h := advancing.recursive (fun _ => trivial) fun p => h p p
  recover := advancing.recover
  clearingHint := advancing_ensuring fun _ => ⟨rfl, rfl, rfl, rfl, rfl⟩
  withNoIn _ h := advancing.read fun _ =>
    advancing_around (fun _ => ⟨rfl, rfl, rfl, rfl, rfl⟩) (fun _ => ⟨rfl, rfl, rfl, rfl, rfl⟩) h
  withFrame := advancing_withFrame
  insideBlock := advancing_insideBlock
  insideLoop := advancing_around (fun _ => ⟨rfl, rfl, rfl, rfl, rfl⟩) fun _ =>
    ⟨rfl, rfl, rfl, rfl, rfl⟩
  parts := id
  bindParts := advancing.bind
  partsBind := advancing.bind
  openOverlay h := advancing.bind (advancing_modify fun _ => ⟨rfl, rfl, rfl, rfl, rfl⟩) h
  insideFunction := advancing_insideFunction

/-- By induction on the levels. -/
theorem proceeding_levels (n : Nat) : proceeding.Nested (levels n) (levels n) := by
  induction n with
  | zero =>
    exact ⟨advancing_tooDeep, fun _ => advancing_tooDeep,
      fun _ => advancing_tooDeep, advancing_tooDeep⟩
  | succ n ih =>
    have hForms := ih.forms
    exact {
      statement := advancing_deeper hForms.statement
      expression power := advancing_deeper (hForms.expression power)
      binding kind := advancing_deeper (hForms.binding kind)
      construction := advancing_deeper hForms.construction }

end Grammar

/-! ## Sessions of a run -/

namespace Session

open Parse Grammar

variable {s t : Session}

/-- What is entered is entered at the same place. -/
theorem Enters.placed (h : s.Enters t) : s.Placed t := by
  cases h with
  | block opener h =>
    have hBlock := placed_of_standing (standing_enterBlock opener) s
    rw [h] at hBlock
    exact hBlock
  | overlay h => exact (EStateM.Result.ok.inj h).2 ▸ ⟨rfl, rfl, rfl, rfl, rfl⟩
  | _ => exact ⟨rfl, rfl, rfl, rfl, rfl⟩

/-- Leaving keeps the place. -/
theorem Leaves.placed (h : s.Leaves t) : s.Placed t := by
  cases h with
  | function line column => exact (closeFunction_placed line column s).left
  | _ => exact ⟨rfl, rfl, rfl, rfl, rfl⟩

/-- Every change of a run keeps the session aligned. -/
theorem Moves.aligned (h : s.Moves t) (hs : s.Aligned) : t.Aligned := by
  cases h with
  | step h ht =>
    have hStep := advancing_step h s
    rw [ht] at hStep
    exact (hStep hs).aligned
  | peek => exact hs.stay rfl rfl fun l hl => ⟨l, TokenStream.from_peek 0 hl, rfl⟩
  | fails h =>
    obtain ⟨α, p, hStep, ht⟩ := h
    have hKept := advancing_step hStep s
    rw [ht] at hKept
    exact (hKept hs).aligned
  | enters h => exact hs.placed h.placed
  | leaves h => exact hs.placed h.placed

/-- By induction on the changes: every session of a run is aligned. -/
theorem Reaches.aligned (h : s.Reaches t) (hs : s.Aligned) : t.Aligned := by
  induction h with
  | refl => exact hs
  | tail _ hMove ih => exact hMove.aligned ih

end Session

end ScriptLint
