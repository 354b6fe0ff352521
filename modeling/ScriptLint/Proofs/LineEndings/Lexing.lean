import ScriptLint.Proofs.Lexer.Lookahead
import ScriptLint.Proofs.LineEndings.Scanning
import ScriptLint.Proofs.Progress.Sessions

/-!
# Lexing with carriage returns

The lexer reads the same tokens from a text with a carriage return before every line feed, at the
same lines and columns. Only their offsets are shifted, and the texts of those that go over the end
of a line have the carriage returns in them.

- `PlainText`: a text without carriage returns and without templates.
- `Lexer.crlf`, `Token.crlf`: lexers and tokens in the text with the carriage returns.
- `next_crlf`: one step of the lexer.
- `Leads.crlf`, `Visits.crlf`, `PassesTo.crlf`: the next significant token and the answers of
  visits.
-/

namespace ScriptLint

/-- A text without carriage returns and without the mark of templates. -/
structure PlainText (text : List Char) : Prop where
  unreturned : '\r' ∉ text
  unmarked : '\x60' ∉ text

/-- The cursor in the text with the carriage returns. -/
def Cursor.crlf (text : List Char) (cursor : Cursor) : Cursor :=
  ⟨ScriptLint.crlf cursor.rest, cursor.position.crlf text⟩

/-- The token in the text with the carriage returns. -/
def Token.crlf (text : List Char) (t : Token) : Token :=
  { t with
    kind := t.kind.crlf
    raw := String.ofList (ScriptLint.crlf t.raw.toList)
    start := t.start.crlf text }

/-- The error in the text with the carriage returns. -/
def LexError.crlf (text : List Char) (e : LexError) : LexError :=
  { e with place := e.place.crlf text, recovered := e.recovered.map (Token.crlf text) }

namespace Lexer

/-- The result in the text with the carriage returns. -/
def crlfResult (text : List Char) : Result → Result
  | .ok t => .ok (t.crlf text)
  | .error e => .error (e.crlf text)

/-- The lexer in the text with the carriage returns. -/
def crlf (text : List Char) (l : Lexer) : Lexer := { l with cursor := l.cursor.crlf text }

variable {text : List Char} {cursor cursor' : Cursor} {l l' : Lexer}

/-! ## Cursors -/

/-- The offset tells where a cursor stands. -/
theorem Follows.ext (h : Follows text cursor) (h' : Follows text cursor')
    (hOffset : cursor'.offset = cursor.offset) : cursor' = cursor := by
  have hRest := h'.rest
  have hPosition := h'.position
  rw [hOffset] at hRest hPosition
  obtain ⟨rest, position⟩ := cursor
  obtain ⟨rest', position'⟩ := cursor'
  exact congrArg₂ Cursor.mk (hRest.trans h.rest.symm) (hPosition.trans h.position.symm)

/-- The cursor of the rewritten text follows it. -/
theorem Follows.crlf (hText : PlainText text) (h : Follows text cursor) :
    Follows (ScriptLint.crlf text) (cursor.crlf text) where
  rest := by
    show ScriptLint.crlf cursor.rest = (ScriptLint.crlf text).drop (shifted text cursor.offset)
    rw [drop_shifted, h.rest]
  bound := shifted_le text cursor.offset
  position := by
    show cursor.position.crlf text = .within (ScriptLint.crlf text) (shifted text cursor.offset)
    rw [within_crlf hText.unreturned h.bound, ← h.position]

/-- What the cursor has before it is shifted by itself. -/
theorem Follows.shifted (h : Follows text cursor) (n : Nat) :
    shifted text (cursor.offset + n) =
      shifted text cursor.offset + ScriptLint.shifted cursor.rest n :=
  shifted_next h.rest.symm n

/-- Reading on leads to the place of the rewritten text that belongs to it. -/
theorem Follows.advance_crlf (hText : PlainText text) (h : Follows text cursor) {n : Nat}
    (hn : n ≤ cursor.rest.length) :
    (cursor.crlf text).advance (ScriptLint.shifted cursor.rest n) =
    (cursor.advance n).crlf text := by
  refine Follows.ext ((h.advance n).crlf hText) ((h.crlf hText).advance _) ?_
  have hFits : ScriptLint.shifted cursor.rest n ≤ (cursor.crlf text).rest.length :=
    shifted_le cursor.rest n
  rw [offset_advance_of_le hFits]
  show ScriptLint.shifted text cursor.offset + _ = ScriptLint.shifted text (cursor.advance n).offset
  rw [offset_advance_of_le hn, h.shifted]

/-! ## One step -/

/-- A lexer in a text without templates. -/
structure Untemplated (text : List Char) (l : Lexer) : Prop where
  follows : Follows text l.cursor
  templates : l.templates = []

/-- The blanks before a token are rewritten, and have a line end among them if they had one. -/
theorem skipBlank_crlf (hText : PlainText text) (h : Follows text l.cursor) :
    (l.crlf text).skipBlank = l.skipBlank.crlf text := by
  have hPrefix := List.takeWhile_prefix isSkipped (l := l.cursor.rest)
  have hRun : ((l.crlf text).cursor.rest.takeWhile isSkipped) =
      ScriptLint.crlf (l.cursor.rest.takeWhile isSkipped) := takeWhile_crlf_of_pos rfl rfl _
  have hLength : (ScriptLint.crlf (l.cursor.rest.takeWhile isSkipped)).length =
      shifted l.cursor.rest (l.cursor.rest.takeWhile isSkipped).length := by
    rw [shifted, ← List.prefix_iff_eq_take.mp hPrefix]
  have hAdvance := h.advance_crlf hText hPrefix.length_le
  unfold skipBlank
  dsimp only
  rw [hRun, any_crlf rfl, hLength]
  show Lexer.mk (Cursor.advance (l.cursor.crlf text) _) _ _ _ = _
  rw [hAdvance]
  rfl

/-- A token that was read from one place to another. -/
theorem finish_crlf (kind : TokenKind) {start : Cursor} (hStart : Follows text start) {n : Nat}
    (hn : l.offset = start.offset + n) :
    (l.crlf text).finish (start.crlf text) kind.crlf =
      ((l.finish start kind).1.crlf text, (l.finish start kind).2.crlf text) := by
  have hCount : (l.crlf text).offset - (start.crlf text).offset = shifted start.rest n := by
    show shifted text l.offset - shifted text start.offset = _
    rw [hn, hStart.shifted, Nat.add_sub_cancel_left]
  have hRaw : (start.crlf text).rest.take (shifted start.rest n) =
      ScriptLint.crlf (start.rest.take (l.offset - start.offset)) := by
    rw [hn, Nat.add_sub_cancel_left]
    exact take_shifted start.rest n
  have hToken : Token.crlf text
      { kind
        raw := String.ofList (start.rest.take (l.offset - start.offset))
        start := start.position
        endColumn := l.cursor.position.column
        newlineBefore := !kind.isTrivia && l.newlinePending } =
      { kind := kind.crlf
        raw := String.ofList (ScriptLint.crlf (start.rest.take (l.offset - start.offset)))
        start := start.position.crlf text
        endColumn := l.cursor.position.column
        newlineBefore := !kind.isTrivia && l.newlinePending } := by
    rw [Token.crlf, String.toList_ofList]
  unfold finish
  dsimp only
  rw [hCount, hRaw, TokenKind.isTrivia_crlf, TokenKind.endsValue_crlf]
  split
  · exact Prod.ext hToken.symm rfl
  · exact Prod.ext hToken.symm rfl

/-- A token or an error is made of the same parts, at the places that belong to each other. -/
theorem read_crlf (hText : PlainText text) (h : Follows text l.cursor) {s : Scan}
    (hFits : s.length ≤ l.cursor.rest.length)
    (hPlace : ∀ {problem offset recovered}, s.scanned = .failure problem offset recovered →
    offset ≤ s.length) :
    (l.crlf text).read (s.crlf l.cursor.rest) =
    (crlfResult text (l.read s).1, (l.read s).2.crlf text) := by
  have hConsume : (l.crlf text).consume (s.crlf l.cursor.rest) = (l.consume s).crlf text := by
    show Lexer.mk (Cursor.advance (l.cursor.crlf text) (shifted l.cursor.rest s.length)) _ _ _ = _
    rw [h.advance_crlf hText hFits]
    rfl
  have hOffset : (l.consume s).offset = l.cursor.offset + s.length := offset_advance_of_le hFits
  have hFinish (kind : TokenKind) :
      ((l.consume s).crlf text).finish (l.crlf text).cursor kind.crlf =
      (((l.consume s).finish l.cursor kind).1.crlf text,
        ((l.consume s).finish l.cursor kind).2.crlf text) :=
    finish_crlf kind h hOffset
  unfold read
  -- both lexers stand behind what was scanned, whatever becomes of it
  rw [hConsume]
  cases hScanned : s.scanned with
  | token kind =>
    have hThere : (s.crlf l.cursor.rest).scanned = .token kind.crlf := by
      rw [Scan.crlf, hScanned]
      rfl
    rw [hThere]
    dsimp only
    rw [hFinish]
    rfl
  | failure problem offset recovered =>
    have hThere : (s.crlf l.cursor.rest).scanned =
        .failure problem (shifted l.cursor.rest offset) (recovered.map TokenKind.crlf) := by
      rw [Scan.crlf, hScanned]
      rfl
    -- the place of the error lies inside what was scanned
    have hWithin : offset ≤ l.cursor.rest.length := Nat.le_trans (hPlace hScanned) hFits
    have hError : ((l.crlf text).cursor.advance (shifted l.cursor.rest offset)).position =
        (l.cursor.advance offset).position.crlf text :=
      congrArg Cursor.position (h.advance_crlf hText hWithin)
    rw [hThere]
    dsimp only
    rw [hError]
    cases recovered with
    | none => rfl
    | some kind =>
      dsimp only [Option.map_some]
      rw [hFinish]
      rfl

/-- The next result is the same, and so is what the lexer goes on with. -/
theorem next_crlf (hText : PlainText text) (h : Untemplated text l) :
    (l.crlf text).next = (crlfResult text l.next.1, l.next.2.crlf text) ∧
    Untemplated text l.next.2 := by
  have hBlank := skipBlank_crlf hText h.follows
  have hFollows := h.follows.skipBlank
  -- at the end of the text, then before a character
  have hTemplates : l.skipBlank.templates = [] := h.templates
  cases hRest : l.skipBlank.cursor.rest with
  | nil =>
    have hThere : (l.crlf text).skipBlank.cursor.rest = [] := by
      rw [hBlank]
      show ScriptLint.crlf l.skipBlank.cursor.rest = []
      rw [hRest]
      rfl
    have hFinish : (l.skipBlank.crlf text).finish (l.skipBlank.crlf text).cursor .endOfInput =
        ((l.skipBlank.finish l.skipBlank.cursor .endOfInput).1.crlf text,
          (l.skipBlank.finish l.skipBlank.cursor .endOfInput).2.crlf text) :=
      finish_crlf .endOfInput hFollows (Nat.add_zero _).symm
    refine ⟨?_, h.follows.proceeds.follows, ?_⟩
    · rw [next_of_nil hThere, next_of_nil hRest, hBlank, hFinish]
      rfl
    · rw [next_of_nil hRest]
      exact hTemplates
  | cons c rest =>
    -- what is scanned starts with no blank, so it neither starts with a line end nor with a mark of
    -- a template
    have hHead : isSkipped c = false := by
      have hStop := List.head?_dropWhile_not isSkipped l.cursor.rest
      rw [← rest_skipBlank, hRest] at hStop
      exact hStop
    have hFeed : c ≠ '\n' := by
      rintro rfl
      cases hHead
    have hInText : ∀ d ∈ c :: rest, d ∈ text := by
      intro d hd
      rw [← hRest, hFollows.rest] at hd
      exact List.mem_of_mem_drop hd
    have hMark : c ≠ '\x60' := fun hEq => hText.unmarked (hInText _ (hEq ▸ List.mem_cons_self))
    have hReturn :
        '\r' ∉ rest := fun hMem => hText.unreturned (hInText _ (List.mem_cons_of_mem c hMem))
    have hThere : (l.crlf text).skipBlank.cursor.rest = c :: ScriptLint.crlf rest := by
      rw [hBlank]
      show ScriptLint.crlf l.skipBlank.cursor.rest = _
      rw [hRest, crlf_cons hFeed]
    have hFits :
        (scan l.skipBlank.regexAllowed [] c rest).length ≤ l.skipBlank.cursor.rest.length :=
      hRest ▸ scan_fits ..
    have hRead := read_crlf hText hFollows hFits (scan_failure _ _)
    rw [hRest, ← scan_crlf _ hFeed hMark hReturn] at hRead
    refine ⟨?_, h.follows.proceeds.follows, ?_⟩
    · rw [next_of_cons hThere, next_of_cons hRest, hBlank, hTemplates]
      show Lexer.read _ (scan l.skipBlank.regexAllowed l.skipBlank.templates c _) = _
      rw [hTemplates]
      exact hRead
    · rw [next_of_cons hRest, hTemplates, templates_read]
      exact templates_scan _ hMark rest

/-! ## Significant tokens -/

end Lexer

/-- A token of the text that counts for the parser. -/
structure Token.Sound (text : List Char) (t : Token) : Prop where
  counts : t.kind.isTrivia = false
  bound : t.offset ≤ text.length
  readsAlike : t.kind.ReadsAlike t.raw.toList

namespace Lexer

variable {text : List Char} {l l' : Lexer} {rs : List Result} {r : Result} {t : Token} {n : Nat}

/-- The rewritten result is a token for the grammar if the result is. -/
theorem significant_crlfResult (text : List Char) (r : Result) :
    significant? (crlfResult text r) = (significant? r).map (Token.crlf text) := by
  cases r with
  | error e => rfl
  | ok t =>
    have hTrivia : (t.crlf text).isTrivia = t.isTrivia := TokenKind.isTrivia_crlf t.kind
    rw [crlfResult, significant?, significant?, hTrivia]
    split <;> rfl

/-- The kind of a punctuator is the same. -/
theorem isPunctuator_crlf (t : Token) (p : Punctuator) :
    (t.crlf text).isPunctuator p = t.isPunctuator p := by
  obtain ⟨kind, raw, start, endColumn, newlineBefore⟩ := t
  cases kind <;> rfl

/-- The end of the text is the end in both. -/
theorem isEnd_crlf (t : Token) : (t.crlf text).isEnd = t.isEnd := by
  obtain ⟨kind, raw, start, endColumn, newlineBefore⟩ := t
  cases kind <;> rfl

/-- A result is a division in both texts or in neither. -/
theorem divides_crlfResult (text : List Char) (r : Result) :
    divides (crlfResult text r) = divides r := by
  cases r with
  | error e => rfl
  | ok t =>
    rw [crlfResult, divides, divides, isPunctuator_crlf, isPunctuator_crlf]

/-- Looking for a division passes over the same results. -/
theorem passesOver_crlfResult (text : List Char) (r : Result) :
    passesOver (crlfResult text r) = passesOver r := by
  cases r with
  | error e => rfl
  | ok t => exact TokenKind.isTrivia_crlf t.kind

/-- A significant token that is read is sound. -/
theorem next_sound (hText : PlainText text) (h : Untemplated text l)
    -- the token was scanned where the blanks end, with a text of the length of the scan
    (ht : significant? l.next.1 = some t) : t.Sound text := by
  have hSpans := next_spans h.follows ht
  have hOffset : t.offset = l.skipBlank.offset := by
    rw [Token.offset, hSpans.place]
    rfl
  have hBound : t.offset ≤ text.length := hOffset ▸ h.follows.skipBlank.bound
  have hTemplates : l.skipBlank.templates = [] := h.templates
  cases hRest : l.skipBlank.cursor.rest with
  | nil =>
    rw [next_of_nil hRest, significant_finish rfl] at ht
    obtain rfl := Option.some.inj ht
    have hKind : (l.skipBlank.finish l.skipBlank.cursor .endOfInput).1.kind = .endOfInput :=
      kind_finish ..
    exact ⟨by rw [hKind]; rfl, hBound, by rw [hKind]; trivial⟩
  | cons c rest =>
    have hMark : c ≠ '\x60' := by
      rintro rfl
      refine hText.unmarked (List.mem_of_mem_drop (i := l.skipBlank.cursor.offset) ?_)
      rw [← h.follows.skipBlank.rest, hRest]
      exact List.mem_cons_self
    have hKind := kind_read l.skipBlank (scan l.skipBlank.regexAllowed l.skipBlank.templates c rest)
    rw [← next_of_cons hRest, ht, Option.map_some] at hKind
    have hCounts :=
      (scan_notices l.skipBlank.regexAllowed l.skipBlank.templates (unbroken_of_skipBlank hRest)
      rest).counts t.kind hKind.symm
    have hReads :=
      scan_readsAlike l.skipBlank.regexAllowed hMark rest t.kind (hTemplates ▸ hKind.symm)
    have hStop : l.next.2.offset =
        (l.skipBlank.cursor.advance (scan l.skipBlank.regexAllowed [] c rest).length).offset := by
      rw [next_of_cons hRest, hTemplates]
      exact congrArg Cursor.offset (cursor_read ..)
    have hRaw :
        t.raw.toList = (c :: rest).take (scan l.skipBlank.regexAllowed [] c rest).length := by
      rw [hSpans.raw, hStop, ← hRest]
      exact slice_advance h.follows.skipBlank _
    exact ⟨hCounts, hBound, hRaw ▸ hReads⟩

/-! ## Walks -/

/-- By induction on what is passed. -/
theorem Leads.crlf (hText : PlainText text) (h : Untemplated text l) (hLeads : Leads l rs t l') :
    Leads (l.crlf text) (rs.map (crlfResult text)) (t.crlf text) (l'.crlf text) ∧
      Untemplated text l' ∧ t.Sound text := by
  induction hLeads with
  | @here l t ht =>
    obtain ⟨hNext, hAfter⟩ := next_crlf hText h
    refine ⟨?_, hAfter, next_sound hText h ht⟩
    have hLeads :
        Leads (l.crlf text) [(l.crlf text).next.1] (t.crlf text) (l.crlf text).next.2 := by
      refine .here ?_
      rw [hNext, significant_crlfResult, ht]
      rfl
    rwa [hNext] at hLeads
  | @pass l l' rs t hr hLeads ih =>
    obtain ⟨hNext, hAfter⟩ := next_crlf hText h
    obtain ⟨hRest, hLast, hSound⟩ := ih hAfter
    refine ⟨?_, hLast, hSound⟩
    have hPass :
        Leads (l.crlf text) ((l.crlf text).next.1 :: rs.map (crlfResult text)) (t.crlf text)
        (l'.crlf text) := by
      refine .pass ?_ ?_
      · rw [hNext, significant_crlfResult, hr]
        rfl
      · rw [hNext]
        exact hRest
    rwa [hNext] at hPass

section Visits

variable {σ β : Type} {visit : σ → Token → σ ⊕ β} {R : β → β → Prop} {state : σ} {b : β}

/-- A visit that answers alike, however the lines of the text end. -/
structure AnswersAlike (text : List Char) (visit : σ → Token → σ ⊕ β) (R : β → β → Prop) :
    Prop where
  goesOn {state state' : σ} {t : Token} : t.Sound text → visit state t = .inl state' →
    visit state (t.crlf text) = .inl state'
  answers {state : σ} {t : Token} {b : β} : t.Sound text → visit state t = .inr b →
    ∃ b', R b b' ∧ visit state (t.crlf text) = .inr b'

/-- By induction on the visit. -/
theorem Visits.crlf (hText : PlainText text) (hVisit : AnswersAlike text visit R)
    (h : Untemplated text l)
    (hVisits : Visits visit l state b n) :
    ∃ b', R b b' ∧ Visits visit (l.crlf text) state b' n := by
  have hShown {l : Lexer} (state : σ) (h : Untemplated text l) :
      shown visit state (l.crlf text).next.1 =
        (significant? l.next.1).elim (.inl state) fun t => visit state (t.crlf text) := by
    rw [(next_crlf hText h).1, shown, significant_crlfResult]
    cases significant? l.next.1 <;> rfl
  induction hVisits with
  | @answer l state b hb =>
    cases ht : significant? l.next.1 with
    | none =>
      rw [shown, ht] at hb
      cases hb
    | some t =>
      rw [shown, ht] at hb
      obtain ⟨b', hR, hb'⟩ := hVisit.answers (next_sound hText h ht) hb
      refine ⟨b', hR, .answer ?_⟩
      rw [hShown state h, ht]
      exact hb'
  | @goOn l state state' b n hGo _ ih =>
    obtain ⟨hNext, hAfter⟩ := next_crlf hText h
    obtain ⟨b', hR, hRest⟩ := ih hAfter
    have hRest' : Visits visit (l.crlf text).next.2 state' b' n := by
      rw [hNext]
      exact hRest
    refine ⟨b', hR, .goOn ?_ hRest'⟩
    rw [hShown state h]
    cases ht : significant? l.next.1 with
    | none =>
      rw [shown, ht] at hGo
      exact hGo
    | some t =>
      rw [shown, ht] at hGo
      exact hVisit.goesOn (next_sound hText h ht) hGo

end Visits

/-- The result that a search for a division comes to is the same one. -/
theorem PassesTo.crlf (hText : PlainText text) (h : Untemplated text l) (hPasses : PassesTo l n r) :
    PassesTo (l.crlf text) n (crlfResult text r) := by
  induction hPasses with
  | @here l hr =>
    have hNext := (next_crlf hText h).1
    have hHere : PassesTo (l.crlf text) 0 (l.crlf text).next.1 := by
      refine .here ?_
      rw [hNext, passesOver_crlfResult, hr]
    rwa [hNext] at hHere
  | @pass l n r hr _ ih =>
    obtain ⟨hNext, hAfter⟩ := next_crlf hText h
    refine .pass ?_ ?_
    · rw [hNext, passesOver_crlfResult, hr]
    · rw [hNext]
      exact ih hAfter

/-- The lexer starts behind the first line if that one starts as a line for the shell does. -/
theorem ofSource_eq (source : String) : ofSource source =
    { cursor := Cursor.advance { rest := source.toList }
        (if ['#', '!'].isPrefixOf source.toList then
          (source.toList.takeWhile (!Text.isLineTerminator ·)).length else 0) } := by
  unfold ofSource
  dsimp only
  split
  · next hHash =>
    rw [hHash]
    rfl
  · next hOther =>
    rw [if_neg]
    · rfl
    · intro hPrefix
      obtain ⟨tail, hTail⟩ := List.isPrefixOf_iff_prefix.mp hPrefix
      exact hOther tail hTail.symm

/-- Both texts start alike, the line that names an interpreter included. -/
theorem ofSource_crlf {source : String} (hText : PlainText source.toList) :
    ofSource (String.ofList (ScriptLint.crlf source.toList)) =
      (ofSource source).crlf source.toList ∧ Untemplated source.toList (ofSource source) := by
  have hStart : Follows source.toList { rest := source.toList } := ⟨rfl, Nat.zero_le _, rfl⟩
  refine ⟨?_, follows_ofSource source, by rw [ofSource_eq]⟩
  rw [ofSource_eq, ofSource_eq, String.toList_ofList, isPrefixOf_crlf (by decide) (by decide),
    takeWhile_crlf rfl rfl]
  generalize hn : (if ['#', '!'].isPrefixOf source.toList then
    (source.toList.takeWhile (!Text.isLineTerminator ·)).length else 0) = n
  have hPrefix := (List.takeWhile_prefix (!Text.isLineTerminator ·) (l := source.toList)).length_le
  have hFits : n ≤ source.toList.length := by
    rw [← hn]
    split
    · exact hPrefix
    · exact Nat.zero_le _
  have hShifted : shifted source.toList n = n := by
    rw [← hn]
    split
    · exact shifted_takeWhile rfl _
    · rfl
  have hAdvance := hStart.advance_crlf hText hFits
  rw [hShifted] at hAdvance
  exact congrArg (fun cursor => ({ cursor } : Lexer)) hAdvance

end Lexer

/-! ## Streams -/

namespace TokenStream

open Lexer

variable {text : List Char} {l : Lexer} {s s' : TokenStream}

/-- Both streams are equally far ahead of the same place. -/
structure Tandem (text : List Char) (l : Lexer) (s s' : TokenStream) : Prop where
  untemplated : Untemplated text l
  front : s.From l
  other : s'.From (l.crlf text)
  length : s'.ahead.length = s.ahead.length

namespace Tandem

/-- A survey of the tokens ahead is answered alike in both texts, and leaves both streams in step.
-/
theorem survey (hText : PlainText text) (h : Tandem text l s s') {σ β : Type}
    {visit : σ → Token → σ ⊕ β}
    {R : β → β → Prop} (hEnd : AnswersAtEnd visit) (hVisit : AnswersAlike text visit R)
    (state : σ) : Tandem text l (s.survey visit state).2 (s'.survey visit state).2 ∧
      ∃ b b', R b b' ∧ (s.survey visit state).1 = some b ∧ (s'.survey visit state).1 = some b' := by
  obtain ⟨b, n, hVisits⟩ := exists_visits hEnd l state
  obtain ⟨b', hR, hVisits'⟩ := hVisits.crlf hText hVisit h.untemplated
  obtain ⟨hAnswer, hFrom, hLength⟩ := survey_spec hEnd h.front hVisits
  obtain ⟨hAnswer', hFrom', hLength'⟩ := survey_spec hEnd h.other hVisits'
  exact ⟨⟨h.untemplated, hFrom, hFrom', by rw [hLength, hLength', h.length]⟩, b, b', hR,
    hAnswer, hAnswer'⟩

/-- The tokens that are looked at belong to each other. -/
theorem peek (hText : PlainText text) (h : Tandem text l s s') (n : Nat) :
    Tandem text l (s.peek n).2 (s'.peek n).2 ∧
      ∃ t, t.Sound text ∧ (s.peek n).1 = some t ∧ (s'.peek n).1 = some (t.crlf text) := by
  have hVisit : AnswersAlike text passing fun t t' => t.Sound text ∧ t' = t.crlf text := by
    have hSame (left : Nat) (t : Token) :
        passing left (t.crlf text) = (passing left t).map id (Token.crlf text) := by
      rw [passing, passing, isEnd_crlf]
      split <;> rfl
    constructor
    · intro left left' t _ hGo
      rw [hSame, hGo]
      rfl
    · intro left t u ht hAnswer
      refine ⟨u.crlf text, ⟨?_, rfl⟩, by rw [hSame, hAnswer]; rfl⟩
      rw [passing] at hAnswer
      split at hAnswer
      · exact Sum.inr.inj hAnswer ▸ ht
      · cases hAnswer
  obtain ⟨hAfter, t, _, ⟨hSound, rfl⟩, hHere, hThere⟩ :=
    h.survey hText answersAtEnd_passing hVisit n
  exact ⟨hAfter, t, hSound, hHere, hThere⟩

/-- Both runs see an arrow behind the parenthesis, or neither does. -/
theorem closesBeforeArrow (hText : PlainText text) (h : Tandem text l s s') :
    Tandem text l s.closesBeforeArrow.2 s'.closesBeforeArrow.2 ∧
      s'.closesBeforeArrow.1 = s.closesBeforeArrow.1 := by
  have hStep (depth : Nat) (t : Token) : bracketStep depth (t.crlf text) = bracketStep depth t := by
    obtain ⟨kind, raw, start, endColumn, newlineBefore⟩ := t
    cases kind <;> rfl
  have hSame (depth : Nat) (t : Token) : closing depth (t.crlf text) = closing depth t := by
    rw [closing, closing, isPunctuator_crlf, isEnd_crlf, hStep]
  have hVisit : AnswersAlike text closing Eq := by
    constructor
    · intro depth depth' t _ hGo
      rw [hSame, hGo]
    · intro depth t b _ hAnswer
      exact ⟨b, rfl, by rw [hSame, hAnswer]⟩
  obtain ⟨hAfter, b, _, rfl, hHere, hThere⟩ := h.survey hText answersAtEnd_closing hVisit 1
  refine ⟨hAfter, ?_⟩
  show (s'.survey closing 1).1.getD false = (s.survey closing 1).1.getD false
  rw [hHere, hThere]

/-- Both streams hand out the same up to the next significant token. -/
theorem pullSignificant (hText : PlainText text) (h : Tandem text l s s') :
    ∃ rs t l', Leads l rs t l' ∧ t.Sound text ∧ s.pullSignificant.1 = rs ∧
      s'.pullSignificant.1 = rs.map (crlfResult text) ∧
      Tandem text l' s.pullSignificant.2 s'.pullSignificant.2 := by
  obtain ⟨rs, t, l', hLeads⟩ := exists_leads l
  obtain ⟨hLeads', hAfter, hSound⟩ := hLeads.crlf hText h.untemplated
  obtain ⟨hResults, hFrom, hLength⟩ := pullSignificant_spec h.front hLeads
  obtain ⟨hResults', hFrom', hLength'⟩ := pullSignificant_spec h.other hLeads'
  refine ⟨rs, t, l', hLeads, hSound, hResults, hResults', hAfter, hFrom, hFrom', ?_⟩
  rw [hLength, hLength', h.length, List.length_map]

/-- Both streams read the next slash again, or neither does. -/
theorem allowRegex (hText : PlainText text) (h : Tandem text l s s') :
    ∃ l', l'.cursor = l.cursor ∧ Tandem text l' s.allowRegex s'.allowRegex := by
  obtain ⟨n, r, hPasses⟩ := exists_passesTo l
  -- the slash is read again in both streams or in neither
  obtain ⟨hAgain, hSame⟩ := allowRegex_spec h.front hPasses
  obtain ⟨hAgain', hSame'⟩ := allowRegex_spec h.other (hPasses.crlf hText h.untemplated)
  rw [divides_crlfResult, h.length] at hAgain' hSame'
  by_cases hRead : s.ahead.length ≤ n ∨ divides r
  · obtain ⟨hFrom, hLength⟩ := hAgain hRead
    obtain ⟨hFrom', hLength'⟩ := hAgain' hRead
    have hUntemplated : Untemplated text l.allowRegex :=
      ⟨h.untemplated.follows, h.untemplated.templates⟩
    exact ⟨l.allowRegex, rfl, hUntemplated, hFrom, hFrom', hLength'.trans hLength.symm⟩
  · rw [not_or, Nat.not_le, Bool.not_eq_true] at hRead
    rw [hSame hRead.1 hRead.2, hSame' hRead.1 hRead.2]
    exact ⟨l, rfl, h⟩

/-- The streams of both sources start in step. -/
theorem ofSource {source : String} (hText : PlainText source.toList) :
    Tandem source.toList (.ofSource source) (.ofSource source)
      (.ofSource (String.ofList (ScriptLint.crlf source.toList))) := by
  obtain ⟨hSource, hUntemplated⟩ := ofSource_crlf hText
  exact ⟨hUntemplated, from_ofSource source, hSource ▸ from_ofSource _, rfl⟩

end Tandem

end TokenStream

end ScriptLint
