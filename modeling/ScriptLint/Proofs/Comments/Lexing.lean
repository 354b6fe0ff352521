import Mathlib.Data.Nat.Find
import ScriptLint.Proofs.Comments.Blanking

/-!
# Reading past comments

The lexer of a source and that of the source without its comments read the same, comments apart.
While the first one reads a comment, the second one waits; it skips the blanks there before its next
token.

- `mark_of_slash`: where no slash is bare, a slash at the front starts a comment.
- `Trails`: the two lexers between two results of the first. The second one lags behind, by white
  space only.
- `Trails.comment`, `Trails.next`: one result of the first lexer.
- `trails_ofSource`: both lexers start at the same place.
-/

namespace ScriptLint.Lexer

variable {source : String} {k : Nat} {l l' : Lexer}

/-! ## Slashes -/

/-- Where the source goes on, a step reads on. -/
theorem span_pos {c : Char} {rest : List Char}
    (h : (after source k).skipBlank.cursor.rest = c :: rest) :
    spanStart source k < spanEnd source k := by
  rcases (follows_after source k).proceeds.moves with ⟨-, hMoves⟩ | ⟨hEnd, -⟩
  · exact hMoves
  · rw [rest_of_end hEnd] at h
    cases h

/-- A step reads from where it begins in the source. -/
theorem drop_spanStart (source : String) (k : Nat) :
    source.toList.drop (spanStart source k) = (after source k).skipBlank.cursor.rest :=
  (follows_after source k).skipBlank.rest.symm

/-- The first character of a token stands where its span starts. -/
theorem getElem?_spanStart {c : Char} {rest : List Char}
    (h : (after source k).skipBlank.cursor.rest = c :: rest) :
    source.toList[spanStart source k]? = some c := by
  rw [← List.head?_drop, drop_spanStart, h, List.head?_cons]

/-- Where no slash is bare, a slash at the front starts a comment. -/
theorem mark_of_slash (h : NoBareSlash source) {rest : List Char}
    (hRest : (after source k).skipBlank.cursor.rest = '/' :: rest) :
    rest.head? = some '/' ∨ rest.head? = some '*' := by
  have hSkips := offset_le_spanStart source k
  have hInside := span_pos hRest
  have hBound := spanEnd_le_length source k
  rw [String.length_toList] at hBound
  rcases h _ (by omega) (getElem?_spanStart hRest) with hLine | ⟨t, hMem, hHides, hCovers⟩
  · have hFirst : (ofSource source).offset ≤ (after source k).offset :=
      offset_mono source (Nat.zero_le k)
    omega
  · obtain ⟨m, ht⟩ := exists_of_mem_tokensOf hMem
    obtain rfl := eq_of_covers ht hCovers hSkips hInside
    have hKind := token_read (after source m).skipBlank
      (scan (after source m).skipBlank.regexAllowed (after source m).skipBlank.templates '/' rest)
    rw [← next_of_cons hRest, show token? (after source m).next.1 = some t from ht] at hKind
    rcases scan_kind (after source m).skipBlank.regexAllowed
      (after source m).skipBlank.templates '/' rest with hComment | hOther
    · exact hComment.mark
    · rw [(hOther t.kind hKind.symm).shows rfl] at hHides
      cases hHides

/-- Whether a slash may start a regular expression does not matter where it starts a comment. -/
theorem scan_flag {c : Char} {rest : List Char}
    (h : c = '/' → rest.head? = some '/' ∨ rest.head? = some '*') (b b' : Bool)
    (templates : List Nat) : scan b templates c rest = scan b' templates c rest := by
  by_cases hc : c = '/'
  · subst hc
    unfold scan
    rcases h rfl with hMark | hMark
    · rw [hMark]
      rfl
    · rw [hMark]
      rfl
  · have hSlash : (c == '/') = false := beq_eq_false_iff_ne.mpr hc
    unfold scan
    rw [hSlash]
    rfl

/-- Lexers that differ in what they were told about slashes read what was scanned alike. -/
theorem read_of_flag {m : Lexer} (h : l.allowRegex = m.allowRegex) {s : Scan}
    (hCounts : ∀ kind, s.significant? = some kind → kind.isTrivia = false) :
    (l.read s).1 = (m.read s).1 ∧ (l.read s).2.allowRegex = (m.read s).2.allowRegex := by
  have hAllowed (l : Lexer) : (l.allowRegex.read s).2.allowRegex = (l.read s).2.allowRegex := by
    rw [(read_allowRegex l hCounts).2]
    split <;> rfl
  rw [← (read_allowRegex l hCounts).1, ← (read_allowRegex m hCounts).1, ← hAllowed l, ← hAllowed m,
    h]
  exact ⟨rfl, rfl⟩

/-! ## Comments -/

/-- Comments do not count. -/
theorem significant_of_isComment {r : Result} (h : isComment r) : significant? r = none := by
  cases r with
  | error e => cases h
  | ok t =>
    obtain ⟨text, hText⟩ := TokenKind.exists_of_isComment h
    refine if_pos ?_
    rw [Token.isTrivia, hText]
    rfl

/-- A comment starts with a slash and opens nothing. -/
theorem next_of_isComment (h : isComment l.next.1) :
    (∃ rest, l.skipBlank.cursor.rest = '/' :: rest) ∧ l.next.2.templates = l.templates := by
  obtain ⟨t, ht, text, hText⟩ : ∃ t, l.next.1 = .ok t ∧ ∃ text, t.kind = .comment text := by
    cases hr : l.next.1 with
    | ok t =>
      rw [hr] at h
      exact ⟨t, rfl, TokenKind.exists_of_isComment h⟩
    | error e =>
      rw [hr] at h
      cases h
  -- at the end of the text no comment is read; before a character, only a slash starts one
  cases hRest : l.skipBlank.cursor.rest with
  | nil =>
    rw [next_of_nil hRest] at ht
    obtain rfl := Except.ok.inj ht
    rw [kind_finish] at hText
    cases hText
  | cons c rest =>
    have hNext := next_of_cons hRest
    have hKind :=
      token_read l.skipBlank (scan l.skipBlank.regexAllowed l.skipBlank.templates c rest)
    rw [← hNext, ht] at hKind
    rcases scan_kind l.skipBlank.regexAllowed l.skipBlank.templates c rest with hStarts | hOther
    · refine ⟨⟨rest, by rw [hStarts.slash]⟩, ?_⟩
      rw [hNext, templates_read]
      exact hStarts.templates
    · have hCounts := (hOther t.kind hKind.symm).counts
      rw [hText] at hCounts
      cases hCounts

/-! ## Blanks in the place of comments -/

/-- Before the token of a step only white space is passed. -/
theorem blank_gap {i : Nat} (hFrom : (after source k).offset ≤ i) (hTo : i < spanStart source k) :
    (blankComments source).toList[i]?.any isSkipped := by
  have hSpan := spanStart_le_spanEnd source k
  have hBound := spanEnd_le_length source k
  have hOutside : inComment source i = false := by
    rw [inComment_eq hFrom (by omega), decide_eq_false (by omega), Bool.and_false]
  obtain ⟨c, hc⟩ : ∃ c, source.toList[i]? = some c :=
    ⟨_, List.getElem?_eq_getElem (show i < source.toList.length by omega)⟩
  rw [getElem?_of_outside hOutside, hc]
  refine (follows_after source k).proceeds.blank c ?_
  refine List.mem_of_getElem? (i := i - (after source k).offset) ?_
  rw [slice, List.getElem?_drop, List.getElem?_take, Nat.add_sub_cancel' hFrom]
  exact (if_pos hTo).trans hc

/-- A comment leaves white space. -/
theorem blank_comment (hComment : isComment (resultAt source k)) {i : Nat}
    (hFrom : (after source k).offset ≤ i) (hTo : i < spanEnd source k) :
    (blankComments source).toList[i]?.any isSkipped := by
  by_cases hGap : i < spanStart source k
  · exact blank_gap hFrom hGap
  · have hInside : inComment source i = true := by
      rw [inComment_eq hFrom hTo, hComment, decide_eq_true (by omega)]
      rfl
    have hBound := spanEnd_le_length source k
    obtain ⟨c, hc⟩ : ∃ c, source.toList[i]? = some c :=
      ⟨_, List.getElem?_eq_getElem (show i < source.toList.length by omega)⟩
    rw [getElem?_blankComments, hc, hInside]
    cases hBreak : Text.isLineTerminator c with
    | true => simp [isSkipped, hBreak]
    | false => simp [hBreak]; decide

/-- By induction on the run: a run of characters that pass a test, up to one that does not. -/
theorem length_takeWhile_eq {p : Char → Bool} {cs : List Char} {n : Nat}
    (hRun : ∀ i < n, cs[i]?.any p)
    (hStop : cs[n]?.any p = false) : (cs.takeWhile p).length = n := by
  induction n generalizing cs with
  | zero =>
    cases cs with
    | nil => rfl
    | cons c rest =>
      have hc : ¬p c = true := Bool.eq_false_iff.mp hStop
      rw [List.takeWhile_cons_of_neg hc, List.length_nil]
  | succ n ih =>
    have hFirst := hRun 0 (Nat.succ_pos n)
    cases cs with
    | nil => cases hFirst
    | cons c rest =>
      have hc : p c = true := hFirst
      rw [List.takeWhile_cons_of_pos hc, List.length_cons]
      exact congrArg (· + 1) (ih (fun i hi => hRun (i + 1) (Nat.succ_lt_succ hi)) hStop)

/-! ## The texts at a token -/

/-- By induction on the characters: texts that agree one by one up to a gap. -/
theorem alike_of_getElem? {n : Nat} {cs cs' : List Char} {d d' : Char}
    (hSame : ∀ i < n, cs'[i]? = cs[i]?)
    (hd : cs[n]? = some d) (hd' : cs'[n]? = some d') (hGap : isGap true d) (hGap' : isGap true d') :
    Alike true n cs cs' := by
  induction n generalizing cs cs' with
  | zero =>
    rw [← List.head?_eq_getElem?] at hd hd'
    obtain ⟨rest, rfl⟩ := List.head?_eq_some_iff.mp hd
    obtain ⟨rest', rfl⟩ := List.head?_eq_some_iff.mp hd'
    exact .gap hGap hGap' _ _
  | succ n ih =>
    have hFirst := hSame 0 (Nat.succ_pos n)
    cases cs with
    | nil => cases hd
    | cons c rest =>
      cases cs' with
      | nil => cases hd'
      | cons c' rest' =>
        obtain rfl : c' = c := Option.some.inj hFirst
        exact .cons c' (ih (fun i hi => hSame (i + 1) (Nat.succ_lt_succ hi)) hd hd')

/-- The first character of a comment at or after a token that is none starts the comment, and lies
behind the token. -/
theorem comment_behind (hOther : isComment (resultAt source k) = false) {i : Nat}
    (hFrom : spanStart source k ≤ i) (hInside : inComment source i)
    (hLeast : ∀ j < i, ¬(spanStart source k ≤ j ∧ inComment source j)) :
    spanEnd source k ≤ i ∧ source.toList[i]? = some '/' := by
  obtain ⟨t, hMem, hToken⟩ := List.any_eq_true.mp hInside
  obtain ⟨hKind, hCovers⟩ := Bool.and_eq_true_iff.mp hToken
  obtain ⟨m, ht⟩ := exists_of_mem_tokensOf hMem
  obtain ⟨hStart, hEnd⟩ := (covers_iff ht i).mp hCovers
  have hComment : isComment (resultAt source m) := isComment_of_token ht hKind
  have hSkips := offset_le_spanStart source m
  -- a comment that covers an offset behind the token is read later than the token
  have hLater : k < m := by
    rcases Nat.lt_trichotomy k m with hLess | rfl | hMore
    · exact hLess
    · rw [hOther] at hComment
      cases hComment
    · have hBefore : spanEnd source m ≤ (after source k).offset := offset_mono source hMore
      have hStarts := offset_le_spanStart source k
      omega
  have hBehind : spanEnd source k ≤ (after source m).offset := offset_mono source hLater
  have hSpan := spanStart_le_spanEnd source k
  -- the comment's own first character is one, so it is the first
  have hFirst : inComment source (spanStart source m) := by
    rw [inComment_eq hSkips (by omega), hComment, decide_eq_true (Nat.le_refl _)]
    rfl
  have hHere : i = spanStart source m :=
    Nat.le_antisymm (Nat.le_of_not_lt fun hLess => hLeast _ hLess ⟨by omega, hFirst⟩) hStart
  obtain ⟨⟨rest, hRest⟩, -⟩ := next_of_isComment hComment
  refine ⟨by omega, ?_⟩
  rw [hHere]
  exact getElem?_spanStart hRest

/-- From a token that is no comment on, the source without its comments is the source itself, or
goes on like it up to the first comment behind the token. -/
theorem text_at (hOther : isComment (resultAt source k) = false) {c : Char} {rest : List Char}
    (hRest : (after source k).skipBlank.cursor.rest = c :: rest) :
    ∃ rest', (blankComments source).toList.drop (spanStart source k) = c :: rest' ∧
      (rest' = rest ∨ ∃ n, Alike true n rest rest' ∧
        spanEnd source k ≤ spanStart source k + n + 1) := by
  have hDrop : source.toList.drop (spanStart source k) = c :: rest := by
    rw [drop_spanStart, hRest]
  have hText (i : Nat) : source.toList[spanStart source k + i]? = (c :: rest)[i]? := by
    rw [← hDrop, List.getElem?_drop]
  have hSpan := span_pos hRest
  -- with the first comment behind the token, if there is one, the texts stay the same up to its
  -- slash
  by_cases hAny : ∃ i, spanStart source k ≤ i ∧ inComment source i
  · obtain ⟨i, ⟨hFrom, hInside⟩, hLeast⟩ : ∃ i, (spanStart source k ≤ i ∧ inComment source i) ∧
        ∀ j < i, ¬(spanStart source k ≤ j ∧ inComment source j) :=
      ⟨Nat.find hAny, Nat.find_spec hAny, fun j => Nat.find_min hAny⟩
    obtain ⟨hBehind, hSlash⟩ := comment_behind hOther hFrom hInside hLeast
    obtain ⟨n, rfl⟩ : ∃ n, i = spanStart source k + (n + 1) :=
      ⟨i - spanStart source k - 1, by omega⟩
    have hSame (j : Nat) (hj : j < n + 1) :
        (blankComments source).toList[spanStart source k + j]? = (c :: rest)[j]? := by
      rw [getElem?_of_outside, hText]
      exact Bool.eq_false_iff.mpr fun hIn => hLeast _ (by omega) ⟨Nat.le_add_right _ _, hIn⟩
    have hBlank : (blankComments source).toList[spanStart source k + (n + 1)]? = some ' ' := by
      rw [getElem?_blankComments, hSlash, hInside]
      rfl
    have hHead : ((blankComments source).toList.drop (spanStart source k)).head? = some c := by
      rw [List.head?_drop]
      exact hSame 0 (Nat.succ_pos n)
    obtain ⟨rest', hRest'⟩ := List.head?_eq_some_iff.mp hHead
    have hText' (j : Nat) :
        (blankComments source).toList[spanStart source k + (j + 1)]? = rest'[j]? := by
      rw [← List.getElem?_drop, hRest', List.getElem?_cons_succ]
    have hMark : rest[n]? = some '/' := by
      rw [← hSlash, hText, List.getElem?_cons_succ]
    have hGap : rest'[n]? = some ' ' := by
      rw [← hText', hBlank]
    refine ⟨rest', hRest',
      .inr ⟨n, alike_of_getElem? (fun j hj => ?_) hMark hGap rfl rfl, by omega⟩⟩
    rw [← hText', hSame _ (Nat.succ_lt_succ hj), List.getElem?_cons_succ]
  · refine ⟨rest, ?_, .inl rfl⟩
    rw [← hDrop]
    refine List.ext_getElem? fun i => ?_
    rw [List.getElem?_drop, List.getElem?_drop, getElem?_of_outside]
    exact Bool.eq_false_iff.mpr fun hIn => hAny ⟨_, Nat.le_add_right _ _, hIn⟩

/-! ## Lexers side by side -/

/-- The lexers stand at the same place of texts of which the first so many characters agree. -/
structure Level (count : Nat) (l l' : Lexer) : Prop where
  position : ∀ n ≤ count, (l'.cursor.advance n).position = (l.cursor.advance n).position
  take : l'.cursor.rest.take count = l.cursor.rest.take count
  pending : l'.newlinePending = l.newlinePending
  templates : l'.templates = l.templates

/-- Both lexers read the same token where they recognise the same. -/
theorem Level.read {s : Scan} (h : Level s.length l l')
    (hPlace : ∀ {problem offset recovered}, s.scanned = .failure problem offset recovered →
      offset ≤ s.length) :
    (l'.read s).1 = (l.read s).1 := by
  have hEnd := h.position s.length (Nat.le_refl _)
  have hStart : l'.cursor.position = l.cursor.position := h.position 0 (Nat.zero_le _)
  have hRaw : l'.cursor.rest.take ((l'.cursor.advance s.length).offset - l'.cursor.offset) =
      l.cursor.rest.take ((l.cursor.advance s.length).offset - l.cursor.offset) := by
    rw [take_advance, take_advance, h.take]
  -- a token is made of what was consumed, which both lexers consume alike
  have hFinish (kind : TokenKind) :
      ((l'.consume s).finish l'.cursor kind).1 = ((l.consume s).finish l.cursor kind).1 := by
    have hToken (m : Lexer) : ((m.consume s).finish m.cursor kind).1 =
        { kind
          raw :=
            String.ofList
              (m.cursor.rest.take ((m.cursor.advance s.length).offset - m.cursor.offset))
          start := m.cursor.position
          endColumn := (m.cursor.advance s.length).position.column
          newlineBefore := !kind.isTrivia && (m.newlinePending || s.newline) } := by
      unfold finish
      dsimp only
      split <;> rfl
    rw [hToken, hToken, hRaw, hStart, hEnd, h.pending]
  unfold Lexer.read
  cases hScanned : s.scanned with
  | token kind => exact congrArg Except.ok (hFinish kind)
  | failure problem offset recovered =>
    have hOffset := h.position offset (hPlace hScanned)
    cases recovered with
    | none =>
      show Except.error (LexError.mk problem _ none) = Except.error (LexError.mk problem _ none)
      rw [hOffset]
    | some kind =>
      show Except.error (LexError.mk problem _ (some _)) =
        Except.error (LexError.mk problem _ (some _))
      rw [hOffset, hFinish]

/-- Both lexers read the same end of input. -/
theorem Level.endOfInput (h : Level 0 l l') :
    (l'.finish l'.cursor .endOfInput).1 = (l.finish l.cursor .endOfInput).1 := by
  have hToken (m : Lexer) : (m.finish m.cursor .endOfInput).1 =
      { kind := .endOfInput
        raw := ""
        start := m.cursor.position
        endColumn := m.cursor.position.column
        newlineBefore := m.newlinePending } := by
    have hNone : m.offset - m.cursor.offset = 0 := Nat.sub_self _
    unfold finish
    dsimp only
    rw [hNone]
    rfl
  have hHere : l'.cursor.position = l.cursor.position := h.position 0 (Nat.le_refl 0)
  rw [hToken, hToken, hHere, h.pending]

/-- The lexer of the source without its comments stands where the lexer of the source stands after
so many steps, or before it with only white space between them. -/
structure Trails (source : String) (k : Nat) (l l' : Lexer) : Prop where
  front : l.allowRegex = (after source k).allowRegex
  follows : Follows (blankComments source).toList l'.cursor
  tracks : Tracks (blankComments source).toList (lastEnd source k) l'
  templates : l'.templates = l.templates
  behind : l'.offset ≤ l.offset
  blank : ∀ i, l'.offset ≤ i → i < l.offset → (blankComments source).toList[i]?.any isSkipped

namespace Trails

/-- What the first lexer was told about slashes is all that it does not share with the steps. -/
theorem same_cursor (h : Trails source k l l') : l.cursor = (after source k).cursor := by
  show l.allowRegex.cursor = (after source k).allowRegex.cursor
  rw [h.front]

/-- Both lexers come to the same place behind the white space. -/
theorem same_blank (h : Trails source k l l') :
    l.skipBlank.allowRegex = (after source k).skipBlank.allowRegex :=
  congrArg Lexer.skipBlank h.front

/-- Where no slash is bare, it makes no difference. -/
theorem next_eq (hSlash : NoBareSlash source) (h : Trails source k l l') :
    l.next.1 = resultAt source k ∧ l.next.2.allowRegex = (after source (k + 1)).allowRegex := by
  have hBlank := h.same_blank
  have hRest : l.skipBlank.cursor.rest = (after source k).skipBlank.cursor.rest := by
    show l.skipBlank.allowRegex.cursor.rest = (after source k).skipBlank.allowRegex.cursor.rest
    rw [hBlank]
  have hTemplates : l.skipBlank.templates = (after source k).skipBlank.templates := by
    show l.skipBlank.allowRegex.templates = (after source k).skipBlank.allowRegex.templates
    rw [hBlank]
  show l.next.1 = (after source k).next.1 ∧ l.next.2.allowRegex = (after source k).next.2.allowRegex
  cases hFront : (after source k).skipBlank.cursor.rest with
  | nil =>
    have hFinish (m : Lexer) :
        m.finish m.cursor .endOfInput = m.allowRegex.finish m.allowRegex.cursor .endOfInput := rfl
    rw [next_of_nil hFront, next_of_nil (hRest.trans hFront), hFinish, hBlank, ← hFinish]
    exact ⟨rfl, rfl⟩
  | cons c rest =>
    have hCounts :=
      (scan_notices (after source k).skipBlank.regexAllowed (after source k).skipBlank.templates
      (unbroken_of_skipBlank hFront) rest).counts
    rw [next_of_cons hFront, next_of_cons (hRest.trans hFront), hTemplates,
      scan_flag (fun hc => mark_of_slash hSlash (hc ▸ hFront)) _
      (after source k).skipBlank.regexAllowed]
    exact read_of_flag hBlank hCounts

/-- The lexer that reads the comments stands where the token ends. -/
theorem offset_next (hSlash : NoBareSlash source) (h : Trails source k l l') :
    l.next.2.offset = spanEnd source k := by
  show l.next.2.allowRegex.offset = (after source (k + 1)).allowRegex.offset
  rw [(h.next_eq hSlash).2]

/-- While the first lexer reads a comment, the second one waits. -/
theorem comment (hSlash : NoBareSlash source) (h : Trails source k l l')
    (hComment : isComment l.next.1) : Trails source (k + 1) l.next.2 l' := by
  obtain ⟨hResult, hFront⟩ := h.next_eq hSlash
  obtain ⟨-, hTemplates⟩ := next_of_isComment hComment
  have hOffset := h.offset_next hSlash
  have hStart : l.offset = (after source k).offset := congrArg Cursor.offset h.same_cursor
  have hReads : l.offset ≤ l.next.2.offset := by
    rw [hOffset, hStart]
    exact offset_le_next (follows_after source k)
  have hLast : lastEnd source (k + 1) = lastEnd source k := by
    rw [lastEnd, ← hResult, significant_of_isComment hComment]
  refine ⟨hFront, h.follows, hLast ▸ h.tracks, h.templates.trans hTemplates.symm,
    Nat.le_trans h.behind hReads, fun i hFrom hTo => ?_⟩
  by_cases hBefore : i < l.offset
  · exact h.blank i hFrom hBefore
  · rw [hResult] at hComment
    exact blank_comment hComment (by omega) (by omega)

/-- Before the next token that is no comment, the second lexer skips as far as the first. -/
theorem offset_skipBlank (h : Trails source k l l')
    (hOther : isComment (resultAt source k) = false) :
    l'.skipBlank.offset = spanStart source k := by
  have hStart : l.offset = (after source k).offset := congrArg Cursor.offset h.same_cursor
  have hSkips := offset_le_spanStart source k
  have hBehind := h.behind
  have hRest : l'.cursor.rest = (blankComments source).toList.drop l'.offset := h.follows.rest
  -- the first character of the token is left as it is, and is no white space
  have hStop : (blankComments source).toList[spanStart source k]?.any isSkipped = false := by
    cases hFront : (after source k).skipBlank.cursor.rest with
    | nil =>
      have hOver : spanStart source k = source.toList.length :=
        (follows_after source k).skipBlank.offset_of_nil hFront
      rw [List.getElem?_eq_none (by rw [length_blankComments]; omega)]
      rfl
    | cons c rest =>
      obtain ⟨rest', hText, -⟩ := text_at hOther hFront
      have hHead := List.head?_dropWhile_not isSkipped (after source k).cursor.rest
      rw [← rest_skipBlank, hFront] at hHead
      rw [← List.head?_drop, hText]
      exact hHead
  -- between the two places there is white space only, or comments that are blanks now
  have hRun : (l'.cursor.rest.takeWhile isSkipped).length = spanStart source k - l'.offset := by
    refine length_takeWhile_eq (fun i hi => ?_) ?_
    · rw [hRest, List.getElem?_drop]
      by_cases hBefore : l'.offset + i < l.offset
      · exact h.blank _ (Nat.le_add_right _ _) hBefore
      · have hFrom : (after source k).offset ≤ l'.offset + i := by omega
        exact blank_gap hFrom (by omega)
    · rw [hRest, List.getElem?_drop, Nat.add_sub_cancel' (by omega)]
      exact hStop
  show (l'.cursor.advance (l'.cursor.rest.takeWhile isSkipped).length).offset = _
  rw [offset_advance_of_le (List.takeWhile_prefix _).length_le, hRun]
  show l'.offset + _ = _
  omega

/-- There both lexers stand at the same place. -/
theorem level (h : Trails source k l l') (hOther : isComment (resultAt source k) = false)
    {count : Nat}
    (hTake : l'.skipBlank.cursor.rest.take count =
    (after source k).skipBlank.cursor.rest.take count) :
    Level count (after source k).skipBlank l'.skipBlank := by
  have hOffset : l'.skipBlank.cursor.offset = (after source k).skipBlank.cursor.offset :=
    h.offset_skipBlank hOther
  have hFollows := (follows_after source k).skipBlank
  have hFollows' := h.follows.skipBlank
  have hTemplates : l.templates = (after source k).templates := by
    show l.allowRegex.templates = (after source k).allowRegex.templates
    rw [h.front]
  refine ⟨fun n _ => ?_, hTake, ?_, h.templates.trans hTemplates⟩
  · have hMoved : (l'.skipBlank.cursor.advance n).offset =
        ((after source k).skipBlank.cursor.advance n).offset := by
      rw [Cursor.offset_advance, Cursor.offset_advance, hFollows.rest, hFollows'.rest,
        List.length_drop, List.length_drop, length_blankComments, hOffset]
    rw [(hFollows'.advance n).position, (hFollows.advance n).position, hMoved, within_blankComments]
  · rw [h.tracks.skipBlank.pending, (tracks_after source k).skipBlank.pending,
      lineEndsWithin_blankComments]
    exact congrArg _ hOffset

/-- What is scanned in the source and in the source without its comments, where no comment
stands. -/
theorem scan_eq (hSlash : NoBareSlash source) (h : Trails source k l l')
    (hOther : isComment (resultAt source k) = false) {c : Char} {rest : List Char}
    (hRest : (after source k).skipBlank.cursor.rest = c :: rest) :
    let s :=
      scan (after source k).skipBlank.regexAllowed (after source k).skipBlank.templates c rest
    l'.next = l'.skipBlank.read s ∧ Level s.length (after source k).skipBlank l'.skipBlank := by
  intro s
  have hLength : spanEnd source k = spanStart source k + s.length := by
    have hFits : s.length ≤ (after source k).skipBlank.cursor.rest.length := hRest ▸ scan_fits ..
    show (after source k).next.2.cursor.offset = _
    rw [next_of_cons hRest, cursor_read]
    exact offset_advance_of_le hFits
  obtain ⟨rest', hText, hAgree⟩ := text_at hOther hRest
  have hRest' : l'.skipBlank.cursor.rest = c :: rest' := by
    rw [h.follows.skipBlank.rest, show l'.skipBlank.cursor.offset =
      _ from h.offset_skipBlank hOther, hText]
  -- a slash starts a token of at least two characters here, so the texts part behind it
  have hNear (hc : c = '/') : 2 ≤ s.length := by
    subst hc
    exact (scan_comment _ _ (mark_of_slash hSlash hRest)).length
  have hHead (hc : c = '/') : rest'.head? = rest.head? := by
    rcases hAgree with rfl | ⟨n, hAlike, hEnd⟩
    · rfl
    · have hFar := hNear hc
      exact hAlike.head_of_pos (by omega)
  have hScan :
      scan (after source k).skipBlank.regexAllowed (after source k).skipBlank.templates c rest' =
        s := by
    rcases hAgree with rfl | ⟨n, hAlike, hEnd⟩
    · rfl
    · -- the texts part behind the token, where one has a slash and the other a blank
      refine scan_local _ _ hAlike (fun _ hc => ?_) (show s.length ≤ n + 1 by omega)
      have hFar := hNear hc
      omega
  have hTake : (c :: rest').take s.length = (c :: rest).take s.length := by
    rcases hAgree with rfl | ⟨n, hAlike, hEnd⟩
    · rfl
    · exact (Alike.cons c hAlike).take (by omega)
  have hLevel : Level s.length (after source k).skipBlank l'.skipBlank :=
    h.level hOther (by rw [hRest, hRest', hTake])
  refine ⟨?_, hLevel⟩
  rw [next_of_cons hRest', hLevel.templates,
    scan_flag (fun hc => ?_) _ (after source k).skipBlank.regexAllowed, hScan]
  rw [hHead hc]
  exact mark_of_slash hSlash (hc ▸ hRest)

/-- Otherwise both lexers read the same. -/
theorem next (hSlash : NoBareSlash source) (h : Trails source k l l')
    (hOther : isComment l.next.1 = false) :
    l'.next.1 = l.next.1 ∧ Trails source (k + 1) l.next.2 l'.next.2 := by
  obtain ⟨hResult, hFront⟩ := h.next_eq hSlash
  have hEnd := h.offset_next hSlash
  rw [hResult] at hOther ⊢
  have hTemplates : l.next.2.templates = (after source k).next.2.templates := by
    show l.next.2.allowRegex.templates = (after source (k + 1)).allowRegex.templates
    rw [hFront]
  -- the next result, and where the second lexer is afterwards
  obtain ⟨hSame, hPlace, hOpen⟩ : l'.next.1 = resultAt source k ∧ l'.next.2.offset =
    spanEnd source k ∧
      l'.next.2.templates = (after source k).next.2.templates := by
    cases hRest : (after source k).skipBlank.cursor.rest with
    | nil =>
      have hLevel : Level 0 (after source k).skipBlank l'.skipBlank := h.level hOther rfl
      have hOver : spanStart source k = source.toList.length :=
        (follows_after source k).skipBlank.offset_of_nil hRest
      have hStart := h.offset_skipBlank hOther
      have hRest' : l'.skipBlank.cursor.rest = [] := by
        rw [h.follows.skipBlank.rest, show l'.skipBlank.cursor.offset = _ from hStart]
        exact List.drop_eq_nil_of_le (by rw [length_blankComments]; omega)
      have hHere : spanEnd source k = spanStart source k := by
        show (after source k).next.2.cursor.offset = _
        rw [next_of_nil hRest, cursor_finish]
        rfl
      rw [next_of_nil hRest', hHere, ← hStart]
      show Except.ok _ = (after source k).next.1 ∧ Cursor.offset (Lexer.cursor _) =
        Cursor.offset _ ∧ _
      rw [next_of_nil hRest, hLevel.endOfInput, cursor_finish]
      exact ⟨rfl, rfl, hLevel.templates⟩
    | cons c rest =>
      obtain ⟨hNext, hLevel⟩ := h.scan_eq hSlash hOther hRest
      have hStop := congrArg Position.offset (hLevel.position _ (Nat.le_refl _))
      show l'.next.1 = (after source k).next.1 ∧
        l'.next.2.cursor.offset = (after source k).next.2.cursor.offset ∧ _
      rw [hNext, next_of_cons hRest, hLevel.read (scan_failure _ _), templates_read, templates_read,
        cursor_read, cursor_read]
      exact ⟨rfl, hStop, rfl⟩
  refine ⟨hSame, hFront, h.follows.proceeds.follows, ?_, hOpen.trans hTemplates.symm, by omega,
    fun i hFrom hTo => ?_⟩
  · have hTracks := h.tracks.next
    unfold KeepsTrack at hTracks
    rw [hSame] at hTracks
    rw [lastEnd]
    split at hTracks
    · exact hTracks.tracks
    · exact hTracks
  · omega

end Trails

/-! ## The start of the sources -/

/-- No template is open at the start. -/
theorem templates_ofSource (source : String) : (ofSource source).templates = [] := by
  unfold ofSource
  dsimp only
  split <;> rfl

/-- The lexer starts behind the `#!` line, if there is one. -/
theorem offset_ofSource (source : String) : (ofSource source).offset =
    if ['#', '!'] <+: source.toList then (source.toList.takeWhile (!Text.isLineTerminator ·)).length
    else 0 := by
  unfold ofSource
  dsimp only
  split
  · next rest hLine =>
    rw [if_pos (hLine ▸ ⟨rest, rfl⟩)]
    exact (offset_advance_of_le (List.takeWhile_prefix _).length_le).trans (Nat.zero_add _)
  · next hOther =>
    rw [if_neg]
    · rfl
    · rintro ⟨rest, hLine⟩
      exact hOther rest hLine.symm

/-- The line that names an interpreter holds no comment. -/
theorem inComment_of_lt {offset : Nat} (h : offset < (ofSource source).offset) :
    inComment source offset = false := by
  refine Bool.eq_false_iff.mpr fun hInside => ?_
  obtain ⟨t, hMem, hToken⟩ := List.any_eq_true.mp hInside
  obtain ⟨m, ht⟩ := exists_of_mem_tokensOf hMem
  obtain ⟨hStart, -⟩ := (covers_iff ht offset).mp (Bool.and_eq_true_iff.mp hToken).2
  have hFirst : (ofSource source).offset ≤ (after source m).offset :=
    offset_mono source (Nat.zero_le m)
  have hSkips := offset_le_spanStart source m
  omega

/-- What is no blank was there before. -/
theorem getElem?_of_ne_blank {offset : Nat} {c : Char}
    (h : (blankComments source).toList[offset]? = some c)
    (hc : c ≠ ' ') : source.toList[offset]? = some c := by
  rw [getElem?_blankComments] at h
  obtain ⟨d, hd, hBlank⟩ := Option.map_eq_some_iff.mp h
  split at hBlank
  · exact absurd hBlank.symm hc
  · rw [hd, hBlank]

/-- The first two characters of a text. -/
theorem prefix_iff_getElem? {a b : Char} {text : List Char} :
    [a, b] <+: text ↔ text[0]? = some a ∧ text[1]? = some b := by
  constructor
  · rintro ⟨rest, rfl⟩
    exact ⟨rfl, rfl⟩
  · rintro ⟨ha, hb⟩
    match text with
    | [] => cases ha
    | [_] => cases hb
    | _ :: _ :: rest =>
      obtain rfl := Option.some.inj ha
      obtain rfl := Option.some.inj hb
      exact ⟨rest, rfl⟩

/-- Without its comments a source names an interpreter if it does so with them. -/
theorem prefix_blankComments (source : String) :
    ['#', '!'] <+: (blankComments source).toList ↔ ['#', '!'] <+: source.toList := by
  constructor
  · rw [prefix_iff_getElem?, prefix_iff_getElem?]
    rintro ⟨hHash, hBang⟩
    exact ⟨getElem?_of_ne_blank hHash (by decide), getElem?_of_ne_blank hBang (by decide)⟩
  · intro hLine
    have hOffset : 2 ≤ (ofSource source).offset := by
      rw [offset_ofSource, if_pos hLine]
      obtain ⟨rest, hRest⟩ := hLine
      rw [← hRest]
      exact Nat.le_add_left 2 _
    obtain ⟨hHash, hBang⟩ := prefix_iff_getElem?.mp hLine
    rw [prefix_iff_getElem?, getElem?_of_outside (inComment_of_lt (by omega)),
      getElem?_of_outside (inComment_of_lt (by omega))]
    exact ⟨hHash, hBang⟩

/-- The `#!` line is no comment, so both lexers start behind it. -/
theorem offset_ofSource_blankComments (source : String) :
    (ofSource (blankComments source)).offset = (ofSource source).offset := by
  have hSkeleton (text : List Char) :
      ((skeleton text).takeWhile (!Text.isLineTerminator ·)).length =
      (text.takeWhile (!Text.isLineTerminator ·)).length := by
    have hBreaks : (!Text.isLineTerminator ·) ∘ keepBreak = (!Text.isLineTerminator ·) :=
      funext fun c => congrArg not (isLineTerminator_keepBreak c)
    rw [skeleton, List.takeWhile_map, List.length_map, hBreaks]
  rw [offset_ofSource, offset_ofSource, ← hSkeleton, ← hSkeleton source.toList,
    skeleton_blankComments]
  simp only [prefix_blankComments]

/-- At the start both lexers are at the same place. -/
theorem trails_ofSource (source : String) :
    Trails source 0 (ofSource source) (ofSource (blankComments source)) := by
  have hOffset := offset_ofSource_blankComments source
  refine ⟨rfl, follows_ofSource _, tracks_ofSource _, ?_, Nat.le_of_eq hOffset,
    fun i hFrom hTo => ?_⟩
  · rw [templates_ofSource, templates_ofSource]
  · omega

end ScriptLint.Lexer
