import ScriptLint.Proofs.Lexer.Stream

/-!
# Lexing loses nothing

The lexer reads a source from its start to its end: what it reads follows one another without
overlap, only white space lies between, and every place that it reports is where a count of the line
breaks before it says that it is.

- `breaksAt`, `Position.within`: the line breaks of a text and the place of an offset in it.
- `scan_fits`: no scanner takes more characters than there are.
- `Follows`: the invariant of the lexer between two tokens. It stands at the place of its offset,
  with the rest of the source before it.
- `lexing_lossless`: the runs of the lexer, in terms of offsets of the source.
-/

namespace ScriptLint

/-! ## Places in a text -/

/-- Whether a line breaks at the offset: a carriage return right before a line feed breaks none. -/
def breaksAt (text : List Char) (offset : Nat) : Bool :=
  text[offset]?.any fun c =>
    Text.isLineTerminator c && !(c == '\r' && text[offset + 1]? == some '\n')

/-- The place of an offset in a text: one line more than there are breaks before it, one column more
than there are characters since the last of them. -/
def Position.within (text : List Char) (offset : Nat) : Position where
  line := 1 + (List.range offset).countP (breaksAt text)
  column := 1 + ((List.range offset).reverse.takeWhile (!breaksAt text ·)).length
  offset := offset

namespace Position

/-- Reading a character leads from the place of its offset to that of the next. -/
theorem within_succ {text rest : List Char} {offset : Nat} {c : Char}
    (h : text.drop offset = c :: rest) :
    within text (offset + 1) = Cursor.step (within text offset) c rest.head? := by
  have hHere : text[offset]? = some c := by
    rw [← List.head?_drop, h, List.head?_cons]
  have hNext : text[offset + 1]? = rest.head? := by
    rw [← List.head?_drop, ← List.tail_drop, h, List.tail_cons]
  have hBreak : breaksAt text offset =
      (Text.isLineTerminator c && !(c == '\r' && rest.head? == some '\n')) := by
    rw [breaksAt, hHere, hNext, Option.any_some]
  unfold within Cursor.step
  simp only [List.range_succ, List.countP_append, List.reverse_append, List.reverse_singleton,
    List.singleton_append, List.countP_singleton, List.takeWhile_cons, ← hBreak]
  cases breaksAt text offset with
  | true => simp [Nat.add_assoc]
  | false => simp [Nat.add_comm]

end Position

namespace Lexer

variable {cs rest : List Char} {c : Char}

/-! ## Scanners stay within the source -/

/-- No more digits are taken than there are. -/
theorem hexDigits_fits (count code : Nat) (cs : List Char) :
    (hexDigits count code cs).length ≤ cs.length := by
  fun_induction hexDigits count code cs with
  | case1 => exact Nat.zero_le _
  | case2 => exact Nat.zero_le _
  | case3 => exact Nat.zero_le _
  | case4 _ _ _ _ _ _ _ ih => exact Nat.succ_le_succ ih

theorem bracedDigits_fits (code : Nat) (any : Bool) (cs : List Char) :
    (bracedDigits code any cs).length ≤ cs.length := by
  fun_induction bracedDigits code any cs with
  | case1 => exact Nat.zero_le _
  | case2 _ _ _ _ _ _ _ _ ih => exact Nat.succ_le_succ ih
  | case3 => exact Nat.zero_le _
  | case4 => exact Nat.succ_le_succ (Nat.zero_le _)
  | case5 => exact Nat.zero_le _

theorem unicodeEscape_fits (cs : List Char) : (unicodeEscape cs).length ≤ cs.length := by
  unfold unicodeEscape
  split
  · exact Nat.succ_le_succ (bracedDigits_fits ..)
  · exact hexDigits_fits ..

theorem octalDigits_fits (code : Nat) (cs : List Char) : (octalDigits code cs).2 ≤ cs.length := by
  fun_induction octalDigits code cs with
  | case1 => exact Nat.zero_le _
  | case2 _ _ _ _ _ _ _ _ hRest ih =>
    rw [hRest] at ih
    exact Nat.succ_le_succ ih
  | case3 => exact Nat.zero_le _
  | case4 => exact Nat.zero_le _

/-- The letter of the escape counts. -/
theorem length_ofDecoded (decoded : Decoded) :
    (Escape.ofDecoded decoded).length = decoded.length + 1 := by
  unfold Escape.ofDecoded
  split <;> rfl

/-- An escape is within the text. -/
theorem escape_fits (cs : List Char) : (Escape.read cs).length ≤ cs.length := by
  unfold Escape.read
  split
  case h_8 rest => exact length_ofDecoded _ ▸ Nat.succ_le_succ (hexDigits_fits ..)
  case h_9 rest => exact length_ofDecoded _ ▸ Nat.succ_le_succ (unicodeEscape_fits ..)
  case h_11 c rest _ _ _ _ _ _ _ _ _ =>
    split
    · exact Nat.succ_le_succ (Nat.zero_le _)
    · split
      · exact Nat.succ_le_succ (Nat.zero_le _)
      · split
        · exact Nat.succ_le_succ (octalDigits_fits ..)
        · exact Nat.succ_le_succ (Nat.zero_le _)
  all_goals simp

/-- So is an escape in a name. -/
theorem nameEscape_fits (cs : List Char) : (nameEscape cs).length ≤ cs.length := by
  unfold nameEscape
  split
  · exact Nat.succ_le_succ (unicodeEscape_fits ..)
  · exact Nat.zero_le _

/-- An escape counts as soon as it is read; the characters of it that are still to be skipped are
there. -/
theorem stringBody_fits (quote : Char) (skip : Nat) (cs : List Char) (s : StringScan)
    (hSkip : skip ≤ cs.length) :
    (stringBody quote skip cs s).length + skip ≤ s.length + cs.length := by
  fun_induction stringBody quote skip cs s with
  | case1 => exact Nat.add_le_add_left hSkip _
  | case2 skip c rest s ih =>
    have hRest := ih (Nat.le_of_succ_le_succ hSkip)
    rw [List.length_cons]
    omega
  | case3 => exact Nat.le_add_right _ _
  | case4 c rest s =>
    have hClose : s.close.length = s.length + 1 := rfl
    rw [List.length_cons, hClose]
    omega
  | case5 c rest s _ _ _ e ih =>
    have hRest := ih (escape_fits rest)
    have hPush : (s.pushEscape e).length = s.length + 1 + e.length := rfl
    rw [List.length_cons]
    omega
  | case6 c rest s _ _ _ ih =>
    have hRest := ih (Nat.zero_le _)
    have hPush : (s.push c).length = s.length + 1 := rfl
    rw [List.length_cons]
    omega

/-- A word is within the text. -/
theorem wordBody_fits (skip : Nat) (cs : List Char) (s : WordScan) (hSkip : skip ≤ cs.length) :
    (wordBody skip cs s).length + skip ≤ s.length + cs.length := by
  -- along the scan; skipped characters belong to an escape before
  fun_induction wordBody skip cs s with
  | case1 => exact Nat.add_le_add_left hSkip _
  | case2 skip c rest s ih =>
    have hRest := ih (Nat.le_of_succ_le_succ hSkip)
    rw [List.length_cons]
    omega
  | case3 c rest s _ decoded length letter _ ih =>
    have hRest := ih (nameEscape_fits rest)
    dsimp only at hRest
    rw [List.length_cons]
    omega
  | case4 c rest s _ decoded length _ =>
    have hEscape : decoded.length ≤ rest.length := nameEscape_fits rest
    rw [List.length_cons]
    dsimp only
    omega
  | case5 c rest s _ _ ih =>
    have hRest := ih (Nat.zero_le _)
    dsimp only at hRest
    rw [List.length_cons]
    omega
  | case6 => exact Nat.le_add_right _ _

/-- So is a template. -/
theorem templateBody_fits (cs : List Char) (s : TemplateScan) :
    (templateBody cs s).length ≤ s.length + cs.length := by
  fun_induction templateBody cs s with
  | case1 => exact Nat.le_add_right _ _
  | case2 => simp
  | case3 => simp
  | case4 c rest s ih =>
    dsimp only at ih
    rw [List.length_cons, List.length_cons]
    omega
  | case5 c rest s _ _ _ ih =>
    dsimp only at ih
    rw [List.length_cons]
    omega

/-- So is a regular expression. -/
theorem regexpBody_fits (inClass : Bool) (cs : List Char) (s : RegexpScan) :
    (regexpBody inClass cs s).length ≤ s.length + cs.length := by
  fun_induction regexpBody inClass cs s with
  | case1 => exact Nat.le_add_right _ _
  | case2 => simp
  | case3 inClass c rest s _ ih =>
    dsimp only at ih
    rw [List.length_cons, List.length_cons]
    omega
  | case4 => exact Nat.le_add_right _ _
  | case5 => simp
  | case6 inClass c rest s _ _ _ ih =>
    dsimp only at ih
    rw [List.length_cons]
    omega

/-- So is a comment. -/
theorem commentBody_fits (cs : List Char) (s : CommentScan) :
    (commentBody cs s).length ≤ s.length + cs.length := by
  fun_induction commentBody cs s with
  | case1 => exact Nat.le_add_right _ _
  | case2 => exact Nat.le_add_right _ _
  | case3 c rest s _ ih =>
    dsimp only at ih
    rw [List.length_cons]
    omega

/-! ## Numbers -/

/-- A run of digits and what follows it make up the text. -/
theorem digitRun_splits (accept : Char → Bool) (cs : List Char) :
    (digitRun accept cs).length + (digitRun accept cs).rest.length = cs.length := by
  unfold digitRun
  rw [← List.length_append, List.takeWhile_append_dropWhile]

/-- A fraction and the rest make up the text. -/
theorem readFraction_splits (cs : List Char) :
    (readFraction cs).length + (readFraction cs).rest.length = cs.length := by
  unfold readFraction
  split
  · next rest =>
    have hRun := digitRun_splits Char.isDigit rest
    dsimp only
    rw [List.length_cons]
    omega
  · exact Nat.zero_add _

/-- An exponent and the rest make up the text. -/
theorem readExponent_splits (cs : List Char) :
    (readExponent cs).length + (readExponent cs).rest.length = cs.length := by
  cases cs with
  | nil => rfl
  | cons c rest =>
    rw [readExponent]
    dsimp only
    split
    · dsimp only
      split
      · next hSigned =>
        obtain ⟨sign, tail, rfl⟩ : ∃ sign tail, rest = sign :: tail := by
          cases rest with
          | nil => simp at hSigned
          | cons sign tail => exact ⟨sign, tail, rfl⟩
        have hRun := digitRun_splits Char.isDigit tail
        simp only [List.length_cons, List.drop_succ_cons, List.drop_zero]
        omega
      · have hRun := digitRun_splits Char.isDigit rest
        rw [List.length_cons]
        omega
    · exact Nat.zero_add _

/-- A number and the rest make up the text. -/
theorem bareLiteral_splits (cs : List Char) :
    (bareLiteral cs).length + (bareLiteral cs).rest.length = cs.length := by
  unfold bareLiteral
  split
  · next radix hRadix =>
    obtain ⟨d, tail, rfl⟩ : ∃ d tail, cs = '0' :: d :: tail := by
      unfold radix? at hRadix
      split at hRadix
      · exact ⟨_, _, rfl⟩
      · cases hRadix
    have hRun := digitRun_splits (isRadixDigit radix) tail
    simp only [radixLiteral, List.length_cons, List.drop_succ_cons, List.drop_zero]
    omega
  · split
    · exact digitRun_splits Char.isDigit cs
    · have hWhole := digitRun_splits Char.isDigit cs
      have hFraction := readFraction_splits (digitRun Char.isDigit cs).rest
      have hExponent := readExponent_splits (readFraction (digitRun Char.isDigit cs).rest).rest
      simp only [decimalLiteral]
      omega

/-- What is appended to a number comes from the rest. -/
theorem NumberScan.finish_splits (s : NumberScan) :
    s.finish.length + s.finish.rest.length = s.length + s.rest.length := by
  have hName (l : List Char) :
      (l.takeWhile isNamePart).length + (l.dropWhile isNamePart).length = l.length := by
    rw [← List.length_append, List.takeWhile_append_dropWhile]
  have hSuffix (h : (s.rest.head? == some 'n' && !s.literal.legacyOctal) = true) :
      (s.rest.drop 1).length + 1 = s.rest.length := by
    cases hRest : s.rest with
    | nil => simp [hRest] at h
    | cons d tail => rfl
  unfold NumberScan.finish
  dsimp only
  split
  · next h =>
    have hOne := hSuffix h
    have hTail := hName (s.rest.drop 1)
    split <;> (dsimp only; omega)
  · have hTail := hName s.rest
    split
    · dsimp only
      omega
    · dsimp only

/-- A number is within the text. -/
theorem scanNumber_fits (cs : List Char) : (scanNumber cs).length ≤ cs.length := by
  have hBare := bareLiteral_splits cs
  have hFinish := (bareLiteral cs).finish_splits
  unfold scanNumber
  dsimp only
  split
  · dsimp only
    omega
  · omega

/-! ## Any token -/

/-- So is an operator. -/
theorem longestPunctuator_fits {p : Punctuator} (h : longestPunctuator? cs = some p) :
    p.spelling.length ≤ cs.length := by
  have hFound {p : Punctuator}
    (h : Punctuator.all.find? (·.spelling.toList.isPrefixOf cs) = some p) :
      p.spelling.length ≤ cs.length := by
    have hStarts := List.find?_some h
    rw [← String.length_toList]
    exact (List.isPrefixOf_iff_prefix.mp hStarts).length_le
  unfold longestPunctuator? at h
  split at h
  · next hChain =>
    have hTwo : 2 ≤ cs.length := hFound hChain
    split at h <;> obtain rfl := Option.some.inj h
    · exact Nat.le_trans (Nat.le_succ 1) hTwo
    · exact hTwo
  · exact hFound h

/-- So is a regular expression with its slash. -/
theorem scanRegexp_fits (templates : List Nat) (cs : List Char) :
    (scanRegexp templates cs).length ≤ cs.length + 1 := by
  have hBody := regexpBody_fits false cs {}
  dsimp only at hBody
  unfold scanRegexp
  dsimp only
  split
  · have hFlags := (List.takeWhile_prefix isNamePart
      (l := cs.drop ((regexpBody false cs {}).length - 1))).length_le
    rw [List.length_drop] at hFlags
    dsimp only
    omega
  · dsimp only
    omega

/-- So is a part of a template with its first character. -/
theorem scanTemplate_fits (templates : List Nat) (closed opened : TemplatePart) (cs : List Char) :
    (scanTemplate templates closed opened cs).length ≤ cs.length + 1 := by
  have hBody := templateBody_fits cs {}
  dsimp only at hBody
  unfold scanTemplate
  dsimp only
  split <;> dsimp only <;> omega

/-- So is a string with its quote. -/
theorem scanString_fits (templates : List Nat) (quote : Char) (cs : List Char) :
    (scanString templates quote cs).length ≤ cs.length + 1 := by
  have hBody := stringBody_fits quote 0 cs { literal := { quote } } (Nat.zero_le _)
  dsimp only at hBody
  unfold scanString
  dsimp only
  split
  · dsimp only
    omega
  · split <;> dsimp only <;> omega

/-- So is a comment with its first characters. -/
theorem scanBlockComment_fits (templates : List Nat) (body : List Char) :
    (scanBlockComment templates body).length ≤ body.length + 2 := by
  have hBody := commentBody_fits body {}
  dsimp only at hBody
  unfold scanBlockComment
  dsimp only
  split
  · next hClosed =>
    obtain ⟨tail, hTail⟩ := commentBody_closed body {} rfl hClosed
    have hMark := congrArg List.length hTail
    rw [List.length_drop, List.length_cons, List.length_cons] at hMark
    dsimp only at hMark ⊢
    omega
  · dsimp only
    omega

/-- No token takes more characters than there are. -/
theorem scan_fits (regexAllowed : Bool) (templates : List Nat) (c : Char) (rest : List Char) :
    (scan regexAllowed templates c rest).length ≤ rest.length + 1 := by
  -- a comment takes the character behind the slash as well
  have hSecond {d : Char} (h : (c == '/' && rest.head? == some d) = true) :
      (rest.drop 1).length + 1 = rest.length := by
    cases rest with
    | nil => simp at h
    | cons e tail => rfl
  unfold scan
  split
  · next h =>
    have hBody := hSecond h
    have hText := (List.takeWhile_prefix (!Text.isLineTerminator ·) (l := rest.drop 1)).length_le
    simp only [scanLineComment]
    omega
  split
  · next h =>
    have hBody := hSecond h
    have hComment := scanBlockComment_fits templates (rest.drop 1)
    omega
  split
  · exact scanRegexp_fits templates rest
  split
  · exact scanTemplate_fits ..
  split
  · exact scanTemplate_fits ..
  split
  · exact scanString_fits templates c rest
  split
  · have hNumber := scanNumber_fits (c :: rest)
    unfold scanNumeric
    dsimp only
    split <;> exact hNumber
  split
  · have hWord := wordBody_fits 0 (c :: rest) {} (Nat.zero_le _)
    rw [Nat.add_zero, Nat.zero_add] at hWord
    unfold scanWord
    dsimp only
    split <;> exact hWord
  · unfold scanPunctuator
    split
    · next h => exact longestPunctuator_fits h
    · exact Nat.le_add_left 1 _

/-! ## Reading token after token -/

/-- The cursor stands in the text, at the place of its offset. -/
structure Follows (text : List Char) (cursor : Cursor) : Prop where
  rest : cursor.rest = text.drop cursor.offset
  bound : cursor.offset ≤ text.length
  position : cursor.position = .within text cursor.offset

variable {text : List Char} {cursor : Cursor} {lexer : Lexer}

/-- The cursor follows the text from one character to the next. -/
theorem Follows.next (h : Follows text cursor) : Follows text cursor.next := by
  obtain ⟨rest, position⟩ := cursor
  cases rest with
  | nil => exact h
  | cons c rest =>
    have hDrop : text.drop position.offset = c :: rest := h.rest.symm
    have hPosition : position = .within text position.offset := h.position
    have hStep : Cursor.step position c rest.head? = .within text (position.offset + 1) := by
      rw [Position.within_succ hDrop, ← hPosition]
    refine ⟨?_, ?_, ?_⟩
    · show rest = text.drop (Cursor.step position c rest.head?).offset
      rw [hStep]
      show rest = text.drop (position.offset + 1)
      rw [← List.tail_drop, hDrop, List.tail_cons]
    · show (Cursor.step position c rest.head?).offset ≤ text.length
      rw [hStep]
      show position.offset + 1 ≤ text.length
      have hLength := congrArg List.length hDrop
      rw [List.length_drop, List.length_cons] at hLength
      omega
    · show Cursor.step position c rest.head? =
        .within text (Cursor.step position c rest.head?).offset
      rw [hStep]
      rfl

/-- By induction on the characters that are read. -/
theorem Follows.advance (h : Follows text cursor) (count : Nat) :
    Follows text (cursor.advance count) := by
  induction count generalizing cursor with
  | zero => exact h
  | succ count ih => exact ih h.next

/-- Reading as many characters as there are moves the offset by their number. -/
theorem offset_advance_of_le {count : Nat} (h : count ≤ cursor.rest.length) :
    (cursor.advance count).offset = cursor.offset + count := by
  rw [Cursor.offset_advance, Nat.min_eq_left h]

theorem Follows.skipBlank (h : Follows text lexer.cursor) : Follows text lexer.skipBlank.cursor :=
  h.advance _

theorem follows_ofSource (source : String) : Follows source.toList (ofSource source).cursor := by
  have hStart : Follows source.toList { rest := source.toList } := ⟨rfl, Nat.zero_le _, rfl⟩
  unfold ofSource
  dsimp only
  split
  · exact hStart.advance _
  · exact hStart

/-- The characters of the text from one offset up to another. -/
def slice (text : List Char) (start stop : Nat) : List Char := (text.take stop).drop start

theorem slice_append {text : List Char} {start middle stop : Nat} (h : start ≤ middle)
    (h' : middle ≤ stop) :
    slice text start stop = slice text start middle ++ slice text middle stop := by
  simp only [slice, List.drop_take]
  rw [show stop - start =
    (middle - start) + (stop - middle) by omega, List.take_add, List.drop_drop,
    Nat.add_sub_cancel' h]

/-- What a cursor reads is what lies between its offsets. -/
theorem slice_advance (h : Follows text cursor) (count : Nat) :
    slice text cursor.offset (cursor.advance count).offset = cursor.rest.take count := by
  rw [slice, List.drop_take, ← h.rest, take_advance]

/-- The token lies in the text from one offset up to another. -/
structure Spans (text : List Char) (start stop : Nat) (t : Token) : Prop where
  place : t.start = .within text start
  ending : t.endColumn = (Position.within text stop).column
  raw : t.raw.toList = slice text start stop

/-- What was read from one offset up to another is a token that lies there, or an error with its
place between the two and the token to go on with, if there is one, that lies there. -/
def SpansResult (text : List Char) (start stop : Nat) : Result → Prop
  | .ok t => Spans text start stop t
  | .error e =>
    (start ≤ e.place.offset ∧ e.place.offset ≤ stop ∧ e.place = .within text e.place.offset) ∧
      ∀ t, e.recovered = some t → Spans text start stop t

theorem spans_finish (kind : TokenKind) {start : Cursor} (hStart : Follows text start)
    (hStop : Follows text lexer.cursor) :
    Spans text start.offset lexer.offset (lexer.finish start kind).1 := by
  have hToken : Spans text start.offset lexer.offset
      { kind
        raw := String.ofList (start.rest.take (lexer.offset - start.offset))
        start := start.position
        endColumn := lexer.cursor.position.column
        newlineBefore := !kind.isTrivia && lexer.newlinePending } := by
    refine ⟨hStart.position, congrArg Position.column hStop.position, ?_⟩
    rw [String.toList_ofList, slice, List.drop_take, hStart.rest]
  unfold finish
  dsimp only
  split
  · exact hToken
  · exact hToken

/-- What was scanned at the cursor, of which there is enough, spans the characters that it takes. -/
theorem spans_read (h : Follows text lexer.cursor) {s : Scan}
    (hFits : s.length ≤ lexer.cursor.rest.length)
    (hPlace : ∀ {problem offset recovered}, s.scanned = .failure problem offset recovered →
      offset ≤ s.length) :
    SpansResult text lexer.offset (lexer.offset + s.length) (lexer.read s).1 := by
  have hStop : Follows text (lexer.consume s).cursor := h.advance s.length
  have hToken (kind : TokenKind) : Spans text lexer.offset (lexer.offset + s.length)
      ((lexer.consume s).finish lexer.cursor kind).1 := by
    rw [show lexer.offset + s.length = (lexer.consume s).offset from
      (offset_advance_of_le hFits).symm]
    exact spans_finish kind h hStop
  unfold read
  cases hScanned : s.scanned with
  | token kind => exact hToken kind
  | failure problem offset recovered =>
    have hWithin := hPlace hScanned
    have hOffset : (lexer.cursor.advance offset).offset = lexer.cursor.offset + offset :=
      offset_advance_of_le (Nat.le_trans hWithin hFits)
    have hError : lexer.cursor.offset ≤ (lexer.cursor.advance offset).offset ∧
        (lexer.cursor.advance offset).offset ≤ lexer.cursor.offset + s.length ∧
        (lexer.cursor.advance offset).position =
          .within text (lexer.cursor.advance offset).offset :=
      ⟨by omega, by omega, (h.advance offset).position⟩
    cases recovered with
    | none => exact ⟨hError, fun _ hNone => nomatch hNone⟩
    | some kind =>
      refine ⟨hError, ?_⟩
      rintro t ⟨⟩
      exact hToken kind

/-- The input ends with the result. -/
def isEndOfInput (result : Result) : Prop := ∃ t, result = .ok t ∧ t.kind = .endOfInput

/-- One step of the lexer: it passes over white space and then reads up to another place, further on
unless the text ends. -/
structure Proceeds (text : List Char) (lexer : Lexer) : Prop where
  follows : Follows text lexer.next.2.cursor
  skips : lexer.offset ≤ lexer.skipBlank.offset
  blank : ∀ c ∈ slice text lexer.offset lexer.skipBlank.offset, isSkipped c = true
  spans : SpansResult text lexer.skipBlank.offset lexer.next.2.offset lexer.next.1
  moves : lexer.skipBlank.offset < text.length ∧ lexer.skipBlank.offset < lexer.next.2.offset ∨
    isEndOfInput lexer.next.1 ∧ lexer.skipBlank.offset =
      text.length ∧ lexer.next.2.offset = text.length

/-- A cursor with nothing before it stands at the end of the text. -/
theorem Follows.offset_of_nil (h : Follows text cursor) (hNil : cursor.rest = []) :
    cursor.offset = text.length := by
  have hBound := h.bound
  have hLength := congrArg List.length (h.rest.symm.trans hNil)
  rw [List.length_drop, List.length_nil] at hLength
  omega

/-- From any place in the text. -/
theorem Follows.proceeds (h : Follows text lexer.cursor) : Proceeds text lexer := by
  have hBlank := h.skipBlank
  have hSkips : lexer.offset ≤ lexer.skipBlank.offset := by
    show lexer.cursor.offset ≤ (lexer.cursor.advance _).offset
    rw [Cursor.offset_advance]
    exact Nat.le_add_right _ _
  have hGap : ∀ c ∈ slice text lexer.offset lexer.skipBlank.offset, isSkipped c = true := by
    have hSlice :
        slice text lexer.offset lexer.skipBlank.offset = lexer.cursor.rest.takeWhile isSkipped :=
      (slice_advance h _).trans (List.prefix_iff_eq_take.mp (List.takeWhile_prefix _)).symm
    rw [hSlice]
    exact fun c hc => List.all_eq_true.mp List.all_takeWhile c hc
  cases hRest : lexer.skipBlank.cursor.rest with
  | nil =>
    have hEnd : lexer.skipBlank.offset = text.length := hBlank.offset_of_nil hRest
    have hCursor : (lexer.skipBlank.finish lexer.skipBlank.cursor .endOfInput).2.cursor =
        lexer.skipBlank.cursor := cursor_finish ..
    have hStop : (lexer.skipBlank.finish lexer.skipBlank.cursor .endOfInput).2.offset =
        lexer.skipBlank.offset := congrArg Cursor.offset hCursor
    have hNext := next_of_nil hRest
    refine ⟨?_, hSkips, hGap, ?_, ?_⟩
    · rw [hNext, hCursor]
      exact hBlank
    · rw [hNext, hStop]
      exact spans_finish .endOfInput hBlank hBlank
    · rw [hNext, hStop]
      exact .inr ⟨⟨_, rfl, rfl⟩, hEnd, hEnd⟩
  | cons c rest =>
    have hNext := next_of_cons hRest
    have hFits : (scan lexer.skipBlank.regexAllowed lexer.skipBlank.templates c rest).length ≤
        lexer.skipBlank.cursor.rest.length := hRest ▸ scan_fits ..
    have hSome := length_scan lexer.skipBlank.regexAllowed lexer.skipBlank.templates c rest
    have hStop : lexer.next.2.offset = lexer.skipBlank.offset +
        (scan lexer.skipBlank.regexAllowed lexer.skipBlank.templates c rest).length := by
      rw [hNext, offset, cursor_read]
      exact offset_advance_of_le hFits
    have hLength : lexer.skipBlank.cursor.rest.length = text.length - lexer.skipBlank.offset := by
      rw [hBlank.rest, List.length_drop]
      rfl
    refine ⟨?_, hSkips, hGap, ?_, .inl ⟨by omega, by omega⟩⟩
    · rw [hNext, cursor_read]
      exact hBlank.advance _
    · rw [hStop, hNext]
      exact spans_read hBlank hFits (scan_failure _ _)

/-- Blanks are skipped before the token. -/
theorem skipBlank_le_next (h : Follows text lexer.cursor) :
    lexer.skipBlank.offset ≤ lexer.next.2.offset := by
  rcases h.proceeds.moves with ⟨-, hLess⟩ | ⟨-, hStart, hStop⟩
  · exact Nat.le_of_lt hLess
  · exact Nat.le_of_eq (hStart.trans hStop.symm)

/-- No token leads back. -/
theorem offset_le_next (h : Follows text lexer.cursor) : lexer.offset ≤ lexer.next.2.offset :=
  Nat.le_trans h.proceeds.skips (skipBlank_le_next h)

/-! ## Runs -/

/-- By induction on the steps. -/
theorem follows_after (source : String) (steps : Nat) :
    Follows source.toList (after source steps).cursor := by
  induction steps with
  | zero => exact follows_ofSource source
  | succ steps ih => exact ih.proceeds.follows

/-- Where the step after so many begins to read, past the white space. -/
def spanStart (source : String) (steps : Nat) : Nat := (after source steps).skipBlank.offset

/-- Where the step after so many ends. -/
def spanEnd (source : String) (steps : Nat) : Nat := (after source (steps + 1)).offset

/-- Before the first step the lexer has read nothing, or the line that names an interpreter. -/
theorem slice_ofSource (source : String) :
    slice source.toList 0 (ofSource source).offset = [] ∨
      ['#', '!'] <+: source.toList ∧ slice source.toList 0 (ofSource source).offset =
        source.toList.takeWhile (!Text.isLineTerminator ·) := by
  have hStart : Follows source.toList { rest := source.toList } := ⟨rfl, Nat.zero_le _, rfl⟩
  unfold ofSource
  dsimp only
  split
  · next rest hLine =>
    exact .inr ⟨hLine ▸ ⟨rest, rfl⟩, (slice_advance hStart _).trans
      (List.prefix_iff_eq_take.mp (List.takeWhile_prefix _)).symm⟩
  · exact .inl rfl

/-- The lexer reads a source from its start to its end, without loss and with the right places. -/
structure Lossless (source : String) : Prop where
  /-- No step runs past the end. -/
  bounded : ∀ steps, (after source steps).offset ≤ source.length
  /-- Before the end, every step reads on. -/
  reads : ∀ steps, (after source steps).offset < source.length →
    (after source steps).offset < (after source (steps + 1)).offset
  /-- At the end, every step reads the end of input and stays. -/
  ends : ∀ steps, (after source steps).offset = source.length →
    isEndOfInput (resultAt source steps) ∧ (after source (steps + 1)).offset = source.length
  /-- One step more than there are characters is enough. -/
  terminates : ∃ steps ≤ source.length, isEndOfInput (resultAt source steps)
  /-- The steps read one stretch of the source after the other. -/
  ordered : ∀ steps, spanStart source steps ≤ spanEnd source steps ∧
    spanEnd source steps ≤ spanStart source (steps + 1)
  /-- Before the first stretch lies the line that names an interpreter, if there is one, and then
  white space. -/
  leading : ∃ line blank, slice source.toList 0 (spanStart source 0) = line ++ blank ∧
    (line = [] ∨ ['#', '!'] <+: source.toList ∧
      line = source.toList.takeWhile (!Text.isLineTerminator ·)) ∧
    ∀ c ∈ blank, isSkipped c = true
  /-- Between two stretches lies white space. -/
  between :
    ∀ steps, ∀ c ∈ slice source.toList (spanEnd source steps) (spanStart source (steps + 1)),
    isSkipped c = true
  /-- What a step reads has the text and the places of its stretch. -/
  spans : ∀ steps, SpansResult source.toList (spanStart source steps) (spanEnd source steps)
    (resultAt source steps)

/-- As long as the input has not ended, each step has read a character. -/
theorem steps_le_offset (source : String) (steps : Nat) :
    steps ≤ (after source steps).offset ∨ ∃ earlier < steps,
      isEndOfInput (resultAt source earlier) := by
  induction steps with
  | zero => exact .inl (Nat.zero_le _)
  | succ steps ih =>
    have hStep := (follows_after source steps).proceeds
    rcases ih with hOffset | ⟨earlier, hEarlier, hEnd⟩
    · rcases hStep.moves with ⟨-, hMoves⟩ | ⟨hEnd, -⟩
      · have hSkips := hStep.skips
        exact .inl (by show steps + 1 ≤ (after source steps).next.2.offset; omega)
      · exact .inr ⟨steps, Nat.lt_succ_self _, hEnd⟩
    · exact .inr ⟨earlier, Nat.lt_succ_of_lt hEarlier, hEnd⟩

/-- Every source is read without loss. -/
theorem lexing_lossless (source : String) : Lossless source := by
  have hLength : source.toList.length = source.length := String.length_toList
  have hFollows := follows_after source
  have hBound (steps : Nat) : (after source steps).offset ≤ source.length :=
    hLength ▸ (hFollows steps).bound
  have hStep (steps : Nat) := (hFollows steps).proceeds
  -- one part of the statement after the other, each from how the single steps proceed
  refine ⟨hBound, fun steps hBefore => ?_, fun steps hEnd => ?_, ?_, fun steps => ⟨?_, ?_⟩, ?_,
    fun steps => ?_, fun steps => (hStep steps).spans⟩
  · show _ < (after source steps).next.2.offset
    have hSkips := (hStep steps).skips
    rcases (hStep steps).moves with ⟨-, hMoves⟩ | ⟨-, -, hStop⟩
    · omega
    · omega
  · have hSkips := (hStep steps).skips
    rcases (hStep steps).moves with ⟨hInside, -⟩ | ⟨hEnds, -, hStop⟩
    · omega
    · exact ⟨hEnds, hStop.trans hLength⟩
  · rcases steps_le_offset source (source.length + 1) with hOffset | ⟨steps, hSteps, hEnd⟩
    · have hMost := hBound (source.length + 1)
      omega
    · exact ⟨steps, Nat.le_of_lt_succ hSteps, hEnd⟩
  · show (after source steps).skipBlank.offset ≤ (after source steps).next.2.offset
    rcases (hStep steps).moves with ⟨-, hMoves⟩ | ⟨-, hStart, hStop⟩
    · omega
    · omega
  · exact (hStep (steps + 1)).skips
  · exact ⟨_, _, slice_append (Nat.zero_le _) (hStep 0).skips, slice_ofSource source,
      (hStep 0).blank⟩
  · exact (hStep (steps + 1)).blank

end Lexer

end ScriptLint
