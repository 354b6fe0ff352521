import ScriptLint.Lexer.TokenStream

/-!
# The newline flag of tokens

A token says whether a line ended since the significant token before it. The lexer keeps that in a
flag, which white space, block comments and the text of templates raise and every significant token
lowers.

- `lineEndsWithin`: a line ends in a stretch of the source.
- `hasBareBreak`: a line ends in a text other than after a backslash.
- `Tracks`: the invariant of the lexer between two tokens. The flag is raised exactly if a line
  ended since the last significant token.
- `newlineBefore_exact`: the flag of every significant token. A template answers for the line ends
  in its own text too.
-/

namespace ScriptLint

/-! ## Line ends in texts -/

/-- Whether a line ends among the characters from one offset up to another. -/
def lineEndsWithin (text : List Char) (start stop : Nat) : Bool :=
  ((text.take stop).drop start).any Text.isLineTerminator

/-- Whether a line ends in the text other than right after a backslash. -/
def hasBareBreak : List Char → Bool
  | [] => false
  | '\x5c' :: _ :: rest => hasBareBreak rest
  | c :: rest => Text.isLineTerminator c || hasBareBreak rest

/-- A stretch of the source that is read on from where it stopped. -/
theorem lineEndsWithin_append {text : List Char} {start stop : Nat} (h : start ≤ stop)
    (hStop : stop ≤ text.length) (count : Nat) :
    lineEndsWithin text start (stop + count) =
      (lineEndsWithin text start stop || ((text.drop stop).take count).any
        Text.isLineTerminator) := by
  have hLength : start ≤ (text.take stop).length := by
    rw [List.length_take]
    omega
  rw [lineEndsWithin, List.take_add, List.drop_append_of_le_length hLength, List.any_append]
  rfl

theorem lineEndsWithin_self (text : List Char) (offset : Nat) :
    lineEndsWithin text offset offset = false := by
  have hNone : (text.take offset).drop offset = [] := by
    apply List.drop_eq_nil_of_le
    rw [List.length_take]
    omega
  rw [lineEndsWithin, hNone]
  rfl

/-- A character is bare unless it is a backslash in front of another one. -/
theorem hasBareBreak_cons {c : Char} {rest : List Char} (h : c = '\x5c' → rest = []) :
    hasBareBreak (c :: rest) = (Text.isLineTerminator c || hasBareBreak rest) := by
  by_cases hc : c = '\x5c'
  · rw [h hc, hc]
    rfl
  · rw [hasBareBreak]
    exact fun _ _ hEq => absurd hEq hc

/-! ## Cursors -/

namespace Cursor

/-- Reading on moves the offset by the characters that are there. -/
theorem offset_advance (cursor : Cursor) (count : Nat) :
    (cursor.advance count).offset = cursor.offset + min count cursor.rest.length := by
  have hStep (p : Position) (c : Char) (following : Option Char) :
      (step p c following).offset = p.offset + 1 := by
    unfold step
    split <;> rfl
  induction count generalizing cursor with
  | zero => simp [advance]
  | succ count ih =>
    rw [advance, ih]
    obtain ⟨rest, position⟩ := cursor
    cases rest with
    | nil => simp [next, offset]
    | cons c rest =>
      simp only [next, offset, hStep, List.length_cons]
      omega

end Cursor

namespace Lexer

/-! ## Scanners -/

theorem commentKind_isTrivia (body : List Char) : (commentKind body).isTrivia := by
  unfold commentKind
  dsimp only
  split <;> rfl

/-- The rest of a line has no line end in it. -/
theorem unbroken_takeWhile (cs : List Char) :
    (cs.take (cs.takeWhile (!Text.isLineTerminator ·)).length).any Text.isLineTerminator =
    false := by
  rw [← List.prefix_iff_eq_take.mp (List.takeWhile_prefix _), List.any_eq_false]
  intro c hc hBreak
  have hAll : (cs.takeWhile (!Text.isLineTerminator ·)).all (!Text.isLineTerminator ·) = true :=
    List.all_takeWhile
  have hc := List.all_eq_true.mp hAll c hc
  rw [hBreak] at hc
  cases hc

/-- A block comment notices the line ends that it takes in. -/
theorem commentBody_newline (cs : List Char) (s : CommentScan) :
    s.length ≤ (commentBody cs s).length ∧
      (commentBody cs s).newline = (s.newline ||
        (cs.take ((commentBody cs s).length - s.length)).any Text.isLineTerminator) := by
  fun_induction commentBody cs s with
  | case1 s => simp
  | case2 tail s => simp
  | case3 c rest s _ ih =>
    obtain ⟨hLength, hNewline⟩ := ih
    dsimp only at hLength hNewline
    refine ⟨by omega, hNewline.trans ?_⟩
    obtain ⟨n, hn⟩ := Nat.exists_eq_add_of_le hLength
    rw [hn, show s.length + 1 + n - (s.length + 1) = n by omega,
      show s.length + 1 + n - s.length = n + 1 by omega, List.take_succ_cons, List.any_cons,
      Bool.or_assoc]

/-- A block comment is closed where its closing mark stands. -/
theorem commentBody_closed (cs : List Char) (s : CommentScan) (h : s.closed = false) :
    (commentBody cs s).closed →
      ∃ tail, cs.drop ((commentBody cs s).length - s.length) = '*' :: '/' :: tail := by
  have hLength := (commentBody_newline cs s).1
  fun_induction commentBody cs s with
  | case1 s => exact fun hClosed => absurd hClosed (by rw [h]; exact Bool.false_ne_true)
  | case2 tail s => exact fun _ => ⟨tail, by rw [Nat.sub_self]; rfl⟩
  | case3 c rest s _ ih =>
    intro hClosed
    have hStep := (commentBody_newline rest
      { s with length := s.length + 1, newline := s.newline || Text.isLineTerminator c }).1
    obtain ⟨tail, hTail⟩ := ih h hStep hClosed
    obtain ⟨n, hn⟩ := Nat.exists_eq_add_of_le hStep
    refine ⟨tail, ?_⟩
    rw [hn] at hTail ⊢
    dsimp only at hTail ⊢
    rw [show s.length + 1 + n - (s.length + 1) = n by omega] at hTail
    rw [show s.length + 1 + n - s.length = n + 1 by omega, List.drop_succ_cons]
    exact hTail

/-- No hexadecimal digit ends a line. -/
theorem unbroken_of_hexValue {c : Char} {digit : Nat} (h : Text.hexValue? c = some digit) :
    Text.isLineTerminator c = false := by
  cases hBreak : Text.isLineTerminator c with
  | false => rfl
  | true =>
    simp only [Text.isLineTerminator, Bool.or_eq_true, beq_iff_eq] at hBreak
    obtain ((rfl | rfl) | rfl) | rfl := hBreak <;> cases h

/-- The text of a template notices its bare line ends. -/
theorem templateBody_newline (cs : List Char) (s : TemplateScan) :
    s.length ≤ (templateBody cs s).length ∧
      (templateBody cs s).newline = (s.newline ||
        hasBareBreak (cs.take ((templateBody cs s).length - s.length))) := by
  fun_induction templateBody cs s with
  | case1 s => simp [hasBareBreak]
  | case2 tail s => simp [hasBareBreak, Text.isLineTerminator]
  | case3 tail s => simp [hasBareBreak, Text.isLineTerminator]
  | case4 c rest s ih =>
    obtain ⟨hLength, hNewline⟩ := ih
    dsimp only at hLength hNewline
    refine ⟨by omega, hNewline.trans ?_⟩
    obtain ⟨n, hn⟩ := Nat.exists_eq_add_of_le hLength
    rw [hn, show s.length + 2 + n - (s.length + 2) = n by omega,
      show s.length + 2 + n - s.length = n + 2 by omega, List.take_succ_cons, List.take_succ_cons,
      hasBareBreak]
  | case5 c rest s _ _ hEscape ih =>
    obtain ⟨hLength, hNewline⟩ := ih
    dsimp only at hLength hNewline
    refine ⟨by omega, hNewline.trans ?_⟩
    obtain ⟨n, hn⟩ := Nat.exists_eq_add_of_le hLength
    have hLast (hc : c = '\x5c') : rest.take n = [] := by
      cases rest with
      | nil => exact List.take_nil
      | cons d rest => exact (hEscape d rest hc rfl).elim
    rw [hn, show s.length + 1 + n - (s.length + 1) = n by omega,
      show s.length + 1 + n - s.length = n + 1 by omega, List.take_succ_cons,
      hasBareBreak_cons hLast, Bool.or_assoc]

/-- No line ends inside hexadecimal digits. -/
theorem hexDigits_unbroken (count code : Nat) (cs : List Char) :
    (cs.take (hexDigits count code cs).length).any Text.isLineTerminator = false := by
  fun_induction hexDigits count code cs with
  | case1 => rfl
  | case2 => rfl
  | case3 => rfl
  | case4 code count c rest digit hc decoded ih =>
    rw [List.take_succ_cons, List.any_cons, ih, Bool.or_false]
    exact unbroken_of_hexValue hc

/-- Nor inside digits in braces. -/
theorem bracedDigits_unbroken (code : Nat) (any : Bool) (cs : List Char) :
    (cs.take (bracedDigits code any cs).length).any Text.isLineTerminator = false := by
  fun_induction bracedDigits code any cs with
  | case1 => rfl
  | case2 code any c rest digit hc hFits decoded ih =>
    rw [List.take_succ_cons, List.any_cons, ih, Bool.or_false]
    exact unbroken_of_hexValue hc
  | case3 => rfl
  | case4 code any c rest hc hEnd =>
    simp only [Bool.and_eq_true, beq_iff_eq] at hEnd
    rw [hEnd.2]
    rfl
  | case5 => rfl

/-- An escape in a name takes in no line end. -/
theorem nameEscape_unbroken (cs : List Char) :
    (cs.take (nameEscape cs).length).any Text.isLineTerminator = false := by
  unfold nameEscape
  split
  · dsimp only
    rw [List.take_succ_cons, List.any_cons]
    unfold unicodeEscape
    split
    · dsimp only
      rw [List.take_succ_cons, List.any_cons, bracedDigits_unbroken]
      rfl
    · rw [hexDigits_unbroken]
      rfl
  · rfl

/-- A word only grows. -/
theorem wordBody_name (skip : Nat) (cs : List Char) (s : WordScan) (h : s.name ≠ "") :
    (wordBody skip cs s).name ≠ "" := by
  fun_induction wordBody skip cs s with
  | case1 => exact h
  | case2 _ _ _ _ ih => exact ih h
  | case3 _ _ _ _ _ _ _ _ ih => exact ih String.push_ne_empty
  | case4 => exact h
  | case5 _ _ _ _ _ ih => exact ih String.push_ne_empty
  | case6 => exact h

/-- A word that stands for no name is a malformed escape, which takes in no line end. -/
theorem wordBody_unbroken {c : Char} {rest : List Char} (hc : isNameStart c || c == '\x5c')
    (h : (wordBody 0 (c :: rest) {}).name = "") :
    ((c :: rest).take (wordBody 0 (c :: rest) {}).length).any Text.isLineTerminator = false := by
  have hPush (skip : Nat) (cs : List Char) (s : WordScan) (d : Char)
    (hs : s.name = String.push "" d) :
      (wordBody skip cs s).name ≠ "" :=
    wordBody_name skip cs s (hs ▸ String.push_ne_empty)
  unfold wordBody at h ⊢
  by_cases hEscape : (c == '\x5c') = true
  · rw [if_pos hEscape] at h ⊢
    dsimp only at h ⊢
    split at h
    · exact absurd h (hPush _ _ _ _ rfl)
    · dsimp only
      rw [Nat.zero_add, Nat.add_comm, List.take_succ_cons, List.any_cons, nameEscape_unbroken,
        beq_iff_eq.mp hEscape]
      rfl
  · have hPart : isNamePart c := by
      have hStart : isNameStart c := by simpa [hEscape] using hc
      rw [isNamePart, hStart]
      rfl
    rw [if_neg hEscape, if_pos hPart] at h
    exact absurd h (hPush _ _ _ _ rfl)

/-! ## Scanned tokens -/

/-- The kind of the token that counts for the parser. -/
def Scan.significant? (s : Scan) : Option TokenKind :=
  match s.scanned with
  | .token kind => if kind.isTrivia then none else some kind
  | .failure _ _ recovered => recovered

/-- Whether the kind is a piece of a template. -/
def isTemplate : TokenKind → Bool
  | .template _ _ => true
  | _ => false

/-- A scan over the characters notices the line ends that it takes in, if it is passed over, and
otherwise only those in the text of a template. What takes the place of malformed text counts. -/
structure Scan.Notices (s : Scan) (cs : List Char) : Prop where
  newline : s.newline = match s.significant? with
    | none => (cs.take s.length).any Text.isLineTerminator
    | some kind => isTemplate kind && hasBareBreak (cs.take s.length)
  counts : ∀ kind, s.significant? = some kind → kind.isTrivia = false

/-- A token that is no template and takes no notice of line ends. -/
theorem Scan.Notices.plain {s : Scan} {cs : List Char} {kind : TokenKind}
    (hNewline : s.newline = false)
    (hKind : s.significant? = some kind) (hTemplate : isTemplate kind = false)
    (hTrivia : kind.isTrivia = false) : s.Notices cs := by
  constructor
  · rw [hKind, hNewline]
    dsimp only
    rw [hTemplate]
    rfl
  · rw [hKind]
    exact fun _ h => Option.some.inj h ▸ hTrivia

/-- Text that is passed over. -/
theorem Scan.Notices.passed {s : Scan} {cs : List Char} (hKind : s.significant? = none)
    (hNewline : s.newline = (cs.take s.length).any Text.isLineTerminator) : s.Notices cs := by
  constructor
  · rw [hKind]
    exact hNewline
  · rw [hKind]
    exact fun _ h => nomatch h

/-- A line comment is passed and ends no line. -/
theorem scanLineComment_notices (templates : List Nat) (body : List Char) :
    (scanLineComment templates body).Notices ('/' :: '/' :: body) := by
  refine .passed (if_pos (commentKind_isTrivia _)) ?_
  show false = (List.take (_ + 2) ('/' :: '/' :: body)).any _
  rw [List.take_succ_cons, List.take_succ_cons, List.any_cons, List.any_cons, unbroken_takeWhile]
  rfl

/-- A block comment is passed, and notices the lines that end in it. -/
theorem scanBlockComment_notices (templates : List Nat) (body : List Char) :
    (scanBlockComment templates body).Notices ('/' :: '*' :: body) := by
  have hBody := (commentBody_newline body {}).2
  rw [Bool.false_or, Nat.sub_zero] at hBody
  unfold scanBlockComment
  dsimp only
  split
  · next hClosed =>
    -- the star and slash at the end do not end a line
    obtain ⟨tail, hTail⟩ := commentBody_closed body {} rfl hClosed
    rw [Nat.sub_zero] at hTail
    have hTrivia := commentKind_isTrivia (body.take (commentBody body {}).length)
    refine .passed (if_pos hTrivia) ?_
    dsimp only
    rw [List.take_succ_cons, List.take_succ_cons, List.take_add, hTail, List.any_cons,
      List.any_cons, List.any_append, ← hBody]
    simp [Text.isLineTerminator]
  · refine .passed rfl ?_
    dsimp only
    rw [List.take_succ_cons, List.take_succ_cons, List.any_cons, List.any_cons, ← hBody]
    rfl

/-- A regular expression counts. -/
theorem scanRegexp_notices (templates : List Nat) (body cs : List Char) :
    (scanRegexp templates body).Notices cs := by
  unfold scanRegexp
  dsimp only
  split
  · exact .plain rfl rfl rfl rfl
  · exact .plain rfl rfl rfl rfl

/-- A part of a template counts, and notices its own lines. -/
theorem scanTemplate_notices (templates : List Nat) (closed opened : TemplatePart) {c : Char}
    (hc : c = '\x60' ∨ c = '\x7d') (body : List Char) :
    (scanTemplate templates closed opened body).Notices (c :: body) := by
  obtain ⟨hLength, hBody⟩ := templateBody_newline body {}
  obtain ⟨n, hn⟩ := Nat.exists_eq_add_of_le hLength
  dsimp only at hn
  have hBreak : hasBareBreak ((c :: body).take (templateBody body {}).length) =
      (templateBody body {}).newline := by
    rw [hBody, hn, Nat.add_comm 1 n, List.take_succ_cons, hasBareBreak_cons]
    · rcases hc with rfl | rfl <;> simp [Text.isLineTerminator]
    · rcases hc with rfl | rfl <;> intro h <;> cases h
  unfold scanTemplate
  dsimp only
  split <;> exact ⟨hBreak.symm, fun _ h => Option.some.inj h ▸ rfl⟩

/-- A string counts. -/
theorem scanString_notices (templates : List Nat) (quote : Char) (body cs : List Char) :
    (scanString templates quote body).Notices cs := by
  unfold scanString
  dsimp only
  split
  · exact .plain rfl rfl rfl rfl
  · split
    · exact .plain rfl rfl rfl rfl
    · exact .plain rfl rfl rfl rfl

/-- A number counts. -/
theorem scanNumeric_notices (templates : List Nat) (body cs : List Char) :
    (scanNumeric templates body).Notices cs := by
  unfold scanNumeric
  dsimp only
  split
  · exact .plain rfl rfl rfl rfl
  · exact .plain rfl rfl rfl rfl

/-- A word is neither a template nor trivia. -/
theorem isTemplate_wordKind (s : WordScan) :
    isTemplate s.kind = false ∧ s.kind.isTrivia = false := by
  unfold WordScan.kind
  split
  · split <;> exact ⟨rfl, rfl⟩
  · exact ⟨rfl, rfl⟩

/-- A word counts. -/
theorem scanWord_notices (templates : List Nat) {c : Char} (hc : isNameStart c || c == '\x5c')
    (rest : List Char) : (scanWord templates (c :: rest)).Notices (c :: rest) := by
  unfold scanWord
  dsimp only
  split
  · by_cases hName : (wordBody 0 (c :: rest) {}).name.isEmpty
    · rw [if_pos hName]
      exact .passed rfl (wordBody_unbroken hc (String.isEmpty_iff.mp hName)).symm
    · rw [if_neg hName]
      exact .plain rfl rfl rfl rfl
  · obtain ⟨hTemplate, hTrivia⟩ := isTemplate_wordKind (wordBody 0 (c :: rest) {})
    exact .plain rfl (if_neg (Bool.eq_false_iff.mp hTrivia)) hTemplate hTrivia

/-- An operator counts, and a character that begins no token is passed. -/
theorem scanPunctuator_notices (templates : List Nat) {c : Char}
    (hc : Text.isLineTerminator c = false)
    (rest : List Char) : (scanPunctuator templates c (c :: rest)).Notices (c :: rest) := by
  unfold scanPunctuator
  split
  · exact .plain rfl rfl rfl rfl
  · refine .passed rfl ?_
    show false = ([c].any _)
    rw [List.any_cons, hc]
    rfl

/-- Whatever starts with a character that does not end a line. -/
theorem scan_notices (regexAllowed : Bool) (templates : List Nat) {c : Char}
    (hc : Text.isLineTerminator c = false) (rest : List Char) :
    (scan regexAllowed templates c rest).Notices (c :: rest) := by
  -- a comment begins with the slash and the character behind it
  have hSecond {d : Char} (h : (c == '/' && rest.head? == some d) = true) :
      c :: rest = '/' :: d :: rest.drop 1 := by
    simp only [Bool.and_eq_true, beq_iff_eq] at h
    obtain ⟨rfl, hHead⟩ := h
    cases rest with
    | nil => cases hHead
    | cons e rest =>
      obtain rfl := Option.some.inj hHead
      rfl
  unfold scan
  split
  · next h =>
    rw [hSecond h]
    exact scanLineComment_notices templates _
  split
  · next h =>
    rw [hSecond h]
    exact scanBlockComment_notices templates _
  split
  · exact scanRegexp_notices templates _ _
  split
  · next h => exact scanTemplate_notices templates _ _ (.inl (beq_iff_eq.mp h)) rest
  split
  · next h =>
    simp only [Bool.and_eq_true, beq_iff_eq] at h
    exact scanTemplate_notices _ _ _ (.inr h.1) rest
  split
  · exact scanString_notices templates _ _ _
  split
  · exact scanNumeric_notices templates _ _
  split
  · next h => exact scanWord_notices templates h rest
  · exact scanPunctuator_notices templates hc rest

/-! ## Reading token after token -/

/-- The lexer reads `text` and has its flag raised exactly if a line ended since the offset
`last`. -/
structure Tracks (text : List Char) (last : Nat) (lexer : Lexer) : Prop where
  rest : lexer.cursor.rest = text.drop lexer.offset
  bound : lexer.offset ≤ text.length
  after : last ≤ lexer.offset
  pending : lexer.newlinePending = lineEndsWithin text last lexer.offset

variable {text : List Char} {last : Nat} {lexer : Lexer}

/-- Where a cursor gets to, in terms of the text that it reads. -/
theorem advance_rest {cursor : Cursor} (hRest : cursor.rest = text.drop cursor.offset)
    (hBound : cursor.offset ≤ text.length) (count : Nat) :
    (cursor.advance count).rest = text.drop (cursor.advance count).offset ∧
      (cursor.advance count).offset ≤ text.length := by
  have hLength : cursor.rest.length = text.length - cursor.offset := by rw [hRest, List.length_drop]
  rw [Cursor.rest_advance, Cursor.offset_advance, hLength, hRest, List.drop_drop]
  refine ⟨?_, by omega⟩
  rcases Nat.le_total count (text.length - cursor.offset) with h | h
  · rw [Nat.min_eq_left h]
  · rw [Nat.min_eq_right h, List.drop_eq_nil_of_le (by omega), List.drop_eq_nil_of_le (by omega)]

/-- The text a cursor has passed. -/
theorem take_advance (cursor : Cursor) (count : Nat) :
    cursor.rest.take ((cursor.advance count).offset - cursor.offset) = cursor.rest.take count := by
  rw [List.take_eq_take_iff, Cursor.offset_advance]
  omega

/-- Reading on keeps track if the flag takes in the line ends that are read. -/
theorem Tracks.advance (h : Tracks text last lexer) (count : Nat) {newline : Bool}
    {regexAllowed : Bool} {templates : List Nat}
    (hNewline : newline = (lexer.cursor.rest.take count).any Text.isLineTerminator) :
    Tracks text last {
      cursor := lexer.cursor.advance count
      newlinePending := lexer.newlinePending || newline
      regexAllowed, templates } := by
  obtain ⟨hRest, hBound⟩ := advance_rest h.rest h.bound count
  obtain ⟨moved, hMoved⟩ : ∃ moved, (lexer.cursor.advance count).offset = lexer.offset + moved :=
    ⟨_, lexer.cursor.offset_advance count⟩
  have hTake := take_advance lexer.cursor count
  rw [hMoved, show lexer.offset + moved - lexer.cursor.offset =
    moved from Nat.add_sub_cancel_left ..] at hTake
  refine ⟨hRest, hBound, ?_, ?_⟩
  · show last ≤ (lexer.cursor.advance count).offset
    have hAfter := h.after
    omega
  · show (lexer.newlinePending || newline) =
      lineEndsWithin text last (lexer.cursor.advance count).offset
    rw [hMoved, lineEndsWithin_append h.after h.bound, h.pending, hNewline, ← hTake, h.rest]

theorem Tracks.skipBlank (h : Tracks text last lexer) : Tracks text last lexer.skipBlank := by
  refine h.advance _ ?_
  rw [← List.prefix_iff_eq_take.mp (List.takeWhile_prefix _)]

/-- What is left behind a run. -/
theorem drop_takeWhile (p : Char → Bool) (cs : List Char) :
    cs.drop (cs.takeWhile p).length = cs.dropWhile p := by
  induction cs with
  | nil => rfl
  | cons c rest ih =>
    by_cases hc : p c
    · rw [List.takeWhile_cons_of_pos hc, List.dropWhile_cons_of_pos hc]
      exact ih
    · rw [List.takeWhile_cons_of_neg hc, List.dropWhile_cons_of_neg hc]
      rfl

/-- Skipping blanks drops them. -/
theorem rest_skipBlank (lexer : Lexer) :
    lexer.skipBlank.cursor.rest = lexer.cursor.rest.dropWhile isSkipped := by
  show (lexer.cursor.advance _).rest = _
  rw [Cursor.rest_advance, drop_takeWhile]

/-- After white space comes no line end. -/
theorem unbroken_of_skipBlank {c : Char} {rest : List Char}
    (h : lexer.skipBlank.cursor.rest = c :: rest) : Text.isLineTerminator c = false := by
  have hHead := List.head?_dropWhile_not isSkipped lexer.cursor.rest
  rw [← rest_skipBlank, h] at hHead
  have hSkipped : (Text.isLineTerminator c || Text.isBlank c || c == '\ufeff') = false := hHead
  simp only [Bool.or_eq_false_iff] at hSkipped
  exact hSkipped.1.1

/-- A token that counts takes the flag and lowers it. -/
theorem Tracks.finish (lexer : Lexer) (start : Cursor) {kind : TokenKind}
    (hKind : kind.isTrivia = false)
    (hRest : lexer.cursor.rest = text.drop lexer.offset) (hBound : lexer.offset ≤ text.length)
    (hStart : start.rest = text.drop start.offset) (hBefore : start.offset ≤ lexer.offset) :
    let (t, after) := lexer.finish start kind
    Tracks text (t.offset + t.raw.length) after ∧ t.offset = start.offset ∧ t.kind = kind ∧
      t.raw.toList = start.rest.take (lexer.offset - start.offset) ∧
      t.newlineBefore = lexer.newlinePending := by
  have hLength : (String.ofList (start.rest.take (lexer.offset - start.offset))).length =
      lexer.offset - start.offset := by
    rw [String.length_ofList, List.length_take, hStart, List.length_drop]
    omega
  unfold Lexer.finish
  rw [hKind]
  dsimp only
  rw [if_neg Bool.false_ne_true]
  dsimp only
  have hEnd : start.offset + (lexer.offset - start.offset) = lexer.offset := by omega
  refine ⟨⟨hRest, hBound, ?_, ?_⟩, rfl, rfl, String.toList_ofList, rfl⟩
  · show start.offset + _ ≤ lexer.offset
    rewrite [hLength, hEnd]
    exact Nat.le_refl _
  · show false = lineEndsWithin text (start.offset + _) lexer.offset
    rw [hLength, hEnd, lineEndsWithin_self]

/-- What a step of the lexer says about a token that counts. -/
structure Answers (text : List Char) (last : Nat) (t : Token) (after : Lexer) : Prop where
  tracks : Tracks text (t.offset + t.raw.length) after
  newline : t.newlineBefore =
    (lineEndsWithin text last t.offset || (isTemplate t.kind && hasBareBreak t.raw.toList))

/-- A step of the lexer keeps track, and a token that counts has the flag that the text asks for. -/
def KeepsTrack (text : List Char) (last : Nat) (step : Result × Lexer) : Prop :=
  match significant? step.1 with
  | some t => Answers text last t step.2
  | none => Tracks text last step.2

/-- A finished token has the kind it was scanned with. -/
theorem kind_finish (lexer : Lexer) (start : Cursor) (kind : TokenKind) :
    (lexer.finish start kind).1.kind = kind := by
  unfold Lexer.finish
  dsimp only
  split <;> rfl

/-- A finished token counts unless it is trivia. -/
theorem significant_finish {kind : TokenKind} (h : kind.isTrivia = false) (lexer : Lexer)
    (start : Cursor) :
    significant? (.ok (lexer.finish start kind).1) = some (lexer.finish start kind).1 := by
  refine if_neg ?_
  rw [Token.isTrivia, kind_finish, h]
  exact Bool.false_ne_true

/-- A token of a kind that counts, read from the place where white space ended. -/
theorem Tracks.consume (h : Tracks text last lexer) {s : Scan} {kind : TokenKind}
    (hKind : kind.isTrivia = false)
    (hNewline : s.newline = (isTemplate kind && hasBareBreak (lexer.cursor.rest.take s.length))) :
    let (t, after) := (lexer.consume s).finish lexer.cursor kind
    Answers text last t after := by
  obtain ⟨hRest, hBound⟩ := advance_rest h.rest h.bound s.length
  have hBefore : lexer.cursor.offset ≤ (lexer.cursor.advance s.length).offset := by
    rw [Cursor.offset_advance]
    omega
  obtain ⟨hTracks, hOffset, hSame, hRaw, hFlag⟩ :=
    Tracks.finish (lexer.consume s) lexer.cursor hKind hRest hBound h.rest hBefore
  refine ⟨hTracks, ?_⟩
  rw [hFlag, hOffset, hSame, hRaw]
  show (lexer.newlinePending || s.newline) = _
  rw [h.pending, hNewline]
  show _ = (_ || (_ && hasBareBreak
    (lexer.cursor.rest.take ((lexer.cursor.advance s.length).offset - lexer.cursor.offset))))
  rw [take_advance]
  rfl

/-- The flag is kept in step by a token that is read. -/
theorem Tracks.read (h : Tracks text last lexer) {s : Scan} (hs : s.Notices lexer.cursor.rest) :
    KeepsTrack text last (lexer.read s) := by
  have hNewline := hs.newline
  have hCounts := hs.counts
  unfold Lexer.read
  unfold Scan.significant? at hNewline hCounts
  -- what is passed adds to the line ends seen, what counts starts anew
  cases hScanned : s.scanned with
  | token kind =>
    rw [hScanned] at hNewline
    cases hTrivia : kind.isTrivia with
    | true =>
      have hPassed : significant? (.ok ((lexer.consume s).finish lexer.cursor kind).1) = none := by
        refine if_pos ?_
        rw [Token.isTrivia, kind_finish, hTrivia]
      have hAfter : ((lexer.consume s).finish lexer.cursor kind).2 = lexer.consume s := by
        rw [Lexer.finish, if_pos hTrivia]
      simp only [hTrivia, if_true] at hNewline
      unfold KeepsTrack
      dsimp only
      rw [hPassed, hAfter]
      exact h.advance s.length hNewline
    | false =>
      simp only [hTrivia, if_false, Bool.false_eq_true] at hNewline
      unfold KeepsTrack
      dsimp only
      rw [significant_finish hTrivia]
      exact h.consume hTrivia hNewline
  | failure problem offset recovered =>
    rw [hScanned] at hNewline hCounts
    cases recovered with
    | some kind => exact h.consume (hCounts kind rfl) hNewline
    | none => exact h.advance s.length hNewline

/-- One step of the lexer, from any state that keeps track. -/
theorem Tracks.next (h : Tracks text last lexer) : KeepsTrack text last lexer.next := by
  have hBlank := h.skipBlank
  unfold Lexer.next
  dsimp only
  cases hRest : lexer.skipBlank.cursor.rest with
  | nil =>
    have hCounts : TokenKind.endOfInput.isTrivia = false := rfl
    obtain ⟨hTracks, -⟩ := Tracks.finish lexer.skipBlank lexer.skipBlank.cursor hCounts
      hBlank.rest hBlank.bound hBlank.rest (Nat.le_refl _)
    refine ⟨hTracks, ?_⟩
    show lexer.skipBlank.newlinePending = (lineEndsWithin text last lexer.skipBlank.offset || false)
    rw [hBlank.pending, Bool.or_false]
  | cons c rest => exact hBlank.read (hRest ▸ scan_notices _ _ (unbroken_of_skipBlank hRest) rest)

/-- At the start nothing has ended a line. -/
theorem tracks_ofSource (source : String) : Tracks source.toList 0 (ofSource source) := by
  have hStart : Tracks source.toList 0 { cursor := { rest := source.toList } } :=
    ⟨rfl, Nat.zero_le _, Nat.le_refl _, (lineEndsWithin_self _ 0).symm⟩
  unfold ofSource
  dsimp only
  split
  · exact hStart.advance _ (unbroken_takeWhile _).symm
  · exact hStart

/-! ## Runs -/

/-- The lexer of a source after so many steps. -/
def after (source : String) : (steps : Nat) → Lexer
  | 0 => ofSource source
  | steps + 1 => (after source steps).next.2

/-- What the next step gives after so many. -/
def resultAt (source : String) (steps : Nat) : Result := (after source steps).next.1

/-- Where the last significant token of the first steps ended; the start of the source if there was
none. -/
def lastEnd (source : String) : (steps : Nat) → Nat
  | 0 => 0
  | steps + 1 =>
    match significant? (resultAt source steps) with
    | some t => t.offset + t.raw.length
    | none => lastEnd source steps

/-- By induction on the steps. -/
theorem tracks_after (source : String) (steps : Nat) :
    Tracks source.toList (lastEnd source steps) (after source steps) := by
  induction steps with
  | zero => exact tracks_ofSource source
  | succ steps ih =>
    have hNext := ih.next
    unfold KeepsTrack at hNext
    show Tracks _ _ (after source steps).next.2
    unfold lastEnd resultAt
    split at hNext
    · exact hNext.tracks
    · exact hNext

/-- The flag of every significant token: a line ended between the significant token before it and
its first character, or, in a template, within its own text and not after a backslash. -/
theorem newlineBefore_exact (source : String) (steps : Nat) (t : Token)
    (h : significant? (resultAt source steps) = some t) :
    t.newlineBefore = true ↔
      lineEndsWithin source.toList (lastEnd source steps) t.offset = true ∨
        (isTemplate t.kind = true ∧ hasBareBreak t.raw.toList = true) := by
  have hNext := (tracks_after source steps).next
  unfold KeepsTrack at hNext
  rw [show significant? (after source steps).next.1 = some t from h] at hNext
  rw [hNext.newline, Bool.or_eq_true, Bool.and_eq_true]

/-- A template on the line of the token before it: its flag is raised by its own text. -/
theorem newlineBefore_of_template : ∃ t, significant? (resultAt "x \x60a\nb\x60" 1) = some t ∧
    t.newlineBefore = true ∧
    lineEndsWithin "x \x60a\nb\x60".toList (lastEnd "x \x60a\nb\x60" 1) t.offset = false ∧
    isTemplate t.kind = true ∧ hasBareBreak t.raw.toList = true := by
  have hRead : (significant? (resultAt "x \x60a\nb\x60" 1)).any (fun t => t.newlineBefore &&
      !lineEndsWithin "x \x60a\nb\x60".toList (lastEnd "x \x60a\nb\x60" 1) t.offset) = true := by
    decide +kernel
  obtain ⟨t, ht, hFlag⟩ := Option.any_eq_true _ _ |>.mp hRead
  simp only [Bool.and_eq_true, Bool.not_eq_eq_eq_not, Bool.not_true] at hFlag
  refine ⟨t, ht, hFlag.1, hFlag.2, ?_⟩
  exact ((newlineBefore_exact _ _ t ht).mp hFlag.1).resolve_left (Bool.eq_false_iff.mp hFlag.2)

end Lexer

end ScriptLint
