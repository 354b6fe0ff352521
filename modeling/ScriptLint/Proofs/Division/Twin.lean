import ScriptLint.Proofs.Lexer.Stream

/-!
# Two sources that part at the end

Of two sources on one line, one ends with a semicolon and the other goes on with a division there.
Their lexers read the same results up to that place, unless a token reaches over it.

- `Twin`: lexers of the two sources with the same text before the place.
- `Twins`: besides, so many results are the same before the lexers part.
- `Twin.step`: one result of each, by where it ends.
- `Twins.leads`, `Twins.visits`: the next significant token and the answers of visits.
-/

namespace ScriptLint

/-! ## Cursors on one line -/

/-- Reading on within one line moves column and offset alike. -/
theorem Cursor.advance_unbroken {cursor : Cursor} {text tail : List Char}
    (hRest : cursor.rest = text ++ tail) (hText : ∀ c ∈ text, Text.isLineTerminator c = false)
    {count : Nat} (hCount : count ≤ text.length) :
    cursor.advance count = ⟨text.drop count ++ tail, ⟨cursor.position.line,
      cursor.position.column + count, cursor.position.offset + count⟩⟩ := by
  obtain ⟨rest, line, column, offset⟩ := cursor
  dsimp only at hRest ⊢
  subst hRest
  induction count generalizing text column offset with
  | zero => rfl
  | succ count ih =>
    cases text with
    | nil => cases hCount
    | cons c text =>
      have hc := hText c (List.mem_cons_self ..)
      have hStep (following : Option Char) : step ⟨line, column, offset⟩ c following =
          ⟨line, column + 1, offset + 1⟩ := by
        unfold step
        rw [hc]
        rfl
      have hTail := ih (fun d hd => hText d (List.mem_cons_of_mem c hd))
        (Nat.le_of_succ_le_succ hCount) (column + 1) (offset + 1)
      show Cursor.advance ⟨text ++ tail, step ⟨line, column, offset⟩ c _⟩ count = _
      rw [hStep, hTail, Nat.add_assoc column, Nat.add_assoc offset, Nat.add_comm 1]
      rfl

namespace Lexer

/-- What the longer source has in the place of the semicolon. -/
def division : List Char := [' ', '/', ' ', 'y', ';']

/-- The lexer with another text to read. -/
def withRest (l : Lexer) (rest : List Char) : Lexer := { l with cursor := { l.cursor with rest } }

/-- Lexers that differ only in what stands from the offset `stop` on. -/
structure Twin (stop : Nat) (text : List Char) (l l' : Lexer) : Prop where
  rest : l.cursor.rest = text ++ [';']
  other : l' = l.withRest (text ++ division)
  unbroken : ∀ c ∈ text, Text.isLineTerminator c = false
  line : l.cursor.position.line = 1
  offset : l.cursor.position.offset + text.length = stop
  pending : l.newlinePending = false

/-- A place in what the longer source has there. -/
def Trailing (l : Lexer) : Prop := l.cursor.rest <:+ division

/-- A token that is no comment and no directive counts. -/
theorem significant_of_kind {r : Result} {t : Token} {kind : TokenKind} (hr : r = .ok t)
    (hKind : t.kind = kind) (hCounts : kind.isTrivia = false) : significant? r = some t := by
  rw [hr, significant?, Token.isTrivia, hKind, hCounts]
  rfl

/-- A result that is no operator or delimiter but a semicolon or a division. -/
def Plain (r : Result) : Prop :=
  ∀ t p, significant? r = some t → t.kind = .punctuator p → p = .semicolon ∨ p = .divide

/-- Behind the common text the two sources differ in any way they like. -/
theorem alike_twin (text : List Char) :
    Alike false text.length (text ++ [';']) (text ++ division) := by
  induction text with
  | nil => exact .gap rfl rfl _ _
  | cons c text ih => exact .cons c ih

/-- The division of the longer source, where a slash divides. -/
theorem scan_division (templates : List Nat) :
    scan false templates '/' [' ', 'y', ';'] =
      { length := 1, scanned := .token (.punctuator .divide), templates } := by
  have hFound : longestPunctuator? ['/', ' ', 'y', ';'] = some .divide := by decide +kernel
  have hName : isNameStart '/' = false := by decide +kernel
  have hScan : scan false templates '/' [' ', 'y', ';'] =
      scanPunctuator templates '/' ['/', ' ', 'y', ';'] := by
    unfold scan
    rw [hName]
    rfl
  rw [hScan, scanPunctuator, hFound]
  cases templates <;> rfl

/-- The divisor of the longer source. -/
theorem scan_divisor (regexAllowed : Bool) (templates : List Nat) (rest : List Char) :
    scan regexAllowed templates 'y' rest = scanWord templates ('y' :: rest) := by
  have hName : isNameStart 'y' = true := by decide +kernel
  unfold scan
  rw [hName]
  rfl

/-- A semicolon is one wherever it stands. -/
theorem scan_semicolon (regexAllowed : Bool) (templates : List Nat) (rest : List Char) :
    scan regexAllowed templates ';' rest =
      { length := 1, scanned := .token (.punctuator .semicolon), templates } := by
  have hOnly {p : Punctuator} (hp : p.spelling.toList.head? = some ';') : p = .semicolon := by
    revert hp
    cases p <;> decide
  have hSome : (Punctuator.all.find? (·.spelling.toList.isPrefixOf (';' :: rest))).isSome :=
    List.find?_isSome.mpr ⟨.semicolon, by decide, rfl⟩
  obtain ⟨p, hp⟩ := Option.isSome_iff_exists.mp hSome
  obtain rfl := hOnly (head_spelling_of_find hp)
  have hFound : longestPunctuator? (';' :: rest) = some .semicolon := by
    rw [longestPunctuator?, hp]
  have hScan :
      scan regexAllowed templates ';' rest = scanPunctuator templates ';' (';' :: rest) := by
    unfold scan
    rw [(@isNameStart_fails false).semicolon]
    rfl
  rw [hScan, scanPunctuator, hFound]
  cases templates <;> rfl

/-! ## One result of each -/

/-- White space on one line is skipped up to the first other character. -/
theorem skipBlank_run {l : Lexer} {run tail : List Char} {c : Char}
    (hRest : l.cursor.rest = run ++ c :: tail) (hRun : ∀ d ∈ run, isSkipped d)
    (hUnbroken : ∀ d ∈ run, Text.isLineTerminator d = false) (hc : isSkipped c = false) :
    l.skipBlank = { l with cursor := ⟨c :: tail, ⟨l.cursor.position.line,
      l.cursor.position.column + run.length, l.cursor.position.offset + run.length⟩⟩ } := by
  have hTake : l.cursor.rest.takeWhile isSkipped = run := by
    rw [hRest, List.takeWhile_append_of_pos hRun,
      List.takeWhile_cons_of_neg (by rw [hc]; exact Bool.false_ne_true), List.append_nil]
  have hPending : run.any Text.isLineTerminator = false :=
    List.any_eq_false.mpr fun d hd => by rw [hUnbroken d hd]; exact Bool.false_ne_true
  unfold skipBlank
  dsimp only
  rw [hTake, hPending, Bool.or_false, Cursor.advance_unbroken hRest hUnbroken (Nat.le_refl _),
    List.drop_length]
  rfl

/-- White space is skipped at once. -/
theorem skipBlank_skipBlank (l : Lexer) : l.skipBlank.skipBlank = l.skipBlank := by
  have hNone : l.skipBlank.cursor.rest.takeWhile isSkipped = [] := by
    have hHead := List.head?_dropWhile_not isSkipped l.cursor.rest
    rw [rest_skipBlank]
    cases hRest : l.cursor.rest.dropWhile isSkipped with
    | nil => rfl
    | cons c rest =>
      rw [hRest] at hHead
      exact List.takeWhile_cons_of_neg (by rw [hHead]; exact Bool.false_ne_true)
  show ({ l.skipBlank with
    cursor := l.skipBlank.cursor.advance (l.skipBlank.cursor.rest.takeWhile isSkipped).length
    newlinePending := l.skipBlank.newlinePending ||
      (l.skipBlank.cursor.rest.takeWhile isSkipped).any Text.isLineTerminator } : Lexer) = _
  rw [hNone, List.any_nil, Bool.or_false]
  rfl

theorem next_skipBlank (l : Lexer) : l.skipBlank.next = l.next := by
  unfold next
  rw [skipBlank_skipBlank]

/-- The text after its white space, if there is something. -/
theorem exists_skipped {text : List Char} {c : Char} {rest : List Char}
    (h : text.dropWhile isSkipped = c :: rest) :
    ∃ run, text = run ++ c :: rest ∧ (∀ d ∈ run, isSkipped d) ∧ isSkipped c = false := by
  refine ⟨text.takeWhile isSkipped, ?_, fun d hd => ?_, ?_⟩
  · rw [← h, List.takeWhile_append_dropWhile]
  · exact List.all_eq_true.mp List.all_takeWhile d hd
  · have hHead := List.head?_dropWhile_not isSkipped text
    rw [h] at hHead
    exact hHead

variable {stop : Nat} {text : List Char} {l l' : Lexer}

/-- Blanks in the common text are skipped in both. -/
theorem Twin.skipBlank (h : Twin stop text l l') {c : Char} {rest : List Char}
    (hText : text.dropWhile isSkipped = c :: rest) :
    Twin stop (c :: rest) l.skipBlank l'.skipBlank := by
  obtain ⟨run, rfl, hRun, hc⟩ := exists_skipped hText
  obtain ⟨hRest, rfl, hUnbroken, hLine, hOffset, hPending⟩ := h
  have hBlank (d : Char) (hd : d ∈ run) := hUnbroken d (List.mem_append_left _ hd)
  have hHere : l.cursor.rest = run ++ c :: (rest ++ [';']) := by
    rw [hRest, List.append_assoc]
    rfl
  have hThere : (run ++ c :: rest) ++ division = run ++ c :: (rest ++ division) := by
    rw [List.append_assoc]
    rfl
  rw [skipBlank_run hHere hRun hBlank hc, skipBlank_run hThere hRun hBlank hc]
  refine ⟨rfl, rfl, fun d hd => hUnbroken d (List.mem_append_right _ hd), hLine, ?_, hPending⟩
  simp only [List.length_append, List.length_cons] at hOffset ⊢
  omega

/-- What a token that counts tells about the lexer before and after it. -/
structure Marks (l : Lexer) (s : Scan) (t : Token) (after : Lexer) : Prop where
  kind : s.significant? = some t.kind
  start : t.start = l.cursor.position
  regexAllowed : after.regexAllowed = !t.kind.endsValue
  pending : after.newlinePending = false

/-- A finished token bears the marks of its scan. -/
theorem marks_finish (l : Lexer) {s : Scan} {kind : TokenKind} (hs : s.significant? = some kind)
    (hKind : kind.isTrivia = false) :
    Marks l s ((l.consume s).finish l.cursor kind).1 ((l.consume s).finish l.cursor kind).2 := by
  unfold finish
  rw [hKind]
  exact ⟨hs, rfl, rfl, rfl⟩

/-- A token that is read bears the marks of its scan. -/
theorem read_token (l : Lexer) {s : Scan} {t : Token}
    (hCounts : ∀ kind, s.significant? = some kind → kind.isTrivia = false)
    (ht : significant? (l.read s).1 = some t) : Marks l s t (l.read s).2 := by
  unfold read at ht ⊢
  cases hScanned : s.scanned with
  | token kind =>
    rw [hScanned] at ht
    have hKind : kind.isTrivia = false := by
      have hToken := (Option.ite_none_left_eq_some.mp ht).1
      rw [Token.isTrivia, kind_finish] at hToken
      exact Bool.eq_false_iff.mpr hToken
    have hs : s.significant? = some kind := by
      rw [Scan.significant?, hScanned]
      exact if_neg (by rw [hKind]; exact Bool.false_ne_true)
    dsimp only at ht ⊢
    rw [significant_finish hKind] at ht
    obtain rfl := Option.some.inj ht
    exact marks_finish l hs hKind
  | failure problem offset recovered =>
    rw [hScanned] at ht
    cases recovered with
    | none => cases ht
    | some kind =>
      have hs : s.significant? = some kind := by
        rw [Scan.significant?, hScanned]
      obtain rfl := Option.some.inj ht
      exact marks_finish l hs (hCounts kind hs)

/-- What is passed over moves the cursor and nothing else. -/
theorem read_passed (l : Lexer) {s : Scan}
    (hNone : significant? (l.read s).1 = none) : (l.read s).2 = l.consume s := by
  unfold read at hNone ⊢
  cases hScanned : s.scanned with
  | token kind =>
    rw [hScanned] at hNone
    cases hKind : kind.isTrivia with
    | true =>
      dsimp only
      rw [finish, if_pos hKind]
    | false =>
      dsimp only at hNone
      rw [significant_finish hKind] at hNone
      cases hNone
  | failure problem offset recovered =>
    rw [hScanned] at hNone
    cases recovered with
    | none => rfl
    | some kind => cases hNone

/-- A scan inside the common text reads alike, whatever comes behind it. -/
theorem read_withRest {text tail tail' : List Char} (l : Lexer) {s : Scan}
    (hRest : l.cursor.rest = text ++ tail) (hUnbroken : ∀ d ∈ text, Text.isLineTerminator d = false)
    (hLength : s.length ≤ text.length)
    (hPlace : ∀ problem offset recovered, s.scanned = .failure problem offset recovered →
      offset ≤ s.length) :
    (l.withRest (text ++ tail')).read s =
      ((l.read s).1, (l.read s).2.withRest (text.drop s.length ++ tail')) := by
  have hAdvance {k : Nat} (hk : k ≤ text.length) := Cursor.advance_unbroken hRest hUnbroken hk
  have hAdvance' {k : Nat} (hk : k ≤ text.length) :
      (l.withRest (text ++ tail')).cursor.advance k = _ :=
    Cursor.advance_unbroken rfl hUnbroken hk
  -- consumption and finishing only look at the text up to the length of the scan
  have hConsume : (l.withRest (text ++ tail')).consume s =
      (l.consume s).withRest (text.drop s.length ++ tail') := by
    unfold consume
    rw [hAdvance hLength, hAdvance' hLength]
    rfl
  have hFinish (kind : TokenKind) :
      ((l.withRest (text ++ tail')).consume s).finish (l.withRest (text ++ tail')).cursor kind =
        (((l.consume s).finish l.cursor kind).1,
          ((l.consume s).finish l.cursor kind).2.withRest (text.drop s.length ++ tail')) := by
    have hMoved : (l.consume s).offset - l.cursor.offset = s.length := by
      show (l.cursor.advance s.length).position.offset - l.cursor.position.offset = _
      rw [hAdvance hLength]
      exact Nat.add_sub_cancel_left ..
    have hRaw : (text ++ tail').take ((l.consume s).offset - l.cursor.offset) =
        l.cursor.rest.take ((l.consume s).offset - l.cursor.offset) := by
      rw [hMoved, hRest, List.take_append_of_le_length hLength,
        List.take_append_of_le_length hLength]
    rw [hConsume]
    unfold finish
    show (if kind.isTrivia then (Token.mk kind (String.ofList ((text ++ tail').take _)) _ _ _, _)
      else (Token.mk kind (String.ofList ((text ++ tail').take _)) _ _ _, _)) = _
    rw [show ((l.consume s).withRest (text.drop s.length ++ tail')).offset =
      (l.consume s).offset from rfl,
      show (l.withRest (text ++ tail')).cursor.offset = l.cursor.offset from rfl, hRaw]
    split <;> rfl
  unfold read
  cases hScanned : s.scanned with
  | token kind =>
    dsimp only
    rw [hFinish]
  | failure problem offset recovered =>
    have hOffset : offset ≤ text.length := Nat.le_trans (hPlace _ _ _ hScanned) hLength
    dsimp only
    rw [hAdvance hOffset, hAdvance' hOffset]
    cases recovered with
    | none =>
      dsimp only
      rw [hConsume]
      rfl
    | some kind =>
      dsimp only
      rw [hFinish]
      rfl

/-- What is read inside the common text. -/
structure Inside (stop : Nat) (l : Lexer) (r : Result) (after : Lexer) : Prop where
  token : ∀ t, significant? r = some t → t.offset < stop ∧ t.line = 1 ∧
    after.regexAllowed = !t.kind.endsValue
  passed : significant? r = none → after.regexAllowed = l.regexAllowed

/-- What starts before the place, on the first line, is read inside the common text. -/
theorem inside_read {l : Lexer} {s : Scan} {stop : Nat}
    (hCounts : ∀ kind, s.significant? = some kind → kind.isTrivia = false)
    (hOffset : l.cursor.position.offset < stop) (hLine : l.cursor.position.line = 1) :
    Inside stop l (l.read s).1 (l.read s).2 := by
  constructor
  · intro t ht
    have hMarks := read_token l hCounts ht
    refine ⟨?_, ?_, hMarks.regexAllowed⟩
    · rw [Token.offset, hMarks.start]
      exact hOffset
    · rw [Token.line, hMarks.start, hLine]
  · intro hNone
    rw [read_passed l hNone]
    rfl

/-- A text without line breaks has none that is bare. -/
theorem hasBareBreak_unbroken {cs : List Char} (h : ∀ c ∈ cs, Text.isLineTerminator c = false) :
    hasBareBreak cs = false := by
  fun_induction hasBareBreak cs with
  | case1 => rfl
  | case2 c rest ih =>
    exact ih fun d hd => h d (List.mem_cons_of_mem _ (List.mem_cons_of_mem _ hd))
  | case3 c rest _ ih =>
    rw [h c (List.mem_cons_self ..), ih fun d hd => h d (List.mem_cons_of_mem _ hd)]
    rfl

/-- On one line nothing raises the newline flag. -/
theorem newline_of_unbroken {s : Scan} {cs : List Char} (hs : s.Notices cs)
    (h : ∀ c ∈ cs.take s.length, Text.isLineTerminator c = false) : s.newline = false := by
  rw [hs.newline]
  split
  · exact List.any_eq_false.mpr fun c hc => by rw [h c hc]; exact Bool.false_ne_true
  · rw [hasBareBreak_unbroken h, Bool.and_false]

/-- A token that ends in the common text is read by both lexers. -/
theorem Twin.read {c : Char} {rest : List Char} (h : Twin stop (c :: rest) l l')
    (hLength : (scan l.regexAllowed l.templates c (rest ++ [';'])).length ≤ rest.length + 1) :
    ∃ text', text'.length ≤ rest.length ∧
      (l'.read (scan l.regexAllowed l.templates c (rest ++ [';']))).1 =
        (l.read (scan l.regexAllowed l.templates c (rest ++ [';']))).1 ∧
      Twin stop text' (l.read (scan l.regexAllowed l.templates c (rest ++ [';']))).2
        (l'.read (scan l.regexAllowed l.templates c (rest ++ [';']))).2 ∧
      Inside stop l (l.read (scan l.regexAllowed l.templates c (rest ++ [';']))).1
        (l.read (scan l.regexAllowed l.templates c (rest ++ [';']))).2 := by
  obtain ⟨hRest, rfl, hUnbroken, hLine, hOffset, hPending⟩ := h
  have hNotices := scan_notices l.regexAllowed l.templates (hUnbroken c (List.mem_cons_self ..))
    (rest ++ [';'])
  have hPos := length_scan l.regexAllowed l.templates c (rest ++ [';'])
  have hPlace := @scan_failure (rest ++ [';']) l.regexAllowed l.templates c
  generalize scan l.regexAllowed l.templates c (rest ++ [';']) = s at hLength hNotices hPos hPlace ⊢
  have hFits : s.length ≤ (c :: rest).length := hLength
  -- no line break is crossed
  have hNewline : s.newline = false := by
    refine newline_of_unbroken hNotices fun d hd => hUnbroken d ?_
    rw [show c :: (rest ++ [';']) = (c :: rest) ++ [';'] from rfl,
      List.take_append_of_le_length hFits] at hd
    exact List.mem_of_mem_take hd
  have hRead : (l.withRest (c :: rest ++ division)).read s = _ :=
    read_withRest l hRest hUnbroken hFits fun _ _ _ => hPlace
  have hCursor := (cursor_read l s).trans (Cursor.advance_unbroken hRest hUnbroken hFits)
  have hAfter : (l.read s).2.newlinePending = false := by
    cases ht : significant? (l.read s).1 with
    | some t => exact (read_token l hNotices.counts ht).pending
    | none =>
      rw [read_passed l ht]
      show (l.newlinePending || s.newline) = false
      rw [hPending, hNewline]
      rfl
  refine ⟨(c :: rest).drop s.length, ?_, ?_, ?_, ?_⟩
  · rw [List.length_drop, List.length_cons]
    omega
  · rw [hRead]
  · rw [hRead]
    refine ⟨?_, rfl, fun d hd => hUnbroken d (List.mem_of_mem_drop hd), ?_, ?_, hAfter⟩
    · rw [hCursor]
    · rw [hCursor]
      exact hLine
    · rw [hCursor, List.length_drop]
      dsimp only
      simp only [List.length_cons] at hOffset ⊢
      omega
  · refine inside_read hNotices.counts ?_ hLine
    simp only [List.length_cons] at hOffset
    omega

/-! ## Past the common text -/

/-- What is left after a result is the end of what was left before. -/
theorem rest_next (l : Lexer) : l.next.2.cursor.rest <:+ l.cursor.rest := by
  have hSkip : l.skipBlank.cursor.rest <:+ l.cursor.rest := by
    rw [rest_skipBlank]
    exact List.dropWhile_suffix _
  cases hRest : l.skipBlank.cursor.rest with
  | nil =>
    rw [next_of_nil hRest, cursor_finish]
    exact hSkip
  | cons c rest =>
    rw [next_of_cons hRest, cursor_read, Cursor.rest_advance]
    exact (List.drop_suffix _ _).trans hSkip

/-- A result is plain if its token is no operator or delimiter. -/
theorem plain_read (l : Lexer) {s : Scan}
    (hCounts : ∀ kind, s.significant? = some kind → kind.isTrivia = false)
    (hs : s.isPunctuator = false) : Plain (l.read s).1 := by
  intro t p ht hp
  rw [Scan.isPunctuator, (read_token l hCounts ht).kind, hp] at hs
  cases hs

/-- A semicolon or a slash is plain. -/
theorem plain_of_kind (l : Lexer) {s : Scan} {p : Punctuator}
    (hs : s.scanned = .token (.punctuator p))
    (hp : p = .semicolon ∨ p = .divide) : Plain (l.read s).1 := by
  have hKind : s.significant? = some (.punctuator p) := by
    rw [Scan.significant?, hs]
    rfl
  intro t q ht hq
  have hMarks :=
    read_token l (fun kind hk => by rw [← Option.some.inj (hKind.symm.trans hk)]; rfl) ht
  have hSame := hKind.symm.trans hMarks.kind
  rw [hq] at hSame
  cases hSame
  exact hp

theorem plain_end {l : Lexer} (h : l.skipBlank.cursor.rest = []) : Plain l.next.1 := by
  rw [next_of_nil h]
  intro t p ht hp
  obtain rfl := Option.some.inj ht
  cases hp

/-- Where the longer source goes on there is no bracket and no arrow. -/
theorem Trailing.next (h : Trailing l) : Plain l.next.1 ∧ Trailing l.next.2 := by
  refine ⟨?_, (rest_next l).trans h⟩
  cases hRest : l.skipBlank.cursor.rest with
  | nil => exact plain_end hRest
  | cons c rest =>
    have hTail : c :: rest <:+ division := by
      rw [← hRest, rest_skipBlank]
      exact (List.dropWhile_suffix _).trans h
    have hc := unbroken_of_skipBlank hRest
    have hNotices := scan_notices l.skipBlank.regexAllowed l.skipBlank.templates hc rest
    have hSkipped : isSkipped c = false := by
      have hHead := List.head?_dropWhile_not isSkipped l.cursor.rest
      rw [← rest_skipBlank, hRest] at hHead
      exact hHead
    rw [next_of_cons hRest]
    -- what is left begins with the slash, the name or the semicolon
    have hCases : (c = '/' ∧ rest = [' ', 'y', ';']) ∨ c = 'y' ∨ c = ';' := by
      simp only [division, List.suffix_cons_iff, List.suffix_nil, List.cons.injEq] at hTail
      rcases hTail with ⟨rfl, -⟩ | ⟨rfl, rfl⟩ | ⟨rfl, -⟩ | ⟨rfl, -⟩ | ⟨rfl, -⟩ | hNil
      · cases hSkipped
      · exact .inl ⟨rfl, rfl⟩
      · cases hSkipped
      · exact .inr (.inl rfl)
      · exact .inr (.inr rfl)
      · cases hNil
    rcases hCases with ⟨rfl, rfl⟩ | rfl | rfl
    · cases hFlag : l.skipBlank.regexAllowed with
      | true =>
        have hScan : scan true l.skipBlank.templates '/' [' ', 'y', ';'] =
            scanRegexp l.skipBlank.templates [' ', 'y', ';'] := rfl
        rw [hFlag] at hNotices
        rw [hScan] at hNotices ⊢
        exact plain_read _ hNotices.counts (isPunctuator_scanRegexp _)
      | false =>
        rw [scan_division]
        exact plain_of_kind _ rfl (.inr rfl)
    · rw [scan_divisor] at hNotices ⊢
      exact plain_read _ hNotices.counts (isPunctuator_scanWord _)
    · rw [scan_semicolon]
      exact plain_of_kind _ rfl (.inl rfl)

/-- The lexers part here: the next result of each reaches beyond the common text. -/
structure Part (stop : Nat) (l l' : Lexer) : Prop where
  plain : Plain l.next.1
  rest : l.next.2.cursor.rest = []
  offset : stop < l.next.2.cursor.position.offset
  plain' : Plain l'.next.1
  trailing : Trailing l'.next.2

/-- The shorter source ends here with its semicolon, and the longer one goes on with its division if
a slash divides here. -/
structure Ends (stop : Nat) (l l' : Lexer) : Prop where
  semicolon : ∃ t, l.next.1 = .ok t ∧ t.kind = .punctuator .semicolon ∧ t.newlineBefore = false ∧
    t.offset = stop
  divide : l.regexAllowed = false → ∃ t, l'.next.1 = .ok t ∧ t.kind = .punctuator .divide ∧
    t.newlineBefore = false ∧ t.line = 1 ∧ l'.next.2.cursor.rest = [' ', 'y', ';'] ∧
    l'.next.2.cursor.position.line = 1 ∧ l'.next.2.newlinePending = false

/-- A token of the shorter source reaches over the place where the sources part. -/
def Crosses (stop : Nat) (l : Lexer) : Prop :=
  ∀ t, significant? l.next.1 = some t → t.offset < stop ∧ ∀ p, t.kind ≠ .punctuator p

/-- What both lexers read where the common text goes on. -/
theorem Twin.next_eq {c : Char} {rest : List Char}
    (h : Twin stop (c :: rest) l.skipBlank l'.skipBlank) : l.next = l.skipBlank.read
        (scan l.skipBlank.regexAllowed l.skipBlank.templates c (rest ++ [';'])) ∧
      l'.next = l'.skipBlank.read
        (scan l.skipBlank.regexAllowed l.skipBlank.templates c (rest ++ division)) := by
  have hHere : l.skipBlank.cursor.rest = c :: (rest ++ [';']) := h.rest
  have hThere : l'.skipBlank.cursor.rest = c :: (rest ++ division) := by
    rw [h.other]
    rfl
  refine ⟨next_of_cons hHere, ?_⟩
  rw [next_of_cons hThere, h.other]
  rfl

/-- A token of the shorter source that does not end in the common text is none in the longer one
either. -/
theorem Twin.part_crossing {c : Char} {rest : List Char}
    (hTwin : Twin stop (c :: rest) l.skipBlank l'.skipBlank)
    (hLocal : ¬(scan l.skipBlank.regexAllowed l.skipBlank.templates c (rest ++ [';'])).length ≤
      rest.length + 1) : Part stop l l' ∧ Crosses stop l := by
  obtain ⟨hNext, hNext'⟩ := hTwin.next_eq
  have hHere : l.skipBlank.cursor.rest = c :: (rest ++ [';']) := hTwin.rest
  have hThere : l'.skipBlank.cursor.rest = (c :: rest) ++ division := by
    rw [hTwin.other]
    rfl
  have hAlike := alike_twin rest
  -- the scan is not local in the other source either, since it would be the same scan
  have hLocal' :
      ¬(scan l.skipBlank.regexAllowed l.skipBlank.templates c (rest ++ division)).length ≤
      rest.length + 1 := by
    intro hLength
    rw [scan_local _ _ hAlike.symm nofun hLength] at hLocal
    exact hLocal hLength
  have hUnbroken := hTwin.unbroken c (List.mem_cons_self ..)
  have hNotices (tail : List Char) :=
    scan_notices l.skipBlank.regexAllowed l.skipBlank.templates hUnbroken tail
  have hOffset := hTwin.offset
  simp only [List.length_cons] at hOffset
  -- operators and delimiters do not reach so far
  have hOver :
      ¬(scan l.skipBlank.regexAllowed l.skipBlank.templates c (rest ++ [';'])).isPunctuator :=
    fun hp => hLocal (scan_punctuator _ _ hAlike hp)
  have hOver' :
      ¬(scan l.skipBlank.regexAllowed l.skipBlank.templates c (rest ++ division)).isPunctuator :=
    fun hp => hLocal' (scan_punctuator _ _ hAlike.symm hp)
  refine ⟨⟨?_, ?_, ?_, ?_, ?_⟩, ?_⟩
  · rw [hNext]
    exact plain_read _ (hNotices _).counts (Bool.eq_false_iff.mpr hOver)
  · rw [hNext, cursor_read, Cursor.rest_advance, hHere]
    refine List.drop_eq_nil_of_le ?_
    simp only [List.length_cons, List.length_append, List.length_nil]
    omega
  · rw [hNext, cursor_read]
    show _ < (l.skipBlank.cursor.advance _).offset
    rw [Cursor.offset_advance, hHere]
    show _ < l.skipBlank.cursor.position.offset + _
    simp only [List.length_cons, List.length_append, List.length_nil]
    omega
  · rw [hNext']
    exact plain_read _ (hNotices _).counts (Bool.eq_false_iff.mpr hOver')
  · rw [hNext', Trailing, cursor_read, Cursor.rest_advance, hThere, List.drop_append,
      List.drop_eq_nil_of_le (by simp only [List.length_cons]; omega)]
    exact List.drop_suffix _ _
  · intro t ht
    rw [hNext] at ht
    have hMarks := read_token _ (hNotices _).counts ht
    refine ⟨?_, fun p hp => hOver ?_⟩
    · rw [Token.offset, hMarks.start]
      omega
    · rw [Scan.isPunctuator, hMarks.kind, hp]

/-- One result of each lexer where the common text goes on. -/
theorem Twin.step_text {c : Char} {rest : List Char} (h : Twin stop text l l')
    (hText : text.dropWhile isSkipped = c :: rest) :
    (∃ text', text'.length < text.length ∧ l'.next.1 = l.next.1 ∧
    Twin stop text' l.next.2 l'.next.2 ∧
      Inside stop l l.next.1 l.next.2) ∨ Part stop l l' ∧ Crosses stop l := by
  have hTwin := h.skipBlank hText
  have hShorter : rest.length < text.length := by
    have hSuffix := (List.dropWhile_suffix isSkipped : text.dropWhile isSkipped <:+ text).length_le
    rw [hText] at hSuffix
    exact hSuffix
  by_cases hLocal : (scan l.skipBlank.regexAllowed l.skipBlank.templates c (rest ++ [';'])).length ≤
      rest.length + 1
  · have hSame : scan l.skipBlank.regexAllowed l.skipBlank.templates c (rest ++ division) =
        scan l.skipBlank.regexAllowed l.skipBlank.templates c (rest ++ [';']) :=
      scan_local _ _ (alike_twin rest) nofun hLocal
    obtain ⟨hNext, hNext'⟩ := hTwin.next_eq
    obtain ⟨text', hLength, hResult, hAfter, hInside⟩ := hTwin.read hLocal
    rw [hNext, hNext', hSame]
    exact .inl ⟨text', Nat.lt_of_le_of_lt hLength hShorter, hResult, hAfter,
      ⟨hInside.token, hInside.passed⟩⟩
  · exact .inr (hTwin.part_crossing hLocal)

/-- One result of each lexer where only white space is left of the common text. -/
theorem Twin.step_end (h : Twin stop text l l') (hText : text.dropWhile isSkipped = []) :
    Part stop l l' ∧ Ends stop l l' := by
  obtain ⟨hRest, rfl, hUnbroken, hLine, hOffset, hPending⟩ := h
  -- the rest of the common text is blank, and so is the blank before the slash
  have hAll (d : Char) (hd : d ∈ text) : isSkipped d := by
    have hWhole : text.takeWhile isSkipped ++ text.dropWhile isSkipped = text :=
      List.takeWhile_append_dropWhile
    rw [hText, List.append_nil] at hWhole
    rw [← hWhole] at hd
    exact List.all_eq_true.mp List.all_takeWhile d hd
  have hAll' (d : Char) (hd : d ∈ text ++ [' ']) : isSkipped d := by
    rcases List.mem_append.mp hd with hd | hd
    · exact hAll d hd
    · rw [List.mem_singleton.mp hd]
      rfl
  have hUnbroken' (d : Char) (hd : d ∈ text ++ [' ']) : Text.isLineTerminator d = false := by
    rcases List.mem_append.mp hd with hd | hd
    · exact hUnbroken d hd
    · rw [List.mem_singleton.mp hd]
      rfl
  have hThere :
      (l.withRest (text ++ division)).cursor.rest = (text ++ [' ']) ++ '/' :: [' ', 'y', ';'] := by
    rw [List.append_assoc]
    rfl
  have hSkip := skipBlank_run hRest hAll hUnbroken rfl
  have hSkip' := skipBlank_run hThere hAll' hUnbroken' rfl
  have hNext : l.next = l.skipBlank.read
      { length := 1, scanned := .token (.punctuator .semicolon), templates := l.templates } := by
    rw [next_of_cons (by rw [hSkip]), hSkip, scan_semicolon]
  have hNext' :
      (l.withRest (text ++ division)).next = (l.withRest (text ++ division)).skipBlank.read
      (scan l.regexAllowed l.templates '/' [' ', 'y', ';']) := by
    rw [next_of_cons (by rw [hSkip']), hSkip']
    rfl
  have hTrailing : Trailing (l.withRest (text ++ division)).skipBlank := by
    rw [Trailing, hSkip']
    exact List.suffix_cons _ _
  have hBeyond := hTrailing.next
  rw [next_skipBlank] at hBeyond
  refine ⟨⟨?_, ?_, ?_, hBeyond.1, hBeyond.2⟩, ?_, ?_⟩
  · rw [hNext]
    exact plain_of_kind _ rfl (.inl rfl)
  · rw [hNext, cursor_read, hSkip]
    rfl
  · rw [hNext, cursor_read, hSkip]
    show _ < l.cursor.position.offset + text.length + 1
    omega
  · rw [hNext, hSkip]
    refine ⟨_, rfl, rfl, ?_, hOffset⟩
    show (l.newlinePending || false) = false
    rw [hPending]
    rfl
  · intro hFlag
    rw [hNext', hSkip', hFlag, scan_division]
    refine ⟨_, rfl, rfl, ?_, hLine, rfl, hLine, rfl⟩
    show (l.newlinePending || false) = false
    rw [hPending]
    rfl

/-- One result of each lexer, by where it ends. -/
theorem Twin.step (h : Twin stop text l l') :
    (∃ text', text'.length < text.length ∧ l'.next.1 = l.next.1 ∧
    Twin stop text' l.next.2 l'.next.2 ∧
      Inside stop l l.next.1 l.next.2) ∨
    Part stop l l' ∧ (Ends stop l l' ∨ Crosses stop l) := by
  cases hText : text.dropWhile isSkipped with
  | cons c rest =>
    rcases h.step_text hText with hInside | ⟨hPart, hCrosses⟩
    · exact .inl hInside
    · exact .inr ⟨hPart, .inr hCrosses⟩
  | nil =>
    obtain ⟨hPart, hEnds⟩ := h.step_end hText
    exact .inr ⟨hPart, .inl hEnds⟩

/-! ## Runs of results -/

/-- The lexers read so many results alike before they part. -/
inductive Twins (stop : Nat) : Nat → Lexer → Lexer → Prop
  | part {text : List Char} {l l' : Lexer} : Twin stop text l l' → Part stop l l' →
    Ends stop l l' ∨ Crosses stop l → Twins stop 0 l l'
  | inside {text : List Char} {l l' : Lexer} {count : Nat} : Twin stop text l l' →
    l'.next.1 = l.next.1 → Inside stop l l.next.1 l.next.2 →
      Twins stop count l.next.2 l'.next.2 → Twins stop (count + 1) l l'

theorem Twins.twin {count : Nat} (h : Twins stop count l l') : ∃ text, Twin stop text l l' := by
  cases h with
  | part hTwin => exact ⟨_, hTwin⟩
  | inside hTwin => exact ⟨_, hTwin⟩

/-- By induction on the length of the common text. -/
theorem Twin.exists_twins (h : Twin stop text l l') : ∃ count, Twins stop count l l' := by
  induction hn : text.length using Nat.strongRecOn generalizing text l l' with
  | ind n ih =>
    rcases h.step with ⟨text', hLess, hResult, hAfter, hInside⟩ | ⟨hPart, hKind⟩
    · obtain ⟨count, hTwins⟩ := ih _ (hn ▸ hLess) hAfter rfl
      exact ⟨count + 1, .inside h hResult hInside hTwins⟩
    · exact ⟨0, .part h hPart hKind⟩

/-- At the end of the source only the end of input is read. -/
theorem Leads.of_end {m : Lexer} {rs : List Result} {t : Token} (h : Leads l rs t m)
    (hRest : l.cursor.rest = []) :
    t.kind = .endOfInput ∧ t.start = l.cursor.position ∧ m.cursor = l.cursor := by
  have hSkip : l.skipBlank.cursor = l.cursor := by
    show l.cursor.advance _ = l.cursor
    rw [hRest]
    rfl
  have hNext := next_of_nil (l := l) (by rw [hSkip, hRest])
  have hSome :
      significant? l.next.1 = some (l.skipBlank.finish l.skipBlank.cursor .endOfInput).1 := by
    rw [hNext]
    exact significant_finish rfl _ _
  cases h with
  | here ht =>
    obtain rfl := Option.some.inj (hSome.symm.trans ht)
    refine ⟨rfl, ?_, ?_⟩
    · show l.skipBlank.cursor.position = _
      rw [hSkip]
    · rw [hNext, cursor_finish, hSkip]
  | pass hNone => cases hSome.symm.trans hNone

/-- The next significant token of the shorter source is its last one or lies beyond. -/
structure Last (stop : Nat) (l l' : Lexer) (rs : List Result) (t : Token) (after : Lexer) :
    Prop where
  rest : after.cursor.rest = []
  offset : stop < after.cursor.position.offset
  divides : divides (.ok t) = false
  place : t.offset = stop → t.kind = .punctuator .semicolon ∧ t.newlineBefore = false ∧
    (l.regexAllowed = false → ∃ passed u after', rs = passed ++ [.ok t] ∧
      Leads l' (passed ++ [.ok u]) u after' ∧ u.kind =
        .punctuator .divide ∧ u.newlineBefore = false ∧
      u.line = 1 ∧ after'.cursor.rest = [' ', 'y', ';'] ∧ after'.cursor.position.line = 1 ∧
      after'.newlinePending = false)

/-- The next significant token is the same in both sources, and the lexers are still alike after
it. -/
structure Next (stop count : Nat) (l' : Lexer) (rs : List Result) (t : Token) (after : Lexer) :
    Prop where
  fits : rs.length ≤ count
  leads : ∃ after', Leads l' rs t after' ∧ Twins stop (count - rs.length) after after'
  offset : t.offset < stop
  line : t.line = 1
  regexAllowed : after.regexAllowed = !t.kind.endsValue

/-- Only a slash divides. -/
theorem divides_eq_false {t : Token} (h : ∀ p, t.kind = .punctuator p → p = .semicolon) :
    Lexer.divides (.ok t) = false := by
  unfold Lexer.divides Token.isPunctuator
  dsimp only
  split
  · next p hp =>
    rw [h p hp]
    rfl
  · rfl

/-- Where the lexers part, the last token of the shorter source comes next. -/
theorem Part.last {rs : List Result} {t : Token} {after : Lexer} (hPart : Part stop l l')
    (hKind : Ends stop l l' ∨ Crosses stop l) (hLeads : Leads l rs t after) :
    Last stop l l' rs t after := by
  cases hLeads with
  -- the next result is the token: the semicolon itself, or a token that reaches past the text
  | here ht =>
    rcases hKind with hEnds | hCrosses
    · obtain ⟨semicolon, hOk, hSemicolon, hNewline, hOffset⟩ := hEnds.semicolon
      obtain rfl : semicolon = t :=
        Option.some.inj ((significant_of_kind hOk hSemicolon rfl).symm.trans ht)
      refine ⟨hPart.rest, hPart.offset, divides_eq_false fun p hp => ?_,
        fun _ => ⟨hSemicolon, hNewline, ?_⟩⟩
      · rw [hSemicolon] at hp
        cases hp
        rfl
      · intro hFlag
        obtain ⟨u, hu, hDivide, hRest⟩ := hEnds.divide hFlag
        have hLeads : Leads l' [l'.next.1] u l'.next.2 := .here (significant_of_kind hu hDivide rfl)
        rw [hu] at hLeads
        exact ⟨[], u, _, by rw [hOk]; rfl, hLeads, hDivide, hRest⟩
    · obtain ⟨hOffset, hKind⟩ := hCrosses t ht
      refine ⟨hPart.rest, hPart.offset, divides_eq_false fun p hp => absurd hp (hKind p),
        fun hPlace => ?_⟩
      omega
  | pass hNone hRest =>
    -- behind the last token there is only the end of input
    obtain ⟨hEnd, hStart, hCursor⟩ := hRest.of_end hPart.rest
    have hBeyond := hPart.offset
    refine ⟨?_, ?_, divides_eq_false fun p hp => ?_, fun hPlace => ?_⟩
    · rw [hCursor, hPart.rest]
    · rw [hCursor]
      exact hBeyond
    · rw [hEnd] at hp
      cases hp
    · rw [Token.offset, hStart] at hPlace
      omega

/-- A result that does not count may come before the last token. -/
theorem Last.pass {rs : List Result} {t : Token} {after : Lexer}
    (h : Last stop l.next.2 l'.next.2 rs t after)
    (hResult : l'.next.1 = l.next.1) (hInside : Inside stop l l.next.1 l.next.2)
    (hNone : significant? l.next.1 = none) : Last stop l l' (l.next.1 :: rs) t after := by
  refine ⟨h.rest, h.offset, h.divides, fun hPlace => ?_⟩
  obtain ⟨hKind, hNewline, hDivide⟩ := h.place hPlace
  refine ⟨hKind, hNewline, fun hFlag => ?_⟩
  obtain ⟨passed, u, after', rfl, hLeads, hSlash⟩ := hDivide (hInside.passed hNone ▸ hFlag)
  have hPassed : Leads l' (l'.next.1 :: (passed ++ [.ok u])) u after' :=
    .pass (hResult ▸ hNone) hLeads
  rw [hResult] at hPassed
  exact ⟨l.next.1 :: passed, u, after', rfl, hPassed, hSlash⟩

/-- By induction on the results that are alike. -/
theorem Twins.leads {count : Nat} {rs : List Result} {t : Token} {after : Lexer}
    (h : Twins stop count l l') (hLeads : Leads l rs t after) :
    Next stop count l' rs t after ∨ Last stop l l' rs t after := by
  induction h generalizing rs t after with
  | part _ hPart hKind => exact .inr (hPart.last hKind hLeads)
  | @inside text l l' count hTwin hResult hInside hTwins ih =>
    cases hLeads with
    | here ht =>
      have hThere : significant? l'.next.1 = some t := hResult ▸ ht
      obtain ⟨hOffset, hLine, hFlag⟩ := hInside.token t ht
      have hLeads : Leads l' [l'.next.1] t l'.next.2 := .here hThere
      rw [hResult] at hLeads
      exact .inl ⟨Nat.le_add_left 1 count, ⟨_, hLeads, hTwins⟩, hOffset, hLine, hFlag⟩
    | @pass _ _ rs _ hNone hRest =>
      rcases ih hRest with hNext | hLast
      · obtain ⟨after', hLeads, hAfter⟩ := hNext.leads
        have hPassed : Leads l' (l'.next.1 :: rs) t after' := .pass (hResult ▸ hNone) hLeads
        rw [hResult] at hPassed
        refine .inl ⟨Nat.succ_le_succ hNext.fits, ⟨after', hPassed, ?_⟩, hNext.offset, hNext.line,
          hNext.regexAllowed⟩
        rw [List.length_cons, Nat.add_sub_add_right]
        exact hAfter
      · exact .inr (hLast.pass hResult hInside hNone)

section Visits

variable {σ β : Type} {visit : σ → Token → σ ⊕ β}

/-- Visits answer alike before the lexers part, or both go on from where they do. -/
theorem Twins.visits {count n n' : Nat} {state : σ} {b b' : β} (h : Twins stop count l l')
    (hVisit : Visits visit l state b n) (hVisit' : Visits visit l' state b' n') :
    (n = n' ∧ n ≤ count ∧ b = b') ∨ (count < n ∧ count < n' ∧
      ∃ m m' state' k k', Part stop m m' ∧ Visits visit m state' b k ∧
        Visits visit m' state' b' k') := by
  -- on the results both sources share
  induction h generalizing state n n' with
  | part _ hPart _ =>
    have hPos {l : Lexer} {b : β} {n : Nat} (hVisit : Visits visit l state b n) : 0 < n := by
      cases hVisit with
      | answer => exact Nat.one_pos
      | goOn => exact Nat.succ_pos _
    exact .inr ⟨hPos hVisit, hPos hVisit', _, _, state, n, n', hPart, hVisit, hVisit'⟩
  | @inside text l l' count _ hResult _ _ ih =>
    cases hVisit with
    | answer hShown =>
      cases hVisit' with
      | answer hShown' =>
        rw [hResult] at hShown'
        exact .inl ⟨rfl, Nat.le_add_left 1 count, Sum.inr.inj (hShown.symm.trans hShown')⟩
      | goOn hShown' =>
        rw [hResult] at hShown'
        cases hShown.symm.trans hShown'
    | goOn hShown hRest =>
      cases hVisit' with
      | answer hShown' =>
        rw [hResult] at hShown'
        cases hShown.symm.trans hShown'
      | goOn hShown' hRest' =>
        rw [hResult] at hShown'
        obtain rfl := Sum.inl.inj (hShown.symm.trans hShown')
        rcases ih hRest hRest' with ⟨hSame, hFits, hAnswer⟩ | ⟨hLess, hLess', hBeyond⟩
        · exact .inl ⟨by rw [hSame], Nat.succ_le_succ hFits, hAnswer⟩
        · exact .inr ⟨Nat.succ_lt_succ hLess, Nat.succ_lt_succ hLess', hBeyond⟩

end Visits

/-- The comments before the next result are the same in both sources, if the result is. -/
theorem Twins.passesTo {count n : Nat} {r : Result} (h : Twins stop count l l')
    (hPasses : PassesTo l n r) : (n < count ∧ PassesTo l' n r) ∨ count ≤ n := by
  induction h generalizing n r with
  | part => exact .inr (Nat.zero_le n)
  | @inside text l l' count _ hResult _ _ ih =>
    cases hPasses with
    | here hr =>
      have hThere : PassesTo l' 0 l'.next.1 := .here (hResult ▸ hr)
      rw [hResult] at hThere
      exact .inl ⟨Nat.succ_pos count, hThere⟩
    | pass hr hRest =>
      rcases ih hRest with ⟨hLess, hThere⟩ | hMore
      · exact .inl ⟨Nat.succ_lt_succ hLess, .pass (hResult ▸ hr) hThere⟩
      · exact .inr (Nat.succ_le_succ hMore)

/-- The request for a regular expression reaches both sources. -/
theorem Twin.allowRegex (h : Twin stop text l l') : Twin stop text l.allowRegex l'.allowRegex := by
  obtain ⟨hRest, rfl, hUnbroken, hLine, hOffset, hPending⟩ := h
  exact ⟨hRest, rfl, hUnbroken, hLine, hOffset, hPending⟩

end Lexer

end ScriptLint
