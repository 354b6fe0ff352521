import ScriptLint.Proofs.Lexer.Positions

/-!
# Tokens read again by themselves

Every scanner looks at characters after those that it takes. They do not decide what a token is: on
a text that ends where the token ends the scanner finds the same, and nothing is left to read.

- `takeWhile_take`, `digitRun_take`, `scanNumber_take`, `wordBody_take`, `stringBody_take`: the
  walks over a text that is cut off behind what they take.
- `TokenKind.standsAlone`: the tokens that do not depend on where they stand. A slash divides or
  starts a regular expression, and a later piece of a template starts with a brace.
- `scan_take`: what is recognised at the front of a text that ends with the token.
- `relexing`: the text of a token, read by itself.
-/

namespace ScriptLint

/-- Whether the token is the same wherever its text stands. -/
def TokenKind.standsAlone : TokenKind → Bool
  | .punctuator .divide | .punctuator .divideAssign => false
  | .template .middle _ | .template .tail _ => false
  | .endOfInput => false
  | _ => true

namespace Lexer

variable {cs rest : List Char} {c : Char} {n : Nat}

/-! ## Texts that are cut off -/

/-- A character at the front is kept if anything is. -/
theorem head_take (hNear : 1 ≤ n) (cs : List Char) : (cs.take n).head? = cs.head? := by
  rw [List.head?_take, if_neg (Nat.ne_of_gt hNear)]

/-- What a prefix begins with the text begins with. -/
theorem head_of_take (h : (cs.take n).head? = some c) : cs.head? = some c := by
  rw [List.head?_take] at h
  split at h
  · cases h
  · exact h

/-- A text that does not start with the character does not start with it when it is cut off. -/
theorem ne_cons_of_take {d : Char} (h : ∀ tail, cs ≠ d :: tail) (tail : List Char) :
    cs.take n ≠ d :: tail := by
  intro hTail
  obtain ⟨rest, hRest⟩ := List.head?_eq_some_iff.mp (head_of_take (congrArg List.head? hTail))
  exact h rest hRest

/-- A test of the character at the front that holds on the shorter text holds on the longer one. -/
theorem head_any_of_take {p : Char → Bool} (h : (cs.take n).head?.any p) : cs.head?.any p := by
  obtain ⟨c, hHead, hc⟩ := (Option.any_eq_true _ _).mp h
  rw [head_of_take hHead]
  exact hc

/-- Whoever looks at the first character needs no more than that. -/
theorem head_any_take {p : Char → Bool} (hNear : cs.head?.any p → 1 ≤ n) :
    (cs.take n).head?.any p = cs.head?.any p := by
  by_cases hHead : cs.head?.any p
  · rw [head_take (hNear hHead)]
  · rw [Bool.eq_false_iff.mpr hHead]
    exact Bool.eq_false_iff.mpr fun hShort => hHead (head_any_of_take hShort)

theorem head_beq_take {d : Char} (hNear : cs.head? == some d → 1 ≤ n) :
    ((cs.take n).head? == some d) = (cs.head? == some d) := by
  by_cases hHead : cs.head? == some d
  · rw [head_take (hNear hHead)]
  · rw [Bool.eq_false_iff.mpr hHead]
    refine Bool.eq_false_iff.mpr fun hShort => hHead ?_
    rw [head_of_take (beq_iff_eq.mp hShort), beq_self_eq_true]

/-- A run that is kept whole. -/
theorem takeWhile_take {p : Char → Bool} (h : (cs.takeWhile p).length ≤ n) :
    (cs.take n).takeWhile p = cs.takeWhile p ∧
      (cs.take n).dropWhile p = (cs.dropWhile p).take (n - (cs.takeWhile p).length) := by
  induction cs generalizing n with
  | nil => simp
  | cons c rest ih =>
    by_cases hc : p c
    · rw [List.takeWhile_cons_of_pos hc] at h ⊢
      cases n with
      | zero => cases h
      | succ n =>
        obtain ⟨hRun, hRest⟩ := ih (Nat.le_of_succ_le_succ h)
        rw [List.take_succ_cons, List.takeWhile_cons_of_pos hc, List.dropWhile_cons_of_pos hc,
          List.dropWhile_cons_of_pos hc, hRun, hRest, List.length_cons, Nat.succ_sub_succ]
        exact ⟨rfl, rfl⟩
    · rw [List.takeWhile_cons_of_neg hc, List.dropWhile_cons_of_neg hc]
      cases n with
      | zero => exact ⟨rfl, rfl⟩
      | succ n =>
        rw [List.take_succ_cons, List.takeWhile_cons_of_neg hc, List.dropWhile_cons_of_neg hc]
        exact ⟨rfl, rfl⟩

/-! ## Escapes -/

/-- The end of the text stops an escape as any other character does that does not fit. -/
theorem hexDigits_take (count code : Nat) (cs : List Char) :
    ∀ n, (hexDigits count code cs).length ≤ n → hexDigits count code (cs.take n) =
      hexDigits count code cs := by
  fun_induction hexDigits count code cs with
  | case1 => exact fun n _ => by rw [hexDigits]
  | case2 => exact fun n _ => by rw [List.take_nil, hexDigits]
  | case3 count code c rest hDigit =>
    intro n _
    cases n with
    | zero => rfl
    | succ n => rw [List.take_succ_cons, hexDigits, hDigit]
  | case4 count code c rest digit hDigit decoded ih =>
    intro n h
    cases n with
    | zero => cases h
    | succ n =>
      rw [List.take_succ_cons, hexDigits, hDigit]
      dsimp only
      rw [ih n (Nat.le_of_succ_le_succ h)]

/-- Digits in braces are read from a prefix that holds them. -/
theorem bracedDigits_take (code : Nat) (any : Bool) (cs : List Char) :
    ∀ n, (bracedDigits code any cs).length ≤ n → bracedDigits code any (cs.take n) =
      bracedDigits code any cs := by
  fun_induction bracedDigits code any cs with
  | case1 => exact fun n _ => by rw [List.take_nil, bracedDigits]
  | case2 code any c rest digit hDigit hSmall decoded ih =>
    intro n h
    cases n with
    | zero => cases h
    | succ n =>
      rw [List.take_succ_cons, bracedDigits, hDigit]
      dsimp only
      rw [if_pos hSmall, ih n (Nat.le_of_succ_le_succ h)]
  | case3 code any c rest digit hDigit hLarge =>
    intro n _
    cases n with
    | zero => rfl
    | succ n =>
      rw [List.take_succ_cons, bracedDigits, hDigit]
      exact if_neg hLarge
  | case4 code any c rest hDigit hClose =>
    intro n h
    cases n with
    | zero => cases h
    | succ n =>
      rw [List.take_succ_cons, bracedDigits, hDigit]
      exact if_pos hClose
  | case5 code any c rest hDigit hClose =>
    intro n _
    cases n with
    | zero => rfl
    | succ n =>
      rw [List.take_succ_cons, bracedDigits, hDigit]
      exact if_neg hClose

/-- So is the escape of a code point. -/
theorem unicodeEscape_take (h : (unicodeEscape cs).length ≤ n) :
    unicodeEscape (cs.take n) = unicodeEscape cs := by
  unfold unicodeEscape at h
  split at h
  · next rest =>
    cases n with
    | zero => cases h
    | succ n =>
      rw [List.take_succ_cons, unicodeEscape, unicodeEscape, bracedDigits_take 0 false rest n
        (Nat.le_of_succ_le_succ h)]
  · next hBrace =>
    rw [unicodeEscape.eq_2 _ (ne_cons_of_take hBrace), unicodeEscape.eq_2 _ hBrace,
      hexDigits_take 4 0 cs n h]

/-- So are octal digits. -/
theorem octalDigits_take (code : Nat) (cs : List Char) :
    ∀ n, (octalDigits code cs).2 ≤ n → octalDigits code (cs.take n) = octalDigits code cs := by
  fun_induction octalDigits code cs with
  | case1 => exact fun n _ => by rw [List.take_nil, octalDigits]
  | case2 code c rest digit hDigit hSmall total length hRest ih =>
    intro n h
    cases n with
    | zero => cases h
    | succ n =>
      rw [hRest] at ih
      rw [List.take_succ_cons, octalDigits, hDigit]
      dsimp only
      rw [if_pos hSmall, ih n (Nat.le_of_succ_le_succ h)]
  | case3 code c rest digit hDigit hLarge =>
    intro n _
    cases n with
    | zero => rfl
    | succ n =>
      rw [List.take_succ_cons, octalDigits, hDigit]
      exact if_neg hLarge
  | case4 code c rest hDigit =>
    intro n _
    cases n with
    | zero => rfl
    | succ n => rw [List.take_succ_cons, octalDigits, hDigit]

/-- A carriage return continues the string by itself, unless a line feed follows. -/
theorem escape_return (h : rest.head? ≠ some '\n') :
    Escape.read ('\r' :: rest) = { length := 1, continued := true } := by
  cases rest with
  | nil => rfl
  | cons d rest =>
    have hd : d ≠ '\n' := fun hSame => h (congrArg some hSame)
    simp [Escape.read, hd, Text.isLineTerminator]

/-- A zero asks for the character after it, so one more character than the escape takes is kept. -/
theorem escape_take_other (hOther : c ∉ specialEscapes)
    (h : (Escape.read (c :: rest)).length < n + 1) :
    Escape.read (c :: rest.take n) = Escape.read (c :: rest) := by
  rw [escape_other hOther] at h
  rw [escape_other hOther, escape_other hOther]
  split
  · rfl
  · next hBreak =>
    rw [if_neg hBreak] at h
    have hNear : 1 ≤ n := by
      split at h
      · exact Nat.lt_of_succ_lt_succ h
      · split at h
        · exact Nat.le_trans (Nat.le_add_left 1 _) (Nat.le_of_lt_succ h)
        · exact Nat.lt_of_succ_lt_succ h
    rw [head_any_take fun _ => hNear]
    split
    · rfl
    · next hZero =>
      rw [if_neg hZero] at h
      cases hDigit : Text.octalValue? c with
      | none => rfl
      | some digit =>
        rw [hDigit] at h
        dsimp only at h ⊢
        rw [octalDigits_take digit rest n (by omega)]

/-- An escape is read from a prefix with one more character. -/
theorem escape_take (h : (Escape.read cs).length < n) :
    Escape.read (cs.take n) = Escape.read cs := by
  cases cs with
  | nil => rw [List.take_nil]
  | cons c rest =>
    cases n with
    | zero => cases h
    | succ n =>
      rw [List.take_succ_cons]
      by_cases hSpecial : c ∈ specialEscapes
      · simp only [specialEscapes, List.mem_cons, List.not_mem_nil, or_false] at hSpecial
        rcases hSpecial with rfl | rfl | rfl | rfl | rfl | rfl | rfl | rfl | rfl
        -- the letters that stand for one character each need nothing after them
        iterate 6 rfl
        · rw [Escape.read, length_ofDecoded] at h
          rw [Escape.read, Escape.read, hexDigits_take 2 0 rest n (by omega)]
        · rw [Escape.read, length_ofDecoded] at h
          rw [Escape.read, Escape.read, unicodeEscape_take (by omega)]
        · by_cases hFeed : rest.head? = some '\n'
          · obtain ⟨tail, rfl⟩ := List.head?_eq_some_iff.mp hFeed
            -- both ends of the line belong to the escape, so both are kept
            cases n with
            | zero => cases Nat.lt_of_succ_lt_succ h
            | succ n => rfl
          · rw [escape_return hFeed, escape_return fun hShort => hFeed (head_of_take hShort)]
      · exact escape_take_other hSpecial h

/-- The escape in a name is read from a prefix that holds it. -/
theorem nameEscape_take (h : (nameEscape cs).length ≤ n) :
    nameEscape (cs.take n) = nameEscape cs := by
  unfold nameEscape at h
  split at h
  · next rest =>
    cases n with
    | zero => cases h
    | succ n =>
      rw [List.take_succ_cons, nameEscape, nameEscape,
        unicodeEscape_take (Nat.le_of_succ_le_succ h)]
  · next hLetter =>
    rw [nameEscape.eq_2 _ (ne_cons_of_take hLetter), nameEscape.eq_2 _ hLetter]

/-! ## Words, literals and comments -/

/-- So is a word. -/
theorem wordBody_take (skip : Nat) (cs : List Char) (s : WordScan) :
    ∀ n, (wordBody skip cs s).length + skip ≤ s.length + n → wordBody skip (cs.take n) s =
      wordBody skip cs s := by
  -- along the scan; an escape is skipped character by character
  fun_induction wordBody skip cs s with
  | case1 => exact fun n _ => by rw [List.take_nil, wordBody]
  | case2 skip c rest s ih =>
    intro n h
    have hOver := length_wordBody skip rest s
    cases n with
    | zero => omega
    | succ n =>
      rw [List.take_succ_cons, wordBody]
      exact ih n (by omega)
  | case3 c rest s hEscape decoded length letter hLetter ih =>
    intro n h
    have hOver := length_wordBody decoded.length rest
      { s with name := s.name.push letter, escaped := true, length }
    have hLength : length = s.length + 1 + decoded.length := rfl
    dsimp only at hOver ih
    cases n with
    | zero => omega
    | succ n =>
      have hDecoded : nameEscape (rest.take n) = decoded :=
        nameEscape_take (show decoded.length ≤ n by omega)
      rw [List.take_succ_cons, wordBody, if_pos hEscape, hDecoded]
      dsimp only
      rw [hLetter]
      exact ih n (by omega)
  | case4 c rest s hEscape decoded length hNone =>
    intro n h
    have hLength : length = s.length + 1 + decoded.length := rfl
    dsimp only at h
    cases n with
    | zero => omega
    | succ n =>
      have hDecoded : nameEscape (rest.take n) = decoded :=
        nameEscape_take (show decoded.length ≤ n by omega)
      rw [List.take_succ_cons, wordBody, if_pos hEscape, hDecoded]
      dsimp only
      rw [hNone]
  | case5 c rest s hEscape hPart ih =>
    intro n h
    have hOver := length_wordBody 0 rest { s with name := s.name.push c, length := s.length + 1 }
    dsimp only at hOver ih
    cases n with
    | zero => omega
    | succ n =>
      rw [List.take_succ_cons, wordBody, if_neg hEscape, if_pos hPart]
      exact ih n (by omega)
  | case6 c rest s hEscape hPart =>
    intro n _
    cases n with
    | zero => rfl
    | succ n => rw [List.take_succ_cons, wordBody, if_neg hEscape, if_neg hPart]

/-- The closing quote comes after all that was read before. -/
theorem length_of_closed (quote : Char) (skip : Nat) (cs : List Char) (s : StringScan)
    (h : s.closed = false)
    (hClosed : (stringBody quote skip cs s).closed) :
    s.length < (stringBody quote skip cs s).length := by
  fun_induction stringBody quote skip cs s with
  | case1 => rw [h] at hClosed; cases hClosed
  | case2 _ _ _ _ ih => exact ih h hClosed
  | case3 => rw [h] at hClosed; cases hClosed
  | case4 => exact Nat.lt_succ_self _
  | case5 c rest s _ _ _ e ih =>
    refine Nat.lt_of_le_of_lt ?_ (ih h hClosed)
    show s.length ≤ s.length + 1 + e.length
    omega
  | case6 _ _ _ _ _ _ ih => exact Nat.lt_of_succ_lt (ih h hClosed)

/-- A string that is closed. The closing quote stands behind every escape, so no escape is cut
off. -/
theorem stringBody_take (quote : Char) (skip : Nat) (cs : List Char) (s : StringScan)
    (hOpen : s.closed = false) (hClosed : (stringBody quote skip cs s).closed) :
    ∀ n, (stringBody quote skip cs s).length + skip ≤ s.length + n →
      stringBody quote skip (cs.take n) s = stringBody quote skip cs s := by
  fun_induction stringBody quote skip cs s with
  | case1 => exact fun n _ => by rw [List.take_nil, stringBody]
  | case2 skip c rest s ih =>
    intro n h
    have hOver := length_stringBody quote skip rest s
    cases n with
    | zero => omega
    | succ n =>
      rw [List.take_succ_cons, stringBody]
      exact ih hOpen hClosed n (by omega)
  | case3 => rw [hOpen] at hClosed; cases hClosed
  | case4 c rest s hBreak hQuote =>
    intro n h
    have hLength : s.close.length = s.length + 1 := rfl
    cases n with
    | zero => omega
    | succ n => rw [List.take_succ_cons, stringBody, if_neg hBreak, if_pos hQuote]
  | case5 c rest s hBreak hQuote hEscape e ih =>
    intro n h
    -- the quote that closes the string comes after the escape, so a character after the escape is
    -- kept
    have hOver := length_of_closed quote e.length rest (s.pushEscape e) hOpen hClosed
    have hLength : (s.pushEscape e).length = s.length + 1 + e.length := rfl
    cases n with
    | zero => omega
    | succ n =>
      have hEscaped : Escape.read (rest.take n) = e := escape_take (show e.length < n by omega)
      rw [List.take_succ_cons, stringBody, if_neg hBreak, if_neg hQuote, if_pos hEscape, hEscaped]
      exact ih hOpen hClosed n (by omega)
  | case6 c rest s hBreak hQuote hEscape ih =>
    intro n h
    have hOver := length_stringBody quote 0 rest (s.push c)
    have hLength : (s.push c).length = s.length + 1 := rfl
    cases n with
    | zero => omega
    | succ n =>
      rw [List.take_succ_cons, stringBody, if_neg hBreak, if_neg hQuote, if_neg hEscape]
      exact ih hOpen hClosed n (by omega)

/-- A backslash that is the last character stays the last one. -/
theorem take_of_last (hLast : ∀ d tail, c = '\x5c' → rest = d :: tail → False) :
    c = '\x5c' → rest.take n = [] := by
  intro hc
  cases rest with
  | nil => exact List.take_nil
  | cons d tail => exact (hLast d tail hc rfl).elim

/-- So is a template. -/
theorem templateBody_take (cs : List Char) (s : TemplateScan) :
    ∀ n, (templateBody cs s).length ≤ s.length + n → templateBody (cs.take n) s =
      templateBody cs s := by
  -- along the scan; a pair of characters is kept as a pair
  fun_induction templateBody cs s with
  | case1 => exact fun n _ => by rw [List.take_nil, templateBody]
  | case2 tail s =>
    intro n h
    dsimp only at h
    cases n with
    | zero => omega
    | succ n => rfl
  | case3 tail s =>
    intro n h
    dsimp only at h
    obtain _ | _ | n := n
    · omega
    · omega
    · rfl
  | case4 c rest s ih =>
    intro n h
    have hOver :=
      length_templateBody rest { s with cooked := s.cooked.push c, length := s.length + 2 }
    dsimp only at hOver ih
    obtain _ | _ | n := n
    · omega
    · omega
    · exact ih n (by omega)
  | case5 c rest s hMark hDollar hEscape ih =>
    intro n h
    have hOver := length_templateBody rest { s with
      cooked := s.cooked.push c
      length := s.length + 1
      newline := s.newline || Text.isLineTerminator c }
    dsimp only at hOver ih
    cases n with
    | zero => omega
    | succ n =>
      rw [List.take_succ_cons, templateBody_plain s hMark]
      · exact ih n (by omega)
      · intro hc hBrace
        obtain ⟨tail, hTail⟩ := List.head?_eq_some_iff.mp (head_of_take hBrace)
        exact hDollar tail hc hTail
      · exact take_of_last hEscape

/-- So is a regular expression. -/
theorem regexpBody_take (inClass : Bool) (cs : List Char) (s : RegexpScan) :
    ∀ n, (regexpBody inClass cs s).length ≤ s.length + n →
      regexpBody inClass (cs.take n) s = regexpBody inClass cs s := by
  -- along the scan; a pair of characters is kept as a pair
  fun_induction regexpBody inClass cs s with
  | case1 => exact fun n _ => by rw [List.take_nil, regexpBody]
  | case2 inClass c rest s hBreak =>
    intro n h
    dsimp only at h
    obtain _ | _ | n := n
    · omega
    · rfl
    · rw [List.take_succ_cons, List.take_succ_cons, regexpBody, if_pos hBreak]
  | case3 inClass c rest s hBreak ih =>
    intro n h
    have hOver := length_regexpBody inClass rest
      { s with pattern := (s.pattern.push '\x5c').push c, length := s.length + 2 }
    dsimp only at hOver ih
    obtain _ | _ | n := n
    · omega
    · omega
    · rw [List.take_succ_cons, List.take_succ_cons, regexpBody, if_neg hBreak]
      exact ih n (by omega)
  | case4 inClass c rest s hEscape hBreak =>
    intro n _
    cases n with
    | zero => rfl
    | succ n =>
      rw [List.take_succ_cons, regexpBody_plain inClass s (take_of_last hEscape), if_pos hBreak]
  | case5 inClass c rest s hEscape hBreak hClose =>
    intro n h
    dsimp only at h
    cases n with
    | zero => omega
    | succ n =>
      rw [List.take_succ_cons, regexpBody_plain inClass s (take_of_last hEscape), if_neg hBreak,
        if_pos hClose]
  | case6 inClass c rest s hEscape hBreak hClose ih =>
    intro n h
    have hOver :=
      length_regexpBody (if c == '[' then true else if c == ']' then false else inClass) rest
      { s with pattern := s.pattern.push c, length := s.length + 1 }
    dsimp only at hOver ih
    cases n with
    | zero => omega
    | succ n =>
      rw [List.take_succ_cons, regexpBody_plain inClass s (take_of_last hEscape), if_neg hBreak,
        if_neg hClose]
      exact ih n (by omega)

/-- A comment that is closed, its closing mark included. -/
theorem commentBody_take (cs : List Char) (s : CommentScan) :
    ∀ n, (commentBody cs s).length + 2 ≤ s.length + n → commentBody (cs.take n) s =
      commentBody cs s := by
  fun_induction commentBody cs s with
  | case1 => exact fun n _ => by rw [List.take_nil, commentBody]
  | case2 tail s =>
    intro n h
    dsimp only at h
    obtain _ | _ | n := n
    · omega
    · omega
    · rfl
  | case3 c rest s hClose ih =>
    intro n h
    have hOver := length_commentBody rest { s with
      length := s.length + 1
      newline := s.newline || Text.isLineTerminator c }
    dsimp only at hOver ih
    cases n with
    | zero => omega
    | succ n =>
      rw [List.take_succ_cons, commentBody]
      · exact ih n (by omega)
      · exact fun tail hc => ne_cons_of_take (fun after hAfter => hClose after hc hAfter) tail

/-! ## Numbers -/

/-- The run on a text that is cut off. -/
def DigitRun.cut (run : DigitRun) (n : Nat) :
    DigitRun := { run with rest := run.rest.take (n - run.length) }

/-- The exponent on a text that is cut off. -/
def Exponent.cut (e : Exponent) (n : Nat) : Exponent :=
  { e with rest := e.rest.take (n - e.length) }

/-- The literal on a text that is cut off. -/
def NumberScan.cut (s : NumberScan) (n : Nat) :
    NumberScan := { s with rest := s.rest.take (n - s.length) }

/-- So is a run of digits. -/
theorem digitRun_take {accept : Char → Bool} (h : (digitRun accept cs).length ≤ n) :
    digitRun accept (cs.take n) = (digitRun accept cs).cut n := by
  obtain ⟨hRun, hRest⟩ := takeWhile_take h
  unfold digitRun
  dsimp only
  rw [hRun, hRest]
  rfl

/-- So is a fraction. -/
theorem readFraction_take (h : (readFraction cs).length ≤ n) :
    readFraction (cs.take n) = (readFraction cs).cut n := by
  unfold readFraction at h
  split at h
  · next rest =>
    cases n with
    | zero => cases h
    | succ n =>
      rw [List.take_succ_cons, readFraction, readFraction, digitRun_take (Nat.le_of_succ_le_succ h)]
      simp [DigitRun.cut]
  · next hPoint =>
    rw [readFraction.eq_2 _ (ne_cons_of_take hPoint), readFraction.eq_2 _ hPoint]
    rfl

/-- So is an exponent. -/
theorem readExponent_take (h : (readExponent cs).length ≤ n) :
    readExponent (cs.take n) = (readExponent cs).cut n := by
  cases cs with
  | nil => simp [readExponent, Exponent.cut]
  | cons c rest =>
    rw [readExponent] at h
    dsimp only at h
    split at h
    · next hLetter =>
      dsimp only at h
      cases n with
      | zero => omega
      | succ n =>
        have hNear {sign : Char} (hSign : sign = '-' ∨ sign = '+')
            (hHead : rest.head? == some sign) : 1 ≤ n := by
          have hSigned : (rest.head? == some '-' || rest.head? == some '+') = true := by
            rcases hSign with rfl | rfl
            · rw [hHead, Bool.true_or]
            · rw [hHead, Bool.or_true]
          rw [if_pos hSigned] at h
          omega
        rw [List.take_succ_cons, readExponent, readExponent, if_pos hLetter, if_pos hLetter,
          head_beq_take (hNear (.inl rfl)), head_beq_take (hNear (.inr rfl))]
        dsimp only
        split at h
        · next hSigned =>
          have hLeft : n - 1 - (digitRun Char.isDigit (rest.drop 1)).length =
              n + 1 - (1 + 1 + (digitRun Char.isDigit (rest.drop 1)).length) := by omega
          simp only [if_pos hSigned]
          rw [List.drop_take, digitRun_take (by omega)]
          simp only [DigitRun.cut, Exponent.cut, hLeft]
        · next hSigned =>
          have hLeft : n - (digitRun Char.isDigit rest).length =
              n + 1 - (1 + 0 + (digitRun Char.isDigit rest).length) := by omega
          simp only [if_neg hSigned]
          rw [digitRun_take (by omega)]
          simp only [DigitRun.cut, Exponent.cut, hLeft]
    · next hLetter =>
      cases n with
      | zero =>
        rw [readExponent, if_neg hLetter]
        rfl
      | succ n =>
        rw [List.take_succ_cons, readExponent, readExponent, if_neg hLetter, if_neg hLetter]
        rfl

/-- The radix is announced by two characters. -/
theorem radix_of_short (h : cs.length < 2) : radix? cs = none := by
  unfold radix?
  split
  · simp only [List.length_cons] at h
    omega
  · rfl

/-- Two characters tell the base of a number. -/
theorem radix_take (hNear : (radix? cs).isSome → 2 ≤ n) : radix? (cs.take n) = radix? cs := by
  -- a text of one character has no base
  by_cases hTwo : 2 ≤ n
  · obtain ⟨n, rfl⟩ := Nat.exists_eq_add_of_le' hTwo
    obtain _ | ⟨c, _ | ⟨d, rest⟩⟩ := cs
    · rw [List.take_nil]
    · rw [List.take_succ_cons, List.take_nil]
    · by_cases hZero : c = '0'
      · rw [hZero]
        rfl
      · have hNone (l : List Char) : radix? (c :: l) = none := by
          rw [radix?]
          exact fun _ _ hEq => (hZero (List.cons.inj hEq).1).elim
        rw [List.take_succ_cons, hNone, hNone]
  · have hShort : (cs.take n).length < 2 := by
      rw [List.length_take]
      omega
    rw [radix_of_short hShort, Option.not_isSome_iff_eq_none.mp fun hSome => hTwo (hNear hSome)]

/-- So is a number with a base. -/
theorem radixLiteral_take {radix : Nat} (h : (radixLiteral radix cs).length ≤ n) :
    radixLiteral radix (cs.take n) = (radixLiteral radix cs).cut n := by
  have hRun : (digitRun (isRadixDigit radix) (cs.drop 2)).length + 2 ≤ n := h
  unfold radixLiteral
  dsimp only
  rw [List.drop_take, digitRun_take (by omega)]
  simp only [DigitRun.cut, NumberScan.cut, Nat.sub_sub, Nat.add_comm 2]

/-- So is a number that begins with a zero. -/
theorem leadingZeroLiteral_take (h : (leadingZeroLiteral cs).length ≤ n) :
    leadingZeroLiteral (cs.take n) = (leadingZeroLiteral cs).cut n := by
  have hRun : (digitRun Char.isDigit cs).length ≤ n := h
  unfold leadingZeroLiteral
  dsimp only
  rw [digitRun_take hRun]
  rfl

/-- So is a decimal number, part by part. -/
theorem decimalLiteral_take (h : (decimalLiteral cs).length ≤ n) :
    decimalLiteral (cs.take n) = (decimalLiteral cs).cut n := by
  let whole := digitRun Char.isDigit cs
  let fraction := readFraction whole.rest
  let exponent := readExponent fraction.rest
  have hLength : whole.length + fraction.length + exponent.length ≤ n := h
  have hWhole : digitRun Char.isDigit (cs.take n) = whole.cut n :=
    digitRun_take (show whole.length ≤ n by omega)
  have hFraction : readFraction (whole.cut n).rest = fraction.cut (n - whole.length) :=
    readFraction_take (show fraction.length ≤ n - whole.length by omega)
  have hExponent : readExponent (fraction.cut (n - whole.length)).rest =
      exponent.cut (n - whole.length - fraction.length) :=
    readExponent_take (show exponent.length ≤ n - whole.length - fraction.length by omega)
  have hLeft : n - whole.length - fraction.length - exponent.length =
      n - (whole.length + fraction.length + exponent.length) := by omega
  unfold decimalLiteral
  dsimp only
  rw [hWhole, hFraction, hExponent]
  simp only [DigitRun.cut, Exponent.cut, NumberScan.cut, hLeft]
  rfl

/-- So is any number without what is appended to it. -/
theorem bareLiteral_take (h : (bareLiteral cs).length ≤ n) :
    bareLiteral (cs.take n) = (bareLiteral cs).cut n := by
  unfold bareLiteral at h ⊢
  have hRadix : radix? (cs.take n) = radix? cs := by
    refine radix_take fun hSome => ?_
    obtain ⟨radix, hRadix⟩ := Option.isSome_iff_exists.mp hSome
    rw [hRadix] at h
    exact Nat.le_trans (Nat.le_add_left 2 _) h
  rw [hRadix]
  cases hFound : radix? cs with
  | some radix =>
    rw [hFound] at h
    exact radixLiteral_take h
  | none =>
    rw [hFound] at h
    dsimp only at h ⊢
    -- a leading zero shows with the digit behind it
    by_cases hZero : (cs.head? == some '0' && (cs.drop 1).head?.any Char.isDigit) = true
    · rw [if_pos hZero] at h
      have hTwo : 2 ≤ n := by
        obtain ⟨hHead, hNext⟩ := Bool.and_eq_true_iff.mp hZero
        obtain ⟨tail, rfl⟩ := List.head?_eq_some_iff.mp (beq_iff_eq.mp hHead)
        obtain ⟨d, hd, hDigit⟩ := (Option.any_eq_true _ _).mp hNext
        obtain ⟨rest, rfl⟩ := List.head?_eq_some_iff.mp hd
        have hRun := length_digitRun hDigit rest
        have hWhole : (digitRun Char.isDigit ('0' :: d :: rest)).length =
            (digitRun Char.isDigit (d :: rest)).length + 1 := rfl
        have hLength : (digitRun Char.isDigit ('0' :: d :: rest)).length ≤ n := h
        omega
      have hShort :
          ((cs.take n).head? == some '0' && ((cs.take n).drop 1).head?.any Char.isDigit) =
          true := by
        rw [List.drop_take, head_take (by omega), head_take (by omega)]
        exact hZero
      rw [if_pos hShort, if_pos hZero]
      exact leadingZeroLiteral_take h
    · have hShort :
        ¬((cs.take n).head? == some '0' && ((cs.take n).drop 1).head?.any Char.isDigit) = true := by
        intro hBoth
        obtain ⟨hHead, hNext⟩ := Bool.and_eq_true_iff.mp hBoth
        rw [List.drop_take] at hNext
        refine hZero (Bool.and_eq_true_iff.mpr ⟨?_, head_any_of_take hNext⟩)
        rw [head_of_take (beq_iff_eq.mp hHead)]
        rfl
      rw [if_neg hZero] at h
      rw [if_neg hShort, if_neg hZero]
      exact decimalLiteral_take h

/-- The literal with a name that wrongly follows it. -/
def NumberScan.takeName (s : NumberScan) (length : Nat) (rest : List Char) : NumberScan :=
  if rest.head?.any isNameStart then
    { s with
      length := length + (rest.takeWhile isNamePart).length
      malformed := true
      rest := rest.dropWhile isNamePart }
  else { s with length, rest }

/-- A suffix may come first, then a name that does not belong there. -/
theorem NumberScan.finish_eq (s : NumberScan) :
    s.finish = if s.rest.head? == some 'n' && !s.literal.legacyOctal then
      s.takeName (s.length + 1) (s.rest.drop 1) else s.takeName s.length s.rest := by
  unfold finish takeName
  dsimp only
  split <;> rfl

/-- A name makes the number longer. -/
theorem NumberScan.length_takeName (s : NumberScan) (length : Nat) (rest : List Char) :
    length ≤ (s.takeName length rest).length := by
  unfold takeName
  split
  · exact Nat.le_add_right _ _
  · exact Nat.le_refl _

/-- So does what is appended. -/
theorem length_finish (s : NumberScan) : s.length ≤ s.finish.length := by
  rw [s.finish_eq]
  split
  · exact Nat.le_of_succ_le (s.length_takeName ..)
  · exact s.length_takeName ..

/-- A name is taken from a prefix that holds it. -/
theorem NumberScan.takeName_cut (s : NumberScan) {length : Nat}
    (h : (s.takeName length rest).length ≤ n) :
    (s.cut n).takeName length (rest.take (n - length)) = (s.takeName length rest).cut n := by
  unfold takeName at h
  split at h
  · next hStart =>
    have hName : (rest.takeWhile isNamePart).length ≤ n - length := by
      dsimp only at h
      omega
    have hShort : (rest.take (n - length)).head?.any isNameStart := by
      refine (head_any_take fun _ => Nat.le_trans ?_ hName).trans hStart
      obtain ⟨c, hHead, hc⟩ := (Option.any_eq_true _ _).mp hStart
      obtain ⟨tail, rfl⟩ := List.head?_eq_some_iff.mp hHead
      have hPart : isNamePart c := by
        rw [isNamePart, hc]
        rfl
      rw [List.takeWhile_cons_of_pos hPart]
      exact Nat.le_add_left 1 _
    obtain ⟨hRun, hRest⟩ := takeWhile_take hName
    unfold takeName
    rw [if_pos hStart, if_pos hShort, hRun, hRest, Nat.sub_sub]
    rfl
  · next hStart =>
    have hShort : ¬(rest.take (n - length)).head?.any isNameStart :=
      fun hAny => hStart (head_any_of_take hAny)
    unfold takeName
    rw [if_neg hStart, if_neg hShort]
    rfl

/-- So is all that is appended. -/
theorem NumberScan.finish_cut (s : NumberScan) (h : s.finish.length ≤ n) :
    (s.cut n).finish = s.finish.cut n := by
  rw [finish_eq] at h
  rw [finish_eq, finish_eq]
  split at h
  · next hSuffix =>
    have hGrown := s.length_takeName (s.length + 1) (s.rest.drop 1)
    have hShort : ((s.cut n).rest.head? == some 'n' && !(s.cut n).literal.legacyOctal) = true := by
      show ((s.rest.take (n - s.length)).head? == some 'n' && _) = true
      rw [head_take (by omega)]
      exact hSuffix
    rw [if_pos hShort, if_pos hSuffix, ← takeName_cut s h]
    show (s.cut n).takeName (s.length + 1) ((s.rest.take (n - s.length)).drop 1) = _
    rw [List.drop_take, Nat.sub_sub]
  · next hSuffix =>
    have hShort : ¬((s.cut n).rest.head? == some 'n' && !(s.cut n).literal.legacyOctal) = true := by
      intro hBoth
      obtain ⟨hHead, hLegacy⟩ := Bool.and_eq_true_iff.mp hBoth
      refine hSuffix (Bool.and_eq_true_iff.mpr ⟨?_, hLegacy⟩)
      rw [head_of_take (beq_iff_eq.mp hHead)]
      rfl
    rw [if_neg hShort, if_neg hSuffix, ← takeName_cut s h]
    rfl

/-- The length of a number is that of the literal with what is appended. -/
theorem length_scanNumber_eq (cs : List Char) :
    (scanNumber cs).length = (bareLiteral cs).finish.length := by
  unfold scanNumber
  dsimp only
  split <;> rfl

/-- The literal at the front of a text that is cut off behind it. -/
theorem scanNumber_take (h : (scanNumber cs).length ≤ n) :
    scanNumber (cs.take n) = (scanNumber cs).cut n := by
  have hFinish : (bareLiteral cs).finish.length ≤ n := length_scanNumber_eq cs ▸ h
  have hBare : (bareLiteral cs).length ≤ n := Nat.le_trans (length_finish _) hFinish
  unfold scanNumber
  dsimp only
  rw [bareLiteral_take hBare, NumberScan.finish_cut _ hFinish]
  show (if (bareLiteral cs).finish.malformed then _ else _) = _
  split <;> rfl

/-! ## Operators and delimiters -/

/-- The operator or delimiter that is found stands at the front. -/
theorem longestPunctuator_starts {p : Punctuator} (h : longestPunctuator? cs = some p) :
    p.spelling.toList <+: cs := by
  have hFound {p : Punctuator}
    (h : Punctuator.all.find? (·.spelling.toList.isPrefixOf cs) = some p) :
      p.spelling.toList <+: cs := by
    have hStarts := List.find?_some h
    exact List.isPrefixOf_iff_prefix.mp hStarts
  unfold longestPunctuator? at h
  split at h
  · next hChain =>
    have hTwo := hFound hChain
    split at h
    · obtain rfl := Option.some.inj h
      exact (List.prefix_append ['?'] ['.']).trans hTwo
    · obtain rfl := Option.some.inj h
      exact hTwo
  · exact hFound h

/-- No operator or delimiter is another one before its own end. -/
theorem longestPunctuator_spelling (p : Punctuator) :
    longestPunctuator? p.spelling.toList = some p := by
  cases p <;> decide

/-- The longest operator is the longest one of its own text. -/
theorem longestPunctuator_take {p : Punctuator} (h : longestPunctuator? cs = some p) :
    longestPunctuator? (cs.take p.spelling.length) = some p := by
  have hText := List.prefix_iff_eq_take.mp (longestPunctuator_starts h)
  rw [String.length_toList] at hText
  rw [← hText, longestPunctuator_spelling]

/-! ## Any token -/

variable {regexAllowed : Bool} {templates templates' : List Nat} {body : List Char}
  {kind : TokenKind}

/-- A scan that finds the same as another one, and as much of it. -/
structure Scan.Repeats (s' s : Scan) : Prop where
  length : s'.length = s.length
  scanned : s'.scanned = s.scanned

/-- A line comment repeats itself on its own text. -/
theorem scanLineComment_take (h : (scanLineComment templates body).length ≤ n + 2) :
    (scanLineComment templates' (body.take n)).Repeats (scanLineComment templates body) := by
  have hText := (takeWhile_take (p := (!Text.isLineTerminator ·)) (Nat.le_of_add_le_add_right h)).1
  unfold scanLineComment
  dsimp only
  rw [hText]
  exact ⟨rfl, rfl⟩

/-- So does a block comment. -/
theorem scanBlockComment_take (hScanned : (scanBlockComment templates body).scanned = .token kind)
    (h : (scanBlockComment templates body).length ≤ n + 2) :
    (scanBlockComment templates' (body.take n)).Repeats (scanBlockComment templates body) := by
  unfold scanBlockComment at hScanned h
  dsimp only at hScanned h
  split at hScanned
  · next hClosed =>
    rw [if_pos hClosed] at h
    have hBody : commentBody (body.take n) {} = commentBody body {} := by
      refine commentBody_take body {} n ?_
      dsimp only at h ⊢
      omega
    unfold scanBlockComment
    dsimp only at h ⊢
    rw [hBody, if_pos hClosed, if_pos hClosed, List.take_take, Nat.min_eq_left (by omega)]
    exact ⟨rfl, rfl⟩
  · cases hScanned

/-- So does a regular expression. -/
theorem scanRegexp_take (h : (scanRegexp templates body).length ≤ n + 1) :
    (scanRegexp templates' (body.take n)).Repeats (scanRegexp templates body) := by
  unfold scanRegexp at h
  dsimp only at h
  have hBody (hLength : (regexpBody false body {}).length ≤ n + 1) :
      regexpBody false (body.take n) {} = regexpBody false body {} := by
    refine regexpBody_take false body {} n ?_
    dsimp only
    omega
  unfold scanRegexp
  dsimp only
  split at h
  · next hClosed =>
    dsimp only at h
    have hOver := length_regexpBody false body {}
    dsimp only at hOver
    rw [hBody (by omega), if_pos hClosed, if_pos hClosed, List.drop_take,
      (takeWhile_take (by omega)).1]
    exact ⟨rfl, rfl⟩
  · next hClosed =>
    rw [hBody h, if_neg hClosed, if_neg hClosed]
    exact ⟨rfl, rfl⟩

/-- So does a part of a template. -/
theorem scanTemplate_take (closed opened : TemplatePart)
    (h : (scanTemplate templates closed opened body).length ≤ n + 1) :
    (scanTemplate templates' closed opened (body.take n)).Repeats
    (scanTemplate templates closed opened body) := by
  have hBody : templateBody (body.take n) {} = templateBody body {} := by
    refine templateBody_take body {} n ?_
    unfold scanTemplate at h
    dsimp only at h ⊢
    split at h <;> dsimp only at h <;> omega
  unfold scanTemplate
  dsimp only
  rw [hBody]
  split <;> exact ⟨rfl, rfl⟩

/-- So does a string without errors. -/
theorem scanString_take (quote : Char)
    (hScanned : (scanString templates quote body).scanned = .token kind)
    (h : (scanString templates quote body).length ≤ n + 1) :
    (scanString templates' quote (body.take n)).Repeats (scanString templates quote body) := by
  unfold scanString at hScanned h
  dsimp only at hScanned h
  split at hScanned
  · cases hScanned
  · next hClosed =>
    rw [if_neg hClosed] at h
    split at hScanned
    · cases hScanned
    · next hWell =>
      rw [hWell] at h
      have hBody : stringBody quote 0 (body.take n) { literal := { quote } } =
          stringBody quote 0 body { literal := { quote } } := by
        refine stringBody_take quote 0 body _ rfl (by simpa using hClosed) n ?_
        dsimp only at h ⊢
        omega
      unfold scanString
      dsimp only
      rw [hBody, if_neg hClosed, if_neg hClosed, hWell]
      exact ⟨rfl, rfl⟩

/-- So does a number. -/
theorem scanNumeric_take (h : (scanNumeric templates cs).length ≤ n) :
    (scanNumeric templates' (cs.take n)).Repeats (scanNumeric templates cs) := by
  have hLength : (scanNumber cs).length ≤ n := by
    unfold scanNumeric at h
    dsimp only at h
    split at h <;> exact h
  unfold scanNumeric
  dsimp only
  rw [scanNumber_take hLength]
  simp only [NumberScan.cut, List.take_take, Nat.min_eq_left hLength]
  split <;> exact ⟨rfl, rfl⟩

/-- So does a word. -/
theorem scanWord_take (h : (scanWord templates cs).length ≤ n) :
    (scanWord templates' (cs.take n)).Repeats (scanWord templates cs) := by
  have hBody : wordBody 0 (cs.take n) {} = wordBody 0 cs {} := by
    refine wordBody_take 0 cs {} n ?_
    unfold scanWord at h
    dsimp only at h ⊢
    split at h <;> dsimp only at h <;> omega
  unfold scanWord
  dsimp only
  rw [hBody]
  split <;> exact ⟨rfl, rfl⟩

/-- So does an operator, cut off right behind it. -/
theorem scanPunctuator_take (hScanned : (scanPunctuator templates c cs).scanned = .token kind) :
    (scanPunctuator templates' c (cs.take (scanPunctuator templates c cs).length)).Repeats
      (scanPunctuator templates c cs) := by
  unfold scanPunctuator at hScanned
  split at hScanned
  · next p hFound =>
    have hShort := longestPunctuator_take hFound
    unfold scanPunctuator
    rw [hFound]
    dsimp only
    rw [hShort]
    exact ⟨rfl, rfl⟩
  · cases hScanned

/-- What starts no comment starts none on a text that is cut off. -/
theorem mark_of_take {d : Char} (h : ¬(c == '/' && rest.head? == some d) = true) :
    ¬(c == '/' && (rest.take n).head? == some d) = true := by
  intro hShort
  obtain ⟨hSlash, hMark⟩ := Bool.and_eq_true_iff.mp hShort
  refine h (Bool.and_eq_true_iff.mpr ⟨hSlash, ?_⟩)
  rw [head_of_take (beq_iff_eq.mp hMark), beq_self_eq_true]

/-- A number that starts with a point takes the digit after it. -/
theorem two_le_scanNumber (h : rest.head?.any Char.isDigit) :
    2 ≤ (scanNumber ('.' :: rest)).length := by
  obtain ⟨d, hHead, hDigit⟩ := (Option.any_eq_true _ _).mp h
  obtain ⟨tail, rfl⟩ := List.head?_eq_some_iff.mp hHead
  have hRun := length_digitRun hDigit tail
  have hFraction :
      (readFraction ('.' :: d :: tail)).length =
      (digitRun Char.isDigit (d :: tail)).length + 1 := rfl
  have hBare : (bareLiteral ('.' :: d :: tail)).length =
      0 + (readFraction ('.' :: d :: tail)).length +
        (readExponent (readFraction ('.' :: d :: tail)).rest).length := rfl
  have hFinish := length_finish (bareLiteral ('.' :: d :: tail))
  rw [length_scanNumber_eq]
  omega

/-- What is recognised at the front of a text does not depend on what follows it, nor on what was
read before. -/
theorem scan_take (hScanned : (scan regexAllowed templates c rest).scanned = .token kind)
    (hAlone : kind.standsAlone) (h : (scan regexAllowed templates c rest).length = n + 1) :
    (scan true [] c (rest.take n)).Repeats (scan regexAllowed templates c rest) := by
  unfold scan at hScanned h ⊢
  by_cases hLine : (c == '/' && rest.head? == some '/') = true
  · rw [if_pos hLine] at hScanned h ⊢
    have hNear : 1 ≤ n := by
      simp only [scanLineComment] at h
      omega
    rw [head_take hNear, if_pos hLine, List.drop_take]
    exact scanLineComment_take (by omega)
  rw [if_neg hLine] at hScanned h ⊢
  rw [if_neg (mark_of_take hLine)]
  by_cases hBlock : (c == '/' && rest.head? == some '*') = true
  · rw [if_pos hBlock] at hScanned h ⊢
    have hNear : 1 ≤ n := by
      unfold scanBlockComment at h
      dsimp only at h
      split at h <;> dsimp only at h <;> omega
    rw [head_take hNear, if_pos hBlock, List.drop_take]
    exact scanBlockComment_take hScanned (by omega)
  rw [if_neg hBlock] at hScanned h ⊢
  rw [if_neg (mark_of_take hBlock)]
  by_cases hSlash : c = '/'
  · subst hSlash
    cases regexAllowed with
    | true => exact scanRegexp_take (Nat.le_of_eq h)
    | false =>
      -- a slash that starts no regular expression divides, and a division does not stand alone
      obtain ⟨p, hFound, hDivides⟩ := longestPunctuator_slash rest
      have hSame : (scanPunctuator templates '/' ('/' :: rest)).scanned = .token kind := hScanned
      rw [scanPunctuator, hFound] at hSame
      cases hSame
      rcases hDivides with rfl | rfl <;> cases hAlone
  have hNoSlash (regexAllowed : Bool) : ¬(c == '/' && regexAllowed) = true := by simp [hSlash]
  rw [if_neg (hNoSlash _)] at hScanned h ⊢
  rw [if_neg (hNoSlash _)]
  by_cases hTemplate : (c == '\x60') = true
  · rw [if_pos hTemplate] at hScanned h ⊢
    rw [if_pos hTemplate]
    exact scanTemplate_take _ _ (Nat.le_of_eq h)
  rw [if_neg hTemplate] at hScanned h ⊢
  rw [if_neg hTemplate]
  -- where no substitution is open a brace is a brace, so what a brace went on with does not stand
  -- alone
  by_cases hLater : (c == '\x7d' && templates.head? == some 0) = true
  · rw [if_pos hLater] at hScanned
    unfold scanTemplate at hScanned
    dsimp only at hScanned
    split at hScanned <;> cases hScanned <;> cases hAlone
  rw [if_neg hLater] at hScanned h ⊢
  rw [if_neg (by simp : ¬(c == '\x7d' && ([] : List Nat).head? == some 0) = true)]
  by_cases hString : (c == '\x22' || c == '\x27') = true
  · rw [if_pos hString] at hScanned h ⊢
    rw [if_pos hString]
    exact scanString_take c hScanned (Nat.le_of_eq h)
  rw [if_neg hString] at hScanned h ⊢
  rw [if_neg hString]
  by_cases hNumber : (c.isDigit || (c == '.' && rest.head?.any Char.isDigit)) = true
  · rw [if_pos hNumber] at hScanned h ⊢
    have hShort : (c.isDigit || (c == '.' && (rest.take n).head?.any Char.isDigit)) = true := by
      rcases Bool.or_eq_true_iff.mp hNumber with hDigit | hPoint
      · rw [hDigit, Bool.true_or]
      · -- the digit after the point is part of the number, so it is kept
        obtain ⟨hDot, hDigit⟩ := Bool.and_eq_true_iff.mp hPoint
        obtain rfl := beq_iff_eq.mp hDot
        have hTwo : 2 ≤ n + 1 := by
          refine Nat.le_trans (two_le_scanNumber hDigit) (Nat.le_of_eq (Eq.trans ?_ h))
          unfold scanNumeric
          dsimp only
          split <;> rfl
        rw [head_take (Nat.le_of_succ_le_succ hTwo)]
        exact hNumber
    rw [if_pos hShort, ← List.take_succ_cons]
    exact scanNumeric_take (Nat.le_of_eq h)
  have hShort : ¬(c.isDigit || (c == '.' && (rest.take n).head?.any Char.isDigit)) = true := by
    intro hShort
    refine hNumber
      (Bool.or_eq_true_iff.mpr ((Bool.or_eq_true_iff.mp hShort).imp_right fun hPoint => ?_))
    obtain ⟨hDot, hDigit⟩ := Bool.and_eq_true_iff.mp hPoint
    exact Bool.and_eq_true_iff.mpr ⟨hDot, head_any_of_take hDigit⟩
  rw [if_neg hNumber] at hScanned h ⊢
  rw [if_neg hShort]
  by_cases hWord : (isNameStart c || c == '\x5c') = true
  · rw [if_pos hWord] at hScanned h ⊢
    rw [if_pos hWord, ← List.take_succ_cons]
    exact scanWord_take (Nat.le_of_eq h)
  rw [if_neg hWord] at hScanned h ⊢
  -- only here does the exact length count: a question mark is kept without the point after it
  rw [if_neg hWord, ← List.take_succ_cons, ← h]
  exact scanPunctuator_take hScanned

/-! ## Reading the text of a token -/

variable {l : Lexer} {s : Scan} {t : Token}

/-- What was scanned as a token is read as one, with the characters that the scanner took. -/
theorem ok_of_scanned (hFits : s.length ≤ l.cursor.rest.length)
    (hScanned : s.scanned = .token kind) :
    ∃ t, (l.read s).1 = .ok t ∧ t.kind = kind ∧ t.raw =
      String.ofList (l.cursor.rest.take s.length) := by
  have hOffset : (l.consume s).offset - l.cursor.offset = s.length := by
    show (l.cursor.advance s.length).offset - l.cursor.offset = s.length
    rw [offset_advance_of_le hFits, Nat.add_sub_cancel_left]
  unfold read
  rw [hScanned]
  refine ⟨_, rfl, kind_finish .., ?_⟩
  unfold finish
  dsimp only
  split <;> rw [hOffset]

/-- A token that is read without an error is what was scanned, with its text. -/
theorem scanned_of_ok (hFits : s.length ≤ l.cursor.rest.length) (h : (l.read s).1 = .ok t) :
    s.scanned = .token t.kind ∧ t.raw = String.ofList (l.cursor.rest.take s.length) := by
  cases hScanned : s.scanned with
  | token kind =>
    obtain ⟨u, hu, hKind, hRaw⟩ := ok_of_scanned hFits hScanned
    obtain rfl := Except.ok.inj (hu.symm.trans h)
    exact ⟨congrArg _ hKind.symm, hRaw⟩
  | failure problem offset recovered =>
    unfold read at h
    rw [hScanned] at h
    cases recovered <;> cases h

/-- A token that is not the end of input was recognised at the front of what is left past the white
space. -/
theorem scan_of_next (h : l.next.1 = .ok t) (hKind : t.kind ≠ .endOfInput) :
    ∃ c rest regexAllowed templates, isSkipped c = false ∧
      (scan regexAllowed templates c rest).scanned = .token t.kind ∧
      t.raw = String.ofList ((c :: rest).take (scan regexAllowed templates c rest).length) := by
  cases hRest : l.skipBlank.cursor.rest with
  | nil =>
    rw [next_of_nil hRest] at h
    refine absurd ?_ hKind
    rw [← Except.ok.inj h, kind_finish]
  | cons c rest =>
    have hHead := List.head?_dropWhile_not isSkipped l.cursor.rest
    rw [← rest_skipBlank, hRest] at hHead
    have hFits : (scan l.skipBlank.regexAllowed l.skipBlank.templates c rest).length ≤
        l.skipBlank.cursor.rest.length := hRest ▸ scan_fits ..
    rw [next_of_cons hRest] at h
    obtain ⟨hScanned, hRaw⟩ := scanned_of_ok hFits h
    rw [hRest] at hRaw
    exact ⟨c, rest, _, _, hHead, hScanned, hRaw⟩

/-- A hash starts no token. -/
theorem ne_hash_of_scan (hScanned : (scan regexAllowed templates c rest).scanned = .token kind) :
    c ≠ '#' := by
  rintro rfl
  have hNone : longestPunctuator? ('#' :: rest) = none := by
    cases hFound : longestPunctuator? ('#' :: rest) with
    | none => rfl
    | some p =>
      obtain ⟨tail, hTail⟩ := longestPunctuator_starts hFound
      have hHead : p.spelling.toList = [] ∨ p.spelling.toList.head? = some '#' := by
        cases hSpelling : p.spelling.toList with
        | nil => exact .inl rfl
        | cons d word =>
          rw [hSpelling] at hTail
          exact .inr (congrArg some (List.cons.inj hTail).1)
      exfalso
      revert hHead
      cases p <;> decide
  have hScan :
      scan regexAllowed templates '#' rest = scanPunctuator templates '#' ('#' :: rest) := by
    have hName : isNameStart '#' = false := by decide +kernel
    unfold scan
    rw [hName]
    rfl
  rw [hScan, scanPunctuator, hNone] at hScanned
  cases hScanned

/-- A text that starts with neither white space nor a hash is read from its first character on. -/
theorem next_ofSource (hSkipped : isSkipped c = false) (hHash : c ≠ '#') (rest : List Char) :
    (ofSource (String.ofList (c :: rest))).next =
      Lexer.read { cursor := { rest := c :: rest } } (scan true [] c rest) := by
  have hStart : ofSource (String.ofList (c :: rest)) = { cursor := { rest := c :: rest } } := by
    unfold ofSource
    rw [String.toList_ofList]
    dsimp only
    split
    · next hMark => exact absurd (List.cons.inj hMark).1 hHash
    · rfl
  have hBlank : (ofSource (String.ofList (c :: rest))).skipBlank =
      { cursor := { rest := c :: rest } } := by
    rw [hStart]
    unfold skipBlank
    dsimp only
    rw [List.takeWhile_cons_of_neg (Bool.eq_false_iff.mp hSkipped)]
    rfl
  have hRest : (ofSource (String.ofList (c :: rest))).skipBlank.cursor.rest = c :: rest :=
    congrArg (·.cursor.rest) hBlank
  rw [next_of_cons hRest, hBlank]

/-- The text of a token of a source, read by itself, is that token again, and then the input
ends. -/
theorem relexing (source : String) (steps : Nat) (t : Token)
    (hToken : resultAt source steps = .ok t) (hAlone : t.kind.standsAlone) :
    (∃ again, resultAt t.raw 0 = .ok again ∧ again.kind = t.kind ∧ again.raw = t.raw) ∧
      ∃ last, resultAt t.raw 1 = .ok last ∧ last.kind = .endOfInput := by
  -- the end of input does not stand alone
  have hKind : t.kind ≠ .endOfInput := by
    intro hEnd
    rw [hEnd] at hAlone
    cases hAlone
  obtain ⟨c, rest, regexAllowed, templates, hSkipped, hScanned, hRaw⟩ := scan_of_next hToken hKind
  obtain ⟨n, hLength⟩ := Nat.exists_eq_add_of_le' (length_scan regexAllowed templates c rest)
  rw [hLength, List.take_succ_cons] at hRaw
  have hFits := scan_fits regexAllowed templates c rest
  -- the text of the token is scanned to its end, and nothing is left behind it
  obtain ⟨hSameLength, hSame⟩ := scan_take hScanned hAlone hLength
  have hNext := next_ofSource hSkipped (ne_hash_of_scan hScanned) (rest.take n)
  have hTaken : (scan true [] c (rest.take n)).length = (c :: rest.take n).length := by
    rw [hSameLength, hLength, List.length_cons, List.length_take]
    omega
  obtain ⟨again, hAgain, hSameKind, hSameRaw⟩ := ok_of_scanned
    (l := { cursor := { rest := c :: rest.take n } }) (Nat.le_of_eq hTaken) (hSame.trans hScanned)
  refine ⟨⟨again, ?_, hSameKind, ?_⟩, ?_⟩
  · rw [hRaw]
    show (ofSource (String.ofList (c :: rest.take n))).next.1 = .ok again
    rw [hNext, hAgain]
  · rw [hSameRaw, hRaw, hTaken]
    exact congrArg String.ofList List.take_length
  · rw [hRaw]
    show ∃ last, (ofSource (String.ofList (c :: rest.take n))).next.2.next.1 = .ok last ∧ _
    have hRest : (ofSource (String.ofList (c :: rest.take n))).next.2.cursor.rest = [] := by
      rw [hNext, cursor_read, Cursor.rest_advance, hTaken]
      exact List.drop_length
    have hBlank :
        (ofSource (String.ofList (c :: rest.take n))).next.2.skipBlank.cursor.rest = [] := by
      rw [rest_skipBlank, hRest]
      rfl
    rw [next_of_nil hBlank]
    exact ⟨_, rfl, kind_finish ..⟩

/-- A question mark before a point and a digit stands alone, as it does by itself. -/
theorem relexing_question : ∃ t, resultAt "a?.5:1" 1 = .ok t ∧ t.kind.standsAlone =
    true ∧ t.raw = "?" ∧
    (∃ again, resultAt t.raw 0 = .ok again ∧ again.kind = t.kind ∧ again.raw = t.raw) ∧
      ∃ last, resultAt t.raw 1 = .ok last ∧ last.kind = .endOfInput := by
  have hRead :
      (resultAt "a?.5:1" 1).toOption.any (fun t => t.kind.standsAlone && t.raw == "?") = true := by
    decide +kernel
  obtain ⟨t, hToken, hBoth⟩ := (Option.any_eq_true _ _).mp hRead
  obtain ⟨hAlone, hRaw⟩ := Bool.and_eq_true_iff.mp hBoth
  have hOk : resultAt "a?.5:1" 1 = .ok t := by
    cases hResult : resultAt "a?.5:1" 1 with
    | ok u =>
      rw [hResult] at hToken
      exact congrArg Except.ok (Option.some.inj hToken)
    | error e =>
      rw [hResult] at hToken
      cases hToken
  exact ⟨t, hOk, hAlone, beq_iff_eq.mp hRaw, relexing _ _ t hOk hAlone⟩

end Lexer

end ScriptLint
