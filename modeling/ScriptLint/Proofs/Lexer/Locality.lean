import ScriptLint.Proofs.Lexer.Newline

/-!
# Tokens do not look beyond a gap

A scanner that stops before a semicolon or a space has not been told what comes after it: on another
text that agrees up to there and goes on with a semicolon or a space it finds the same. A slash that
the token does not touch will do as well.

- `Alike`: texts that agree up to a gap.
- `scan_local`: a token that ends before the gap is the same in both texts.
- `scan_punctuator`: an operator or a delimiter never reaches over a gap.
-/

namespace ScriptLint.Lexer

/-- A semicolon or a space, and a slash where slashes count. -/
def isGap (slash : Bool) (c : Char) : Bool := c == ';' || c == ' ' || c == '/' && slash

/-- Texts that agree in `n` characters, after which both go on with a gap. -/
inductive Alike (slash : Bool) : Nat → List Char → List Char → Prop
  | gap {c c' : Char} (hc : isGap slash c) (hc' : isGap slash c') (rest rest' : List Char) :
    Alike slash 0 (c :: rest) (c' :: rest')
  | cons (c : Char) {n : Nat} {rest rest' : List Char} :
    Alike slash n rest rest' → Alike slash (n + 1) (c :: rest) (c :: rest')

variable {slash : Bool}

/-- The characters a gap may begin with. -/
theorem eq_of_isGap {c : Char} (h : isGap slash c) : c = ';' ∨ c = ' ' ∨ c = '/' ∧ slash := by
  simpa [isGap, or_assoc] using h

/-- A test that the gaps fail. -/
structure FailsAtGap (slash : Bool) (p : Char → Bool) : Prop where
  semicolon : p ';' = false := by rfl
  space : p ' ' = false := by rfl
  mark : slash → p '/' = false := by exact fun _ => rfl

/-- What fails at a gap fails at each of its characters. -/
theorem FailsAtGap.apply {p : Char → Bool} (hp : FailsAtGap slash p) {c : Char}
    (hc : isGap slash c) : p c = false := by
  obtain rfl | rfl | ⟨rfl, hSlash⟩ := eq_of_isGap hc
  · exact hp.semicolon
  · exact hp.space
  · exact hp.mark hSlash

theorem isNamePart_fails : FailsAtGap slash isNamePart :=
  ⟨by decide +kernel, by decide +kernel, fun _ => by decide +kernel⟩

theorem isNameStart_fails : FailsAtGap slash isNameStart :=
  ⟨by decide +kernel, by decide +kernel, fun _ => by decide +kernel⟩

/-- A character that may not begin a gap differs from all that may. -/
theorem beq_fails {d : Char} (h : isGap slash d = false) : FailsAtGap slash (· == d) := by
  have hd : ¬(d = ';' ∨ d = ' ' ∨ d = '/' ∧ slash = true) := by simpa [isGap, and_assoc] using h
  refine ⟨?_, ?_, fun hSlash => ?_⟩
  · exact beq_eq_false_iff_ne.mpr fun hEq => hd (.inl hEq.symm)
  · exact beq_eq_false_iff_ne.mpr fun hEq => hd (.inr (.inl hEq.symm))
  · exact beq_eq_false_iff_ne.mpr fun hEq => hd (.inr (.inr ⟨hEq.symm, hSlash⟩))

namespace Alike

variable {n : Nat} {cs cs' : List Char}

/-- Alikeness is symmetric. -/
theorem symm (h : Alike slash n cs cs') : Alike slash n cs' cs := by
  induction h with
  | gap hc hc' rest rest' => exact .gap hc' hc _ _
  | cons c _ ih => exact .cons c ih

/-- Tests that fail at a gap look at the same first character. -/
theorem head_any (h : Alike slash n cs cs') {p : Char → Bool} (hp : FailsAtGap slash p) :
    cs'.head?.any p = cs.head?.any p := by
  cases h with
  | gap hc hc' rest rest' => exact (hp.apply hc').trans (hp.apply hc).symm
  | cons c _ => rfl

theorem head_beq (h : Alike slash n cs cs') {d : Char} (hd : isGap slash d = false) :
    (cs'.head? == some d) = (cs.head? == some d) := by
  have hAny (l : List Char) : (l.head? == some d) = l.head?.any (· == d) := by
    cases l <;> rfl
  rw [hAny, hAny]
  exact h.head_any (beq_fails hd)

/-- What is no gap stands before the gap. -/
theorem pos (h : Alike slash n cs cs') {d : Char} (hd : isGap slash d = false)
    (hHead : cs.head? == some d) : 1 ≤ n := by
  cases h with
  | @gap c _ hc _ _ _ =>
    obtain rfl : c = d := Option.some.inj (beq_iff_eq.mp hHead)
    rw [hd] at hc
    cases hc
  | cons => omega

/-- A text that does not start with the gap. -/
theorem head_of_pos (h : Alike slash n cs cs') (hn : 1 ≤ n) : cs'.head? = cs.head? := by
  cases h with
  | gap => cases hn
  | cons => rfl

/-- The gap is there. -/
theorem lt_length (h : Alike slash n cs cs') : n < cs.length := by
  induction h with
  | gap => exact Nat.succ_pos _
  | cons c _ ih => exact Nat.succ_lt_succ ih

/-- Up to the gap the texts are the same. -/
theorem take (h : Alike slash n cs cs') {count : Nat} (hCount : count ≤ n) :
    cs'.take count = cs.take count := by
  induction h generalizing count with
  | gap =>
    rw [Nat.le_zero.mp hCount]
    rfl
  | cons c _ ih =>
    cases count with
    | zero => rfl
    | succ count => rw [List.take_succ_cons, List.take_succ_cons, ih (by omega)]

/-- Texts stay alike when both lose what they share. -/
theorem drop (h : Alike slash n cs cs') {count : Nat} (hCount : count ≤ n) :
    Alike slash (n - count) (cs.drop count) (cs'.drop count) := by
  induction h generalizing count with
  | gap hc hc' rest rest' =>
    rw [Nat.le_zero.mp hCount]
    exact .gap hc hc' _ _
  | @cons c n rest rest' hRest ih =>
    cases count with
    | zero => exact .cons c hRest
    | succ count =>
      rw [Nat.add_sub_add_right]
      exact ih (by omega)

/-- A run of characters that ends at a gap at the latest. -/
theorem run (h : Alike slash n cs cs') {p : Char → Bool} (hp : FailsAtGap slash p) :
    cs'.takeWhile p = cs.takeWhile p ∧ (cs.takeWhile p).length ≤ n ∧
      Alike slash (n - (cs.takeWhile p).length) (cs.dropWhile p) (cs'.dropWhile p) := by
  induction h with
  | gap hc hc' rest rest' =>
    have hHere := hp.apply hc
    have hThere := hp.apply hc'
    simp only [List.takeWhile_cons, List.dropWhile_cons, hHere, hThere,
      Bool.false_eq_true, if_false]
    exact ⟨trivial, Nat.le_refl 0, .gap hc hc' _ _⟩
  | @cons c n rest rest' hRest ih =>
    obtain ⟨hTake, hLength, hDrop⟩ := ih
    by_cases hc : p c = true
    · simp only [List.takeWhile_cons, List.dropWhile_cons, hc, if_true, List.length_cons,
        Nat.add_sub_add_right]
      exact ⟨by rw [hTake], by omega, hDrop⟩
    · simp only [List.takeWhile_cons, List.dropWhile_cons, hc, if_false, Bool.false_eq_true]
      exact ⟨trivial, Nat.zero_le _, .cons c hRest⟩

/-- A run of characters that goes on over gaps but ends before this one. -/
theorem takeWhile (h : Alike slash n cs cs') {p : Char → Bool}
    (hp : ∀ c, isGap slash c → p c = true)
    (hLength : (cs.takeWhile p).length ≤ n) : cs'.takeWhile p = cs.takeWhile p := by
  induction h with
  | @gap c _ hc hc' rest rest' =>
    rw [List.takeWhile_cons_of_pos (hp c hc)] at hLength
    cases hLength
  | cons c _ ih =>
    by_cases hc : p c = true
    · rw [List.takeWhile_cons_of_pos hc] at hLength ⊢
      rw [List.takeWhile_cons_of_pos hc, ih (Nat.le_of_succ_le_succ hLength)]
    · rw [List.takeWhile_cons_of_neg hc, List.takeWhile_cons_of_neg hc]

end Alike

/-! ## Escapes -/

/-- No hexadecimal digit begins a gap. -/
theorem hexValue_gap {c : Char} (hc : isGap slash c) : Text.hexValue? c = none := by
  obtain rfl | rfl | ⟨rfl, -⟩ := eq_of_isGap hc <;> rfl

theorem octalValue_gap {c : Char} (hc : isGap slash c) : Text.octalValue? c = none := by
  obtain rfl | rfl | ⟨rfl, -⟩ := eq_of_isGap hc <;> rfl

variable {n : Nat} {cs cs' : List Char}

/-- Hexadecimal digits end at the gap at the latest. -/
theorem hexDigits_local (count code : Nat) (h : Alike slash n cs cs') :
    hexDigits count code cs' = hexDigits count code cs ∧ (hexDigits count code cs).length ≤ n := by
  -- on what the texts share
  induction h generalizing count code with
  | gap hc hc' rest rest' =>
    cases count with
    | zero => exact ⟨rfl, Nat.le_refl 0⟩
    | succ count =>
      rw [hexDigits, hexDigits, hexValue_gap hc, hexValue_gap hc']
      exact ⟨rfl, Nat.le_refl 0⟩
  | cons c _ ih =>
    cases count with
    | zero => exact ⟨rfl, Nat.zero_le _⟩
    | succ count =>
      rw [hexDigits, hexDigits]
      cases Text.hexValue? c with
      | none => exact ⟨rfl, Nat.zero_le _⟩
      | some digit =>
        obtain ⟨hEq, hLength⟩ := ih count (code * 16 + digit)
        dsimp only
        rw [hEq]
        exact ⟨rfl, by omega⟩

/-- So do digits in braces. -/
theorem bracedDigits_local (code : Nat) (any : Bool) (h : Alike slash n cs cs') :
    bracedDigits code any cs' = bracedDigits code any cs ∧
      (bracedDigits code any cs).length ≤ n := by
  -- on what the texts share
  induction h generalizing code any with
  | gap hc hc' rest rest' =>
    rw [bracedDigits, bracedDigits, hexValue_gap hc, hexValue_gap hc']
    have hBrace {d : Char} (hd : isGap slash d) : (d == '\x7d') = false := (beq_fails rfl).apply hd
    dsimp only
    rw [hBrace hc, hBrace hc', Bool.and_false]
    exact ⟨rfl, Nat.le_refl 0⟩
  | cons c _ ih =>
    rw [bracedDigits, bracedDigits]
    cases Text.hexValue? c with
    | none =>
      dsimp only
      split
      · exact ⟨rfl, by simp⟩
      · exact ⟨rfl, Nat.zero_le _⟩
    | some digit =>
      obtain ⟨hEq, hLength⟩ := ih (code * 16 + digit) true
      dsimp only
      split
      · rw [hEq]
        exact ⟨rfl, by simpa using hLength⟩
      · exact ⟨rfl, Nat.zero_le _⟩

/-- So does the escape of a code point. -/
theorem unicodeEscape_local (h : Alike slash n cs cs') :
    unicodeEscape cs' = unicodeEscape cs ∧ (unicodeEscape cs).length ≤ n := by
  -- without a brace four digits are expected
  have hPlain (l : List Char) (hl : ∀ rest, l ≠ '\x7b' :: rest) :
      unicodeEscape l = hexDigits 4 0 l := by
    rw [unicodeEscape]
    exact fun rest hEq => hl rest hEq
  have hGap {d : Char} (hd : isGap slash d) (l rest : List Char) : d :: l ≠ '\x7b' :: rest := by
    rintro hEq
    rw [(List.cons.inj hEq).1] at hd
    cases hd
  cases h with
  | gap hc hc' rest rest' =>
    rw [hPlain _ (hGap hc _), hPlain _ (hGap hc' _)]
    exact hexDigits_local 4 0 (.gap hc hc' rest rest')
  | @cons c n rest rest' hRest =>
    by_cases hc : c = '\x7b'
    · subst hc
      obtain ⟨hEq, hLength⟩ := bracedDigits_local 0 false hRest
      rw [unicodeEscape, unicodeEscape, hEq]
      exact ⟨rfl, by simpa using hLength⟩
    · have hOther (l rest : List Char) : c :: l ≠ '\x7b' :: rest :=
        fun hEq => hc (List.cons.inj hEq).1
      rw [hPlain _ (hOther _), hPlain _ (hOther _)]
      exact hexDigits_local 4 0 (.cons c hRest)

/-- So do octal digits. -/
theorem octalDigits_local (code : Nat) (h : Alike slash n cs cs') :
    octalDigits code cs' = octalDigits code cs ∧ (octalDigits code cs).2 ≤ n := by
  -- on what the texts share
  induction h generalizing code with
  | gap hc hc' rest rest' =>
    rw [octalDigits, octalDigits, octalValue_gap hc, octalValue_gap hc']
    exact ⟨rfl, Nat.le_refl 0⟩
  | cons c _ ih =>
    rw [octalDigits, octalDigits]
    cases Text.octalValue? c with
    | none => exact ⟨rfl, Nat.zero_le _⟩
    | some digit =>
      obtain ⟨hEq, hLength⟩ := ih (code * 8 + digit)
      dsimp only
      split
      · rw [hEq]
        exact ⟨rfl, by simpa using hLength⟩
      · exact ⟨rfl, Nat.zero_le _⟩

/-- The characters for which an escape has a case of its own. -/
def specialEscapes : List Char := ['n', 't', 'r', 'b', 'f', 'v', 'x', 'u', '\r']

/-- An escape that is not special is a line end, an octal escape or a character. -/
theorem escape_other {c : Char} (h : c ∉ specialEscapes) (l : List Char) : Escape.read (c :: l) =
    if Text.isLineTerminator c then { length := 1, continued := true }
    else if c == '0' && !(l.head?.any Char.isDigit) then { length := 1, text := ['\x00'] }
    else match Text.octalValue? c with
      | some digit =>
        let (code, length) := octalDigits digit l
        { length := length + 1, text := (Text.scalar? code).toList, octal := true }
      | none => { length := 1, text := [c] } := by
  simp only [specialEscapes, List.mem_cons, List.not_mem_nil, or_false, not_or] at h
  rewrite [Escape.read]
  · rfl
  all_goals simp_all

/-- What an escape in a string stands for is decided before the next gap. -/
theorem escape_local (c : Char) (h : Alike slash n cs cs') :
    Escape.read (c :: cs') = Escape.read (c :: cs) := by
  by_cases hSpecial : c ∈ specialEscapes
  · have hReturn (d : Char) (hd : d ≠ '\n') (l : List Char) :
        Escape.read ('\r' :: d :: l) = { length := 1, continued := true } := by
      simp [Escape.read, hd, Text.isLineTerminator]
    have hGap {d : Char} (hd : isGap slash d) : d ≠ '\n' := by
      rintro rfl
      cases hd
    simp only [specialEscapes, List.mem_cons, List.not_mem_nil, or_false] at hSpecial
    rcases hSpecial with rfl | rfl | rfl | rfl | rfl | rfl | rfl | rfl | rfl
    -- the letters that stand for one character each need nothing after them
    iterate 6 rfl
    · rw [Escape.read, Escape.read, (hexDigits_local 2 0 h).1]
    · rw [Escape.read, Escape.read, (unicodeEscape_local h).1]
    · cases h with
      | gap hc hc' rest rest' => rw [hReturn _ (hGap hc), hReturn _ (hGap hc')]
      | cons d hRest =>
        by_cases hd : d = '\n'
        · rw [hd]
          rfl
        · rw [hReturn d hd, hReturn d hd]
  · have hDigit := h.head_any (p := Char.isDigit) {}
    have hOctal (code : Nat) := (octalDigits_local code h).1
    rw [escape_other hSpecial, escape_other hSpecial, hDigit]
    simp only [hOctal]

/-! ## Words -/

/-- The escape in a name ends at the gap. -/
theorem nameEscape_local (h : Alike slash n cs cs') :
    nameEscape cs' = nameEscape cs ∧ (nameEscape cs).length ≤ n := by
  -- only `u` begins an escape in a name
  have hOther (l : List Char) (hl : ∀ rest, l ≠ 'u' :: rest) : nameEscape l = ⟨none, 0⟩ := by
    rw [nameEscape]
    exact hl
  cases h with
  | gap hc hc' rest rest' =>
    have hGap {d : Char} (hd : isGap slash d) (l rest : List Char) : d :: l ≠ 'u' :: rest := by
      intro hEq
      rw [(List.cons.inj hEq).1] at hd
      cases hd
    rw [hOther _ (hGap hc _), hOther _ (hGap hc' _)]
    exact ⟨rfl, Nat.le_refl 0⟩
  | @cons c n rest rest' hRest =>
    by_cases hc : c = 'u'
    · subst hc
      obtain ⟨hEq, hLength⟩ := unicodeEscape_local hRest
      rw [nameEscape, nameEscape, hEq]
      exact ⟨rfl, by simpa using hLength⟩
    · have hWord (l rest : List Char) : c :: l ≠ 'u' :: rest := fun hEq => hc (List.cons.inj hEq).1
      rw [hOther _ (hWord _), hOther _ (hWord _)]
      exact ⟨rfl, Nat.zero_le _⟩

/-- A word ends at a gap at the latest. -/
theorem wordBody_local {skip : Nat} (hSkip : skip ≤ n) (s : WordScan) (h : Alike slash n cs cs') :
    wordBody skip cs' s = wordBody skip cs s ∧
      (wordBody skip cs s).length ≤ s.length + (n - skip) := by
  -- on what the texts share; characters of an escape are skipped
  induction h generalizing skip s with
  | gap hc hc' rest rest' =>
    have hGap {d : Char} (hd : isGap slash d) (l : List Char) : wordBody 0 (d :: l) s = s := by
      have hEscape : (d == '\x5c') = false := (beq_fails rfl).apply hd
      rw [wordBody, hEscape, isNamePart_fails.apply hd]
      rfl
    rw [Nat.le_zero.mp hSkip, hGap hc, hGap hc']
    exact ⟨rfl, by omega⟩
  | @cons c n rest rest' hRest ih =>
    cases skip with
    | succ skip =>
      rw [wordBody, wordBody, Nat.add_sub_add_right]
      exact ih (by omega) s
    | zero =>
      rw [wordBody, wordBody]
      split
      · obtain ⟨hEq, hLength⟩ := nameEscape_local hRest
        dsimp only
        rw [hEq]
        split
        · next letter _ =>
          obtain ⟨hBody, hTotal⟩ := ih hLength { s with
            name := s.name.push letter, escaped := true, length :=
              s.length + 1 + (nameEscape rest).length }
          refine ⟨hBody, Nat.le_trans hTotal ?_⟩
          dsimp only
          omega
        · refine ⟨rfl, ?_⟩
          dsimp only
          omega
      · split
        · obtain ⟨hBody, hTotal⟩ := ih (Nat.zero_le _) { s with
            name := s.name.push c, length := s.length + 1 }
          refine ⟨hBody, Nat.le_trans hTotal ?_⟩
          dsimp only
          omega
        · exact ⟨rfl, by omega⟩

/-! ## Literals -/

/-- A string only gets longer. -/
theorem length_stringBody (quote : Char) (skip : Nat) (cs : List Char) (s : StringScan) :
    s.length ≤ (stringBody quote skip cs s).length := by
  fun_induction stringBody quote skip cs s with
  | case1 => exact Nat.le_refl _
  | case2 _ _ _ _ ih => exact ih
  | case3 => exact Nat.le_refl _
  | case4 => exact Nat.le_succ _
  | case5 c rest s _ _ _ e ih =>
    refine Nat.le_trans ?_ ih
    show s.length ≤ s.length + 1 + e.length
    omega
  | case6 _ _ _ _ _ _ ih => exact Nat.le_trans (Nat.le_succ _) ih

/-- A string that is closed or broken off before the gap. -/
theorem stringBody_local (quote : Char) {skip : Nat} (hSkip : skip ≤ n) (s : StringScan)
    (h : Alike slash n cs cs')
    (hLength : (stringBody quote skip cs s).length ≤ s.length + (n - skip)) :
    stringBody quote skip cs' s = stringBody quote skip cs s := by
  -- on what the texts share
  induction h generalizing skip s with
  | @gap c _ hc hc' rest rest' =>
    -- at the gap itself the string goes on, so it is longer than allowed
    have hBreak : Text.isLineTerminator c = false := FailsAtGap.apply {} hc
    have hEscape : (c == '\x5c') = false := (beq_fails rfl).apply hc
    have hOver := length_stringBody quote 0 rest (s.push c)
    rw [Nat.le_zero.mp hSkip, stringBody, hBreak, hEscape] at hLength
    simp only [Bool.false_eq_true, if_false] at hLength
    split at hLength
    · simp only [StringScan.close] at hLength
      omega
    · simp only [StringScan.push] at hLength hOver
      omega
  | @cons c n rest rest' hRest ih =>
    cases skip with
    | succ skip =>
      rw [Nat.add_sub_add_right] at hLength
      exact ih (by omega) s hLength
    | zero =>
      rw [stringBody] at hLength ⊢
      rw [stringBody]
      split
      · rfl
      · next hBreak =>
        rw [if_neg hBreak] at hLength
        split
        · rfl
        · next hQuote =>
          rw [if_neg hQuote] at hLength
          split
          · next hEscape =>
            rw [if_pos hEscape] at hLength
            dsimp only at hLength ⊢
            have hGrown : s.length + 1 + (Escape.read rest).length ≤ _ :=
              length_stringBody quote (Escape.read rest).length rest
                (s.pushEscape (Escape.read rest))
            -- the escape ends before the gap, or else it starts there and is too long
            have hEq : Escape.read rest' = Escape.read rest := by
              cases hRest with
              | @gap d _ hd hd' l l' =>
                have hOne : (Escape.read (d :: l)).length = 1 := by
                  obtain rfl | rfl | ⟨rfl, -⟩ := eq_of_isGap hd <;> rfl
                omega
              | cons d hTail => exact escape_local d hTail
            rw [hEq]
            refine ih (by omega) _ ?_
            show _ ≤ s.length + 1 + (Escape.read rest).length + _
            omega
          · next hEscape =>
            rw [if_neg hEscape] at hLength
            refine ih (Nat.zero_le _) _ ?_
            show _ ≤ s.length + 1 + _
            omega

/-- So does a template. -/
theorem length_templateBody (cs : List Char) (s : TemplateScan) :
    s.length ≤ (templateBody cs s).length := by
  fun_induction templateBody cs s with
  | case1 => exact Nat.le_refl _
  | case2 => exact Nat.le_add_right _ 1
  | case3 => exact Nat.le_add_right _ 2
  | case4 _ _ _ ih => exact Nat.le_trans (Nat.le_add_right _ 2) ih
  | case5 _ _ _ _ _ _ ih => exact Nat.le_trans (Nat.le_add_right _ 1) ih

/-- Characters that mean nothing special in a template are taken in one by one. -/
theorem templateBody_plain {c : Char} {rest : List Char} (s : TemplateScan) (hMark : c ≠ '\x60')
    (hDollar : c = '$' → rest.head? ≠ some '\x7b') (hEscape : c = '\x5c' → rest = []) :
    templateBody (c :: rest) s = templateBody rest { s with
      cooked := s.cooked.push c
      length := s.length + 1
      newline := s.newline || Text.isLineTerminator c } := by
  rw [templateBody]
  · exact hMark
  · rintro tail rfl rfl
    exact hDollar rfl rfl
  · rintro d tail rfl rfl
    cases hEscape rfl

/-- A piece of a template that ends before the gap. -/
theorem templateBody_local (s : TemplateScan) (h : Alike slash n cs cs')
    (hLength : (templateBody cs s).length ≤ s.length + n) :
    templateBody cs' s = templateBody cs s := by
  -- along the scan; whatever takes two characters has both before the gap
  fun_induction templateBody cs s generalizing n cs' with
  | case1 s => cases h
  | case2 tail s =>
    cases h with
    | gap hc => cases hc
    | cons _ hTail => rfl
  | case3 tail s =>
    cases h with
    | gap hc => cases hc
    | cons _ hRest =>
      cases hRest with
      | gap hc => cases hc
      | cons _ hTail => rfl
  | case4 c rest s ih =>
    have hOver :=
      length_templateBody rest { s with cooked := s.cooked.push c, length := s.length + 2 }
    dsimp only at hOver
    cases h with
    | gap hc => cases hc
    | cons _ hRest =>
      cases hRest with
      | gap => omega
      | cons _ hTail => exact ih hTail (by dsimp only; omega)
  | case5 c rest s hMark hDollar hEscape ih =>
    have hOver := length_templateBody rest { s with
      cooked := s.cooked.push c
      length := s.length + 1
      newline := s.newline || Text.isLineTerminator c }
    dsimp only at hOver
    cases h with
    | gap => omega
    | @cons _ n _ rest' hRest =>
      rw [templateBody_plain s hMark]
      · exact ih hRest (by dsimp only; omega)
      · intro hc hHead
        have hBrace := hRest.head_beq (d := '\x7b') rfl
        rw [hHead] at hBrace
        obtain ⟨tail, rfl⟩ := List.head?_eq_some_iff.mp (beq_iff_eq.mp hBrace.symm)
        exact hDollar tail hc rfl
      · intro hc
        cases hRest with
        | gap => exact (hEscape _ _ hc rfl).elim
        | cons => exact (hEscape _ _ hc rfl).elim

/-- So does a regular expression. -/
theorem length_regexpBody (inClass : Bool) (cs : List Char) (s : RegexpScan) :
    s.length ≤ (regexpBody inClass cs s).length := by
  fun_induction regexpBody inClass cs s with
  | case1 => exact Nat.le_refl _
  | case2 => exact Nat.le_add_right _ 1
  | case3 _ _ _ _ _ ih => exact Nat.le_trans (Nat.le_add_right _ 2) ih
  | case4 => exact Nat.le_refl _
  | case5 => exact Nat.le_add_right _ 1
  | case6 _ _ _ _ _ _ _ ih => exact Nat.le_trans (Nat.le_add_right _ 1) ih

/-- A character of a regular expression other than a backslash. -/
theorem regexpBody_plain {c : Char} {rest : List Char} (inClass : Bool) (s : RegexpScan)
    (hEscape : c = '\x5c' → rest = []) :
    regexpBody inClass (c :: rest) s =
      if Text.isLineTerminator c then s
      else if c == '/' && !inClass then { s with length := s.length + 1, closed := true }
      else
        regexpBody (if c == '[' then true else if c == ']' then false else inClass) rest
          { s with pattern := s.pattern.push c, length := s.length + 1 } := by
  rw [regexpBody]
  rintro d tail rfl rfl
  cases hEscape rfl

/-- A regular expression that is closed or broken off before the gap. -/
theorem regexpBody_local (inClass : Bool) (s : RegexpScan) (h : Alike slash n cs cs')
    (hLength : (regexpBody inClass cs s).length ≤ s.length + n) :
    regexpBody inClass cs' s = regexpBody inClass cs s := by
  -- along the scan; whatever takes two characters has both before the gap
  fun_induction regexpBody inClass cs s generalizing n cs' with
  | case1 => cases h
  | case2 inClass c rest s hBreak =>
    cases h with
    | gap hc => cases hc
    | cons _ hRest =>
      cases hRest with
      | gap hc =>
        have hKept : Text.isLineTerminator c = false := FailsAtGap.apply {} hc
        rw [hKept] at hBreak
        cases hBreak
      | cons _ hTail => rw [regexpBody, if_pos hBreak]
  | case3 inClass c rest s hBreak ih =>
    have hOver := length_regexpBody inClass rest
      { s with pattern := (s.pattern.push '\x5c').push c, length := s.length + 2 }
    dsimp only at hOver
    cases h with
    | gap hc => cases hc
    | cons _ hRest =>
      cases hRest with
      | gap => omega
      | cons _ hTail =>
        rw [regexpBody, if_neg hBreak]
        exact ih hTail (by dsimp only; omega)
  | case4 inClass c rest s hEscape hBreak =>
    cases h with
    | gap hc =>
      have hKept : Text.isLineTerminator c = false := FailsAtGap.apply {} hc
      rw [hKept] at hBreak
      cases hBreak
    | cons _ hRest =>
      rw [regexpBody_plain inClass s, if_pos hBreak]
      rintro rfl
      cases hBreak
  | case5 inClass c rest s hEscape hBreak hClose =>
    cases h with
    | gap => exact absurd hLength (Nat.not_succ_le_self _)
    | cons _ hRest =>
      rw [regexpBody_plain inClass s, if_neg hBreak, if_pos hClose]
      rintro rfl
      cases hClose
  | case6 inClass c rest s hEscape hBreak hClose ih =>
    have hOver :=
      length_regexpBody (if c == '[' then true else if c == ']' then false else inClass) rest
      { s with pattern := s.pattern.push c, length := s.length + 1 }
    dsimp only at hOver
    cases h with
    | gap => omega
    | cons _ hRest =>
      rw [regexpBody_plain inClass s, if_neg hBreak, if_neg hClose]
      · exact ih hRest (by dsimp only; omega)
      · intro hc
        cases hRest with
        | gap => exact (hEscape _ _ hc rfl).elim
        | cons => exact (hEscape _ _ hc rfl).elim

/-- A comment only gets longer. -/
theorem length_commentBody (cs : List Char) (s : CommentScan) :
    s.length ≤ (commentBody cs s).length := by
  fun_induction commentBody cs s with
  | case1 => exact Nat.le_refl _
  | case2 => exact Nat.le_refl _
  | case3 _ _ _ _ ih => exact Nat.le_trans (Nat.le_add_right _ 1) ih

/-- A block comment that is not closed goes on to the end. -/
theorem length_of_unclosed (cs : List Char) (s : CommentScan)
    (h : (commentBody cs s).closed = false) : (commentBody cs s).length = s.length + cs.length := by
  fun_induction commentBody cs s with
  | case1 => rfl
  | case2 => cases h
  | case3 c rest s _ ih =>
    rw [ih h, List.length_cons]
    dsimp only
    omega

/-- A block comment that is closed before the gap, its closing mark included. -/
theorem commentBody_local (s : CommentScan) (h : Alike slash n cs cs')
    (hLength : (commentBody cs s).length + 2 ≤ s.length + n) :
    commentBody cs' s = commentBody cs s := by
  -- along the scan; the end of the comment needs two characters before the gap
  fun_induction commentBody cs s generalizing n cs' with
  | case1 => cases h
  | case2 tail s =>
    dsimp only at hLength
    cases h with
    | gap => omega
    | cons _ hRest =>
      cases hRest with
      | gap => omega
      | cons _ hTail => rfl
  | case3 c rest s hClose ih =>
    have hOver := length_commentBody rest { s with
      length := s.length + 1
      newline := s.newline || Text.isLineTerminator c }
    dsimp only at hOver
    cases h with
    | gap => omega
    | @cons _ n _ rest' hRest =>
      have hPlain : ∀ tail, c = '*' → rest' = '/' :: tail → False := by
        rintro tail hc rfl
        cases hRest with
        | gap => omega
        | cons _ hTail => exact hClose _ hc rfl
      rw [commentBody]
      · exact ih hRest (by dsimp only; omega)
      · exact hPlain

/-! ## Numbers -/

/-- Runs of digits that agree, with what follows them alike. -/
structure DigitRun.Alike (slash : Bool) (n : Nat) (run run' : DigitRun) : Prop where
  digits : run'.digits = run.digits
  length : run'.length = run.length
  fits : run.length ≤ n
  rest : Lexer.Alike slash (n - run.length) run.rest run'.rest

/-- A run of digits ends at the gap. -/
theorem digitRun_local {accept : Char → Bool} (hAccept : FailsAtGap slash accept)
    (h : Alike slash n cs cs') :
    DigitRun.Alike slash n (digitRun accept cs) (digitRun accept cs') := by
  have hRun : FailsAtGap slash fun c => accept c || c == '_' :=
    ⟨by rw [hAccept.semicolon]; rfl, by rw [hAccept.space]; rfl,
      fun h => by rw [hAccept.mark h]; rfl⟩
  obtain ⟨hTake, hLength, hDrop⟩ := h.run hRun
  refine ⟨?_, ?_, hLength, hDrop⟩
  · show (cs'.takeWhile _).filter _ = (cs.takeWhile _).filter _
    rw [hTake]
  · show (cs'.takeWhile _).length = (cs.takeWhile _).length
    rw [hTake]

theorem isDigit_fails : FailsAtGap slash Char.isDigit := {}

theorem isRadixDigit_fails (radix : Nat) : FailsAtGap slash (isRadixDigit radix) :=
  ⟨rfl, rfl, fun _ => rfl⟩

/-- Numbers that agree, with what follows them alike. -/
structure NumberScan.Alike (slash : Bool) (n : Nat) (s s' : NumberScan) : Prop where
  literal : s'.literal = s.literal
  length : s'.length = s.length
  malformed : s'.malformed = s.malformed
  fits : s.length ≤ n
  rest : Lexer.Alike slash (n - s.length) s.rest s'.rest

/-- The base of a number is told before the gap. -/
theorem radix_local (c : Char) (h : Alike slash n cs cs') :
    radix? (c :: cs') = radix? (c :: cs) := by
  by_cases hZero : c = '0'
  · subst hZero
    cases h with
    | gap hc hc' rest rest' =>
      obtain rfl | rfl | ⟨rfl, -⟩ := eq_of_isGap hc <;>
        obtain rfl | rfl | ⟨rfl, -⟩ := eq_of_isGap hc' <;> rfl
    | cons d hRest => rfl
  · have hNone (l : List Char) : radix? (c :: l) = none := by
      rw [radix?]
      exact fun _ _ hEq => (hZero (List.cons.inj hEq).1).elim
    rw [hNone, hNone]

/-- A base is announced by a zero and a letter, which is no gap. -/
theorem radix_start (slash : Bool) {radix : Nat} (h : radix? cs = some radix) :
    ∃ d rest, cs = '0' :: d :: rest ∧ isGap slash d = false := by
  unfold radix? at h
  split at h
  · next d rest =>
    refine ⟨d, rest, rfl, ?_⟩
    cases hd : isGap slash d with
    | false => rfl
    | true => obtain rfl | rfl | ⟨rfl, -⟩ := eq_of_isGap hd <;> cases h
  · cases h

/-- A number with a base ends at the gap. -/
theorem radixLiteral_local {radix : Nat} (h : Alike slash n cs cs')
    (hRadix : radix? cs = some radix) :
    NumberScan.Alike slash n (radixLiteral radix cs) (radixLiteral radix cs') := by
  -- the base takes two characters, both before the gap
  obtain ⟨d, rest, rfl, hd⟩ := radix_start slash hRadix
  cases h with
  | gap hc => cases hc
  | cons _ h =>
    cases h with
    | gap hc =>
      rw [hd] at hc
      cases hc
    | @cons _ n _ rest' hRest =>
      obtain ⟨hDigits, hLength, hFits, hAlike⟩ := digitRun_local (isRadixDigit_fails radix) hRest
      constructor
      · show ({ value := radixValue radix (digitRun _ rest').digits } : NumberLiteral) = _
        rw [hDigits]
        rfl
      · show (digitRun _ rest').length + 2 = (digitRun _ rest).length + 2
        rw [hLength]
      · show (digitRun _ rest').digits.isEmpty = _
        rw [hDigits]
        rfl
      · show (digitRun _ rest).length + 2 ≤ n + 1 + 1
        omega
      · show Lexer.Alike slash (n + 1 + 1 - ((digitRun _ rest).length + 2)) _ _
        rw [show n + 1 + 1 - ((digitRun (isRadixDigit radix) rest).length + 2) =
          n - (digitRun (isRadixDigit radix) rest).length by omega]
        exact hAlike

/-- So does a number that begins with a zero. -/
theorem leadingZeroLiteral_local (h : Alike slash n cs cs') :
    NumberScan.Alike slash n (leadingZeroLiteral cs) (leadingZeroLiteral cs') := by
  obtain ⟨hDigits, hLength, hFits, hAlike⟩ := digitRun_local isDigit_fails h
  refine ⟨?_, hLength, rfl, hFits, hAlike⟩
  simp only [leadingZeroLiteral, hDigits]

/-- Exponents that agree, with what follows them alike. -/
structure Exponent.Alike (slash : Bool) (n : Nat) (e e' : Exponent) : Prop where
  value : e'.value = e.value
  length : e'.length = e.length
  missing : e'.missing = e.missing
  fits : e.length ≤ n
  rest : Lexer.Alike slash (n - e.length) e.rest e'.rest

/-- So does an exponent. -/
theorem readExponent_local (h : Alike slash n cs cs') :
    Exponent.Alike slash n (readExponent cs) (readExponent cs') := by
  have hNone {c : Char} (hc : (c == 'e' || c == 'E') = false) (l : List Char) :
      readExponent (c :: l) = { rest := c :: l } := by
    rw [readExponent, hc]
    rfl
  cases h with
  | gap hc hc' rest rest' =>
    have hLetter : FailsAtGap slash fun c => c == 'e' || c == 'E' := {}
    rw [hNone (hLetter.apply hc), hNone (hLetter.apply hc')]
    exact ⟨rfl, rfl, rfl, Nat.le_refl 0, .gap hc hc' _ _⟩
  | @cons c n rest rest' hRest =>
    cases hc : c == 'e' || c == 'E' with
    | false =>
      rw [hNone hc, hNone hc]
      exact ⟨rfl, rfl, rfl, Nat.zero_le _, .cons c hRest⟩
    | true =>
      have hMinus := hRest.head_beq (d := '-') rfl
      have hPlus := hRest.head_beq (d := '+') rfl
      rw [readExponent, readExponent, hc]
      simp only [if_true, hMinus, hPlus]
      generalize hNegative : (rest.head? == some '-') = negative
      cases hSigned : negative || rest.head? == some '+' with
      | false =>
        obtain ⟨hDigits, hLength, hFits, hAlike⟩ := digitRun_local isDigit_fails hRest
        simp only [Bool.false_eq_true, if_false]
        rw [hDigits, hLength]
        refine ⟨rfl, rfl, rfl, ?_, ?_⟩
        · dsimp only
          omega
        · dsimp only
          rw [show n + 1 - (1 + 0 + (digitRun Char.isDigit rest).length) =
            n - (digitRun Char.isDigit rest).length by omega]
          exact hAlike
      | true =>
        -- a sign stands there, so the gap comes later
        have hSign : 1 ≤ n := by
          rw [← hNegative] at hSigned
          rcases Bool.or_eq_true_iff.mp hSigned with hHead | hHead
          · exact hRest.pos rfl hHead
          · exact hRest.pos rfl hHead
        obtain ⟨hDigits, hLength, hFits, hAlike⟩ := digitRun_local isDigit_fails (hRest.drop hSign)
        simp only [if_true]
        rw [hDigits, hLength]
        refine ⟨rfl, rfl, rfl, ?_, ?_⟩
        · dsimp only
          omega
        · dsimp only
          rw [show n + 1 - (1 + 1 + (digitRun Char.isDigit (rest.drop 1)).length) =
            n - 1 - (digitRun Char.isDigit (rest.drop 1)).length by omega]
          exact hAlike

/-- So does a fraction. -/
theorem readFraction_local (h : Alike slash n cs cs') :
    DigitRun.Alike slash n (readFraction cs) (readFraction cs') := by
  have hNone {c : Char} (hc : c ≠ '.') (l : List Char) :
      readFraction (c :: l) = ⟨[], 0, c :: l⟩ := by
    rw [readFraction]
    exact fun _ hEq => hc (List.cons.inj hEq).1
  cases h with
  | gap hc hc' rest rest' =>
    have hPoint {c : Char} (hc : isGap slash c) : c ≠ '.' := by
      rintro rfl
      cases hc
    rw [hNone (hPoint hc), hNone (hPoint hc')]
    exact ⟨rfl, rfl, Nat.le_refl 0, .gap hc hc' _ _⟩
  | @cons c n rest rest' hRest =>
    by_cases hc : c = '.'
    · subst hc
      obtain ⟨hDigits, hLength, hFits, hAlike⟩ := digitRun_local isDigit_fails hRest
      refine ⟨hDigits, congrArg (· + 1) hLength, Nat.succ_le_succ hFits, ?_⟩
      show Lexer.Alike slash (n + 1 - ((digitRun Char.isDigit rest).length + 1)) _ _
      rw [Nat.add_sub_add_right]
      exact hAlike
    · rw [hNone hc, hNone hc]
      exact ⟨rfl, rfl, Nat.zero_le _, .cons c hRest⟩

/-- So does a decimal number, part by part. -/
theorem decimalLiteral_local (h : Alike slash n cs cs') :
    NumberScan.Alike slash n (decimalLiteral cs) (decimalLiteral cs') := by
  have hWhole := digitRun_local isDigit_fails h
  have hFraction := readFraction_local hWhole.rest
  have hExponent := readExponent_local hFraction.rest
  have hFits := hWhole.fits
  have hFits' := hFraction.fits
  have hFits'' := hExponent.fits
  unfold decimalLiteral
  dsimp only
  rw [hWhole.digits, hWhole.length, hFraction.digits, hFraction.length, hExponent.value,
    hExponent.length, hExponent.missing]
  refine ⟨rfl, rfl, rfl, ?_, ?_⟩
  · dsimp only
    omega
  · dsimp only
    rw [Nat.sub_add_eq, Nat.sub_add_eq]
    exact hExponent.rest

/-- Which kind of number it is is told before the gap. -/
theorem bareLiteral_local (c : Char) (h : Alike slash n cs cs') :
    NumberScan.Alike slash (n + 1) (bareLiteral (c :: cs)) (bareLiteral (c :: cs')) := by
  have hRadix := radix_local c h
  have hDigit := h.head_any isDigit_fails
  unfold bareLiteral
  rw [hRadix]
  cases hr : radix? (c :: cs) with
  | some radix => exact radixLiteral_local (.cons c h) hr
  | none =>
    simp only [List.head?_cons, List.drop_succ_cons, List.drop_zero, hDigit]
    split
    · exact leadingZeroLiteral_local (.cons c h)
    · exact decimalLiteral_local (.cons c h)

/-- What wrongly follows a number ends at a gap at the latest. -/
theorem NumberScan.finish_local {s s' : NumberScan} (h : NumberScan.Alike slash n s s') :
    NumberScan.Alike slash n s.finish s'.finish := by
  obtain ⟨hLiteral, hLength, hMalformed, hFits, hRest⟩ := h
  -- after the suffix, if there is one, only a name can follow
  have hName (length : Nat) (r r' : List Char) (hl : length ≤ n)
    (hr : Lexer.Alike slash (n - length) r r') :
      NumberScan.Alike slash n
        (if r.head?.any isNameStart then
          { s with
            length := length + (r.takeWhile isNamePart).length
            malformed := true
            rest := r.dropWhile isNamePart }
        else { s with length, rest := r })
        (if r'.head?.any isNameStart then
          { s' with
            literal := s.literal
            length := length + (r'.takeWhile isNamePart).length
            malformed := true
            rest := r'.dropWhile isNamePart }
        else { s' with literal := s.literal, length, rest := r' }) := by
    obtain ⟨hTake, hRun, hDrop⟩ := hr.run isNamePart_fails
    rw [hr.head_any isNameStart_fails, hTake]
    split
    · refine ⟨rfl, rfl, rfl, ?_, ?_⟩
      · dsimp only
        omega
      · dsimp only
        rw [Nat.sub_add_eq]
        exact hDrop
    · exact ⟨rfl, rfl, hMalformed, hl, hr⟩
  have hSuffix := hRest.head_beq (d := 'n') rfl
  unfold NumberScan.finish
  dsimp only
  rw [hSuffix, hLiteral, hLength]
  cases hn : s.rest.head? == some 'n' && !s.literal.legacyOctal with
  | false =>
    simp only [Bool.false_eq_true, if_false]
    exact hName s.length s.rest s'.rest hFits hRest
  | true =>
    have hMore : 1 ≤ n - s.length := hRest.pos rfl (Bool.and_eq_true_iff.mp hn).1
    simp only [if_true]
    refine hName (s.length + 1) (s.rest.drop 1) (s'.rest.drop 1) (by omega) ?_
    rw [Nat.sub_add_eq]
    exact hRest.drop hMore

/-- A number with its suffix ends at the gap. -/
theorem scanNumber_local (c : Char) (h : Alike slash n cs cs') :
    NumberScan.Alike slash (n + 1) (scanNumber (c :: cs)) (scanNumber (c :: cs')) := by
  have hFinished := NumberScan.finish_local (bareLiteral_local c h)
  unfold scanNumber
  dsimp only
  rw [hFinished.malformed]
  split
  · refine ⟨?_, hFinished.length, rfl, hFinished.fits, hFinished.rest⟩
    dsimp only
    rw [hFinished.literal]
  · exact hFinished

/-! ## Operators and delimiters -/

/-- No operator is spelled without a character. -/
theorem length_spelling (p : Punctuator) : 1 ≤ p.spelling.length := by
  cases p <;> decide

/-- What is found at the front starts with the character there. -/
theorem head_spelling_of_find {c : Char} {rest : List Char} {p : Punctuator}
    (h : Punctuator.all.find? (·.spelling.toList.isPrefixOf (c :: rest)) = some p) :
    p.spelling.toList.head? = some c := by
  have hFits := List.find?_some h
  obtain ⟨tail, hTail⟩ := List.isPrefixOf_iff_prefix.mp hFits
  cases hSpelling : p.spelling.toList with
  | nil =>
    have hLength := length_spelling p
    rw [← String.length_toList, hSpelling] at hLength
    cases hLength
  | cons d word =>
    rw [hSpelling] at hTail
    rw [(List.cons.inj hTail).1]
    rfl

/-- No spelling has a gap in it after its first character. -/
theorem spelling_ungapped (slash : Bool) (p : Punctuator) :
    ∀ c ∈ p.spelling.toList.tail, isGap slash c = false := by
  have hNone : p.spelling.toList.tail.any (isGap slash) = false := by
    cases p <;> rfl
  intro c hc
  exact Bool.eq_false_iff.mpr (List.any_eq_false.mp hNone c hc)

/-- A spelling without a gap in it is at the front of both texts or of none, and ends before the
gap. -/
theorem isPrefixOf_local {word : List Char} (hWord : ∀ c ∈ word, isGap slash c = false)
    (h : Alike slash n cs cs') :
    word.isPrefixOf cs' = word.isPrefixOf cs ∧ (word.isPrefixOf cs → word.length ≤ n) := by
  induction h generalizing word with
  | @gap c c' hc hc' rest rest' =>
    cases word with
    | nil => exact ⟨rfl, fun _ => Nat.le_refl 0⟩
    | cons d word =>
      have hd := hWord d (List.mem_cons_self ..)
      have hNe {e : Char} (he : isGap slash e) : (d == e) = false := by
        refine beq_eq_false_iff_ne.mpr ?_
        rintro rfl
        rw [hd] at he
        cases he
      rw [List.isPrefixOf, List.isPrefixOf, hNe hc, hNe hc']
      exact ⟨rfl, fun hNo => by cases hNo⟩
  | cons c _ ih =>
    cases word with
    | nil => exact ⟨rfl, fun _ => Nat.zero_le _⟩
    | cons d word =>
      obtain ⟨hEq, hLength⟩ := ih fun e he => hWord e (List.mem_cons_of_mem d he)
      rw [List.isPrefixOf, List.isPrefixOf, hEq]
      refine ⟨rfl, fun hFound => ?_⟩
      exact Nat.succ_le_succ (hLength (Bool.and_eq_true_iff.mp hFound).2)

/-- The operator or delimiter at the front. -/
theorem longestPunctuator_local (c : Char) (h : Alike slash n cs cs') :
    longestPunctuator? (c :: cs') = longestPunctuator? (c :: cs) ∧
      ∀ p, longestPunctuator? (c :: cs) = some p → p.spelling.length ≤ n + 1 := by
  have hFits (p : Punctuator) : p.spelling.toList.isPrefixOf (c :: cs') =
      p.spelling.toList.isPrefixOf (c :: cs) ∧
        (p.spelling.toList.isPrefixOf (c :: cs) → p.spelling.length ≤ n + 1) := by
    obtain ⟨d, word, hSpelling⟩ : ∃ d word, p.spelling.toList = d :: word := by
      refine List.exists_cons_of_length_pos ?_
      rw [String.length_toList]
      exact length_spelling p
    have hWord : ∀ e ∈ word, isGap slash e = false := by
      have hTail := spelling_ungapped slash p
      rwa [hSpelling] at hTail
    obtain ⟨hSame, hLength⟩ := isPrefixOf_local hWord h
    rw [← String.length_toList, hSpelling, List.isPrefixOf, List.isPrefixOf, hSame]
    exact ⟨rfl, fun hFound => Nat.succ_le_succ (hLength (Bool.and_eq_true_iff.mp hFound).2)⟩
  have hFind : Punctuator.all.find? (·.spelling.toList.isPrefixOf (c :: cs')) =
      Punctuator.all.find? (·.spelling.toList.isPrefixOf (c :: cs)) := by
    congr 1
    funext p
    exact (hFits p).1
  have hFound {p : Punctuator}
      (hp : Punctuator.all.find? (·.spelling.toList.isPrefixOf (c :: cs)) = some p) :
      p.spelling.length ≤ n + 1 := by
    have hAt := List.find?_some hp
    exact (hFits p).2 hAt
  unfold longestPunctuator?
  rw [hFind]
  split
  -- a question mark and a point make an operator unless a digit follows
  · next hChain =>
    have hTwo : 2 ≤ n + 1 := hFound hChain
    have hDigit := (h.drop (show 1 ≤ n by omega)).head_any isDigit_fails
    simp only [List.drop_succ_cons] at hDigit ⊢
    rw [hDigit]
    refine ⟨rfl, fun p hp => ?_⟩
    split at hp
    · obtain rfl := Option.some.inj hp
      exact Nat.succ_le_succ (Nat.zero_le n)
    · obtain rfl := Option.some.inj hp
      exact hTwo
  · exact ⟨rfl, fun p hp => hFound hp⟩

/-! ## Any token -/

variable (regexAllowed : Bool) (templates : List Nat) {c : Char}

/-- A line comment that ends before the gap ends there in both texts. -/
theorem scanLineComment_local (h : Alike slash n cs cs')
    (hLength : (scanLineComment templates cs).length ≤ n + 2) :
    scanLineComment templates cs' = scanLineComment templates cs := by
  have hGoesOn (c : Char) (hc : isGap slash c) : (!Text.isLineTerminator c) = true := by
    have hFails : FailsAtGap slash Text.isLineTerminator := {}
    rw [hFails.apply hc]
    rfl
  unfold scanLineComment
  rw [h.takeWhile hGoesOn (Nat.le_of_add_le_add_right hLength)]

/-- So does a block comment. -/
theorem scanBlockComment_local (h : Alike slash n cs cs')
    (hLength : (scanBlockComment templates cs).length ≤ n + 2) :
    scanBlockComment templates cs' = scanBlockComment templates cs := by
  have hBody : (commentBody cs {}).length + 2 ≤ n := by
    unfold scanBlockComment at hLength
    dsimp only at hLength
    split at hLength
    · dsimp only at hLength
      omega
    · next hOpen =>
      -- a comment that is not closed reaches over the gap
      have hAll := length_of_unclosed cs {} (Bool.eq_false_iff.mpr hOpen)
      have hGap := h.lt_length
      dsimp only at hLength hAll
      omega
  unfold scanBlockComment
  rw [commentBody_local {} h (by simpa using hBody)]
  dsimp only
  rw [h.take (by omega)]

/-- So does a regular expression. -/
theorem scanRegexp_local (h : Alike slash n cs cs')
    (hLength : (scanRegexp templates cs).length ≤ n + 1) :
    scanRegexp templates cs' = scanRegexp templates cs := by
  have hBody : (regexpBody false cs {}).length ≤ n + 1 := by
    unfold scanRegexp at hLength
    dsimp only at hLength
    split at hLength
    · exact Nat.le_trans (Nat.le_add_right _ _) hLength
    · exact hLength
  have hStart : 1 ≤ (regexpBody false cs {}).length := length_regexpBody false cs {}
  obtain ⟨hFlags, -, -⟩ := (h.drop (show (regexpBody false cs {}).length - 1 ≤ n by omega)).run
    isNamePart_fails
  unfold scanRegexp
  rw [regexpBody_local false {} h (by simpa [Nat.add_comm] using hBody)]
  dsimp only
  rw [hFlags]

/-- So does a part of a template. -/
theorem scanTemplate_local (closed opened : TemplatePart) (h : Alike slash n cs cs')
    (hLength : (scanTemplate templates closed opened cs).length ≤ n + 1) :
    scanTemplate templates closed opened cs' = scanTemplate templates closed opened cs := by
  have hBody : (templateBody cs {}).length ≤ n + 1 := by
    unfold scanTemplate at hLength
    dsimp only at hLength
    split at hLength <;> exact hLength
  unfold scanTemplate
  rw [templateBody_local {} h (by simpa [Nat.add_comm] using hBody)]

/-- So does a string. -/
theorem scanString_local (quote : Char) (h : Alike slash n cs cs')
    (hLength : (scanString templates quote cs).length ≤ n + 1) :
    scanString templates quote cs' = scanString templates quote cs := by
  have hBody : (stringBody quote 0 cs { literal := { quote } }).length ≤ n + 1 := by
    unfold scanString at hLength
    dsimp only at hLength
    split at hLength
    · exact hLength
    · split at hLength <;> exact hLength
  unfold scanString
  rw [stringBody_local quote (Nat.zero_le n) { literal := { quote } } h
    (by simpa [Nat.add_comm] using hBody)]

/-- A number ends before the gap in any case. -/
theorem scanNumeric_local (c : Char) (h : Alike slash n cs cs') :
    scanNumeric templates (c :: cs') = scanNumeric templates (c :: cs) := by
  have hNumber := scanNumber_local c h
  unfold scanNumeric
  dsimp only
  rw [hNumber.literal, hNumber.malformed, hNumber.length, (Alike.cons c h).take hNumber.fits]

/-- So does a word. -/
theorem scanWord_local (c : Char) (h : Alike slash n cs cs') :
    scanWord templates (c :: cs') = scanWord templates (c :: cs) := by
  unfold scanWord
  rw [(wordBody_local (Nat.zero_le _) {} (.cons c h)).1]

/-- So does an operator, which needs one character at least. -/
theorem scanPunctuator_local (first c : Char) (h : Alike slash n cs cs') :
    scanPunctuator templates first (c :: cs') = scanPunctuator templates first (c :: cs) := by
  unfold scanPunctuator
  rw [(longestPunctuator_local c h).1]

/-- A scan by cases is local if each case is. -/
theorem ite_local {q : Prop} [Decidable q] {s t s' t' : Scan} {bound : Nat}
    (hLength : (if q then s else t).length ≤ bound) (hs : q → s.length ≤ bound → s' = s)
    (ht : ¬q → t.length ≤ bound → t' = t) : (if q then s' else t') = if q then s else t := by
  split
  · next hq => exact hs hq (by rwa [if_pos hq] at hLength)
  · next hq => exact ht hq (by rwa [if_neg hq] at hLength)

/-- A token that ends before the gap is the same in both texts, unless it is a slash and the gap is
one, too. -/
theorem scan_local (h : Alike slash n cs cs') (hNear : slash → c = '/' → 1 ≤ n)
    (hLength : (scan regexAllowed templates c cs).length ≤ n + 1) :
    scan regexAllowed templates c cs' = scan regexAllowed templates c cs := by
  -- the two characters that begin a comment are before the gap, or the slash is near
  have hMark {d : Char} (hd : isGap false d = false) :
      (c == '/' && cs'.head? == some d) = (c == '/' && cs.head? == some d) := by
    cases hc : c == '/' with
    | false => rfl
    | true =>
      cases slash with
      | false => rw [h.head_beq hd]
      | true => rw [h.head_of_pos (hNear rfl (beq_iff_eq.mp hc))]
  have hAfterMark {d : Char} (hd : isGap false d = false)
      (hMark : (c == '/' && cs.head? == some d) = true) :
      Alike slash (n - 1) (cs.drop 1) (cs'.drop 1) ∧ n + 1 ≤ n - 1 + 2 := by
    obtain ⟨hc, hHead⟩ := Bool.and_eq_true_iff.mp hMark
    have hPos : 1 ≤ n := by
      cases slash with
      | false => exact h.pos hd hHead
      | true => exact hNear rfl (beq_iff_eq.mp hc)
    exact ⟨h.drop hPos, by omega⟩
  unfold scan at hLength ⊢
  -- one scanner after the other, in the order the lexer tries them
  rw [hMark (d := '/') rfl, hMark (d := '*') rfl, h.head_any isDigit_fails]
  refine ite_local hLength (fun hLine hLength => ?_) fun _ hLength => ?_
  · obtain ⟨hRest, hSize⟩ := hAfterMark rfl hLine
    exact scanLineComment_local templates hRest (Nat.le_trans hLength hSize)
  refine ite_local hLength (fun hBlock hLength => ?_) fun _ hLength => ?_
  · obtain ⟨hRest, hSize⟩ := hAfterMark rfl hBlock
    exact scanBlockComment_local templates hRest (Nat.le_trans hLength hSize)
  refine ite_local hLength (fun _ => scanRegexp_local templates h) fun _ hLength => ?_
  refine ite_local hLength (fun _ => scanTemplate_local templates _ _ h) fun _ hLength => ?_
  refine ite_local hLength (fun _ => scanTemplate_local _ _ _ h) fun _ hLength => ?_
  refine ite_local hLength (fun _ => scanString_local templates c h) fun _ hLength => ?_
  rw [scanNumeric_local templates c h, scanWord_local templates c h,
    scanPunctuator_local templates c c h]

/-- Whether the token that counts is an operator or a delimiter. -/
def Scan.isPunctuator (s : Scan) : Bool :=
  match s.significant? with
  | some (.punctuator _) => true
  | _ => false

/-- A comment is no operator. -/
theorem isPunctuator_comment {s : Scan} {body : List Char}
    (h : s.scanned = .token (commentKind body)) : s.isPunctuator = false := by
  have hNone : s.significant? = none := by
    rw [Scan.significant?, h]
    exact if_pos (commentKind_isTrivia body)
  rw [Scan.isPunctuator, hNone]

/-- A regular expression is no operator. -/
theorem isPunctuator_scanRegexp : (scanRegexp templates cs).isPunctuator = false := by
  unfold scanRegexp
  dsimp only
  split <;> rfl

theorem isPunctuator_scanWord : (scanWord templates cs).isPunctuator = false := by
  have hKind (s : WordScan) (length : Nat) :
      Scan.isPunctuator { length, scanned := .token s.kind, templates } = false := by
    unfold WordScan.kind
    split
    · split <;> rfl
    · rfl
  unfold scanWord
  dsimp only
  split
  · split <;> rfl
  · exact hKind _ _

/-- Only the last scanner finds operators and delimiters, and it is not asked about a slash that may
start a regular expression. -/
theorem scan_of_isPunctuator (hKind : (scan regexAllowed templates c cs).isPunctuator) :
    scan regexAllowed templates c cs = scanPunctuator templates c (c :: cs) ∧
      (c == '/' && regexAllowed) = false := by
  have hTemplate (templates : List Nat) (closed opened : TemplatePart) :
      (scanTemplate templates closed opened cs).isPunctuator = false := by
    unfold scanTemplate
    dsimp only
    split <;> rfl
  -- every other scanner finds something else
  have hElse {q : Prop} [Decidable q] {s t : Scan} (hs : s.isPunctuator = false)
      (hIf : (if q then s else t).isPunctuator) : ¬q := by
    intro hq
    rw [if_pos hq, hs] at hIf
    cases hIf
  unfold scan at hKind ⊢
  have hLine := hElse (isPunctuator_comment rfl) hKind
  rw [if_neg hLine] at hKind ⊢
  have hBlock := hElse (by
    unfold scanBlockComment
    dsimp only
    split
    · exact isPunctuator_comment rfl
    · rfl) hKind
  rw [if_neg hBlock] at hKind ⊢
  have hRegexp := hElse (isPunctuator_scanRegexp _) hKind
  rw [if_neg hRegexp] at hKind ⊢
  have hWhole := hElse (hTemplate _ _ _) hKind
  rw [if_neg hWhole] at hKind ⊢
  have hMiddle := hElse (hTemplate _ _ _) hKind
  rw [if_neg hMiddle] at hKind ⊢
  have hString := hElse (by
    unfold scanString
    dsimp only
    split
    · rfl
    · split <;> rfl) hKind
  rw [if_neg hString] at hKind ⊢
  have hNumeric := hElse (by
    unfold scanNumeric
    dsimp only
    split <;> rfl) hKind
  rw [if_neg hNumeric] at hKind ⊢
  have hWord := hElse (isPunctuator_scanWord _) hKind
  rw [if_neg hWord]
  exact ⟨rfl, Bool.eq_false_iff.mpr hRegexp⟩

/-- An operator or a delimiter does not reach over the gap. -/
theorem scan_punctuator (h : Alike slash n cs cs')
    (hKind : (scan regexAllowed templates c cs).isPunctuator) :
    (scan regexAllowed templates c cs).length ≤ n + 1 := by
  rw [(scan_of_isPunctuator _ _ hKind).1]
  unfold scanPunctuator
  split
  · next p hp => exact (longestPunctuator_local c h).2 p hp
  · exact Nat.succ_le_succ (Nat.zero_le n)

/-! ## Places of failures -/

/-- A string's first bad escape is inside the string. -/
theorem badEscape_stringBody (quote : Char) (skip : Nat) (cs : List Char) (s : StringScan)
    {offset : Nat} (hs : s.badEscape = some offset → offset ≤ s.length) :
    (stringBody quote skip cs s).badEscape = some offset →
      offset ≤ (stringBody quote skip cs s).length := by
  fun_induction stringBody quote skip cs s with
  | case1 => exact hs
  | case2 _ _ _ _ ih => exact ih hs
  | case3 => exact hs
  | case4 => exact fun h => Nat.le_succ_of_le (hs h)
  | case5 c rest s _ _ _ e ih =>
    refine ih fun h => ?_
    show offset ≤ s.length + 1 + e.length
    rcases Option.or_eq_some_iff.mp h with hBefore | ⟨-, hHere⟩
    · have := hs hBefore
      omega
    · split at hHere
      · obtain rfl := Option.some.inj hHere
        omega
      · cases hHere
  | case6 _ _ _ _ _ _ ih => exact ih fun h => Nat.le_succ_of_le (hs h)

/-- A word's bad escape is inside the word. -/
theorem badEscape_wordBody (skip : Nat) (cs : List Char) (s : WordScan) {offset : Nat}
    (hs : s.badEscape = some offset → offset ≤ s.length) :
    (wordBody skip cs s).badEscape = some offset → offset ≤ (wordBody skip cs s).length := by
  fun_induction wordBody skip cs s with
  | case1 => exact hs
  | case2 _ _ _ _ ih => exact ih hs
  | case3 c rest s _ decoded length letter _ ih =>
    refine ih fun h => Nat.le_trans (hs h) ?_
    show s.length ≤ s.length + 1 + decoded.length
    omega
  | case4 c rest s _ decoded length _ =>
    intro h
    obtain rfl := Option.some.inj h
    show s.length ≤ s.length + 1 + decoded.length
    omega
  | case5 _ _ _ _ _ ih => exact ih fun h => Nat.le_succ_of_le (hs h)
  | case6 => exact hs

/-- What is wrong with a text lies within it. -/
theorem scan_failure {problem : LexProblem} {offset : Nat} {recovered : Option TokenKind}
    (h : (scan regexAllowed templates c cs).scanned = .failure problem offset recovered) :
    offset ≤ (scan regexAllowed templates c cs).length := by
  -- of the scanners only strings and words fail inside
  have hTemplate (templates : List Nat) (closed opened : TemplatePart)
      (h : (scanTemplate templates closed opened cs).scanned = .failure problem offset recovered) :
      offset ≤ (scanTemplate templates closed opened cs).length := by
    unfold scanTemplate at h ⊢
    dsimp only at h ⊢
    split at h <;> cases h
    exact Nat.zero_le _
  have hIf {q : Prop} [Decidable q] {s t : Scan}
      (h : (if q then s else t).scanned = .failure problem offset recovered)
      (hs : s.scanned = .failure problem offset recovered → offset ≤ s.length)
      (ht : t.scanned = .failure problem offset recovered → offset ≤ t.length) :
      offset ≤ (if q then s else t).length := by
    split
    · next hq => exact hs (by rwa [if_pos hq] at h)
    · next hq => exact ht (by rwa [if_neg hq] at h)
  unfold scan at h ⊢
  refine hIf h (fun h => by cases h) fun h => hIf h (fun h => ?_) fun h => hIf h (fun h => ?_)
    fun h => hIf h (hTemplate _ _ _) fun h => hIf h (hTemplate _ _ _)
    fun h => hIf h (fun h => ?_) fun h => hIf h (fun h => ?_) fun h =>
      hIf h (fun h => ?_) fun h => ?_
  · unfold scanBlockComment at h ⊢
    dsimp only at h ⊢
    split at h <;> cases h
    exact Nat.zero_le _
  · unfold scanRegexp at h ⊢
    dsimp only at h ⊢
    split at h <;> cases h
    exact Nat.zero_le _
  · unfold scanString at h ⊢
    dsimp only at h ⊢
    split at h
    · cases h
      exact Nat.zero_le _
    · next hClosed =>
      rw [if_neg hClosed]
      split at h
      · next place hPlace =>
        cases h
        exact badEscape_stringBody c 0 cs _ (fun hNone => by cases hNone) hPlace
      · cases h
  · unfold scanNumeric at h ⊢
    dsimp only at h ⊢
    split at h <;> cases h
    exact Nat.zero_le _
  · unfold scanWord at h ⊢
    dsimp only at h ⊢
    split at h
    · next place hPlace =>
      cases h
      exact badEscape_wordBody 0 (c :: cs) {} (fun hNone => by cases hNone) hPlace
    · cases h
  · unfold scanPunctuator at h ⊢
    split at h <;> cases h
    exact Nat.zero_le _

/-! ## Progress -/

/-- A word only gets longer. -/
theorem length_wordBody (skip : Nat) (cs : List Char) (s : WordScan) :
    s.length ≤ (wordBody skip cs s).length := by
  fun_induction wordBody skip cs s with
  | case1 => exact Nat.le_refl _
  | case2 _ _ _ _ ih => exact ih
  | case3 c rest s _ decoded length letter _ ih =>
    refine Nat.le_trans ?_ ih
    show s.length ≤ s.length + 1 + decoded.length
    omega
  | case4 c rest s _ decoded length _ =>
    show s.length ≤ s.length + 1 + decoded.length
    omega
  | case5 _ _ _ _ _ ih => exact Nat.le_trans (Nat.le_add_right _ 1) ih
  | case6 => exact Nat.le_refl _

/-- A digit makes a run. -/
theorem length_digitRun {accept : Char → Bool} {c : Char} (hc : accept c) (cs : List Char) :
    1 ≤ (digitRun accept (c :: cs)).length := by
  have hRun : (accept c || c == '_') = true := by
    rw [hc]
    rfl
  show 1 ≤ ((c :: cs).takeWhile fun c => accept c || c == '_').length
  rw [List.takeWhile_cons, if_pos hRun]
  exact Nat.succ_le_succ (Nat.zero_le _)

/-- A number takes a character at least. -/
theorem length_scanNumber {c : Char} {cs : List Char}
    (h : (c.isDigit || (c == '.' && cs.head?.any Char.isDigit)) = true) :
    1 ≤ (scanNumber (c :: cs)).length := by
  have hFinish (s : NumberScan) : s.length ≤ s.finish.length := by
    unfold NumberScan.finish
    dsimp only
    split
    · split
      · simp
        omega
      · simp
    · split
      · simp
      · simp
  have hDecimal : 1 ≤ (decimalLiteral (c :: cs)).length := by
    show 1 ≤ (digitRun Char.isDigit (c :: cs)).length +
      (readFraction (digitRun Char.isDigit (c :: cs)).rest).length + _
    rcases Bool.or_eq_true_iff.mp h with hDigit | hPoint
    · have hWhole := length_digitRun hDigit cs
      omega
    · obtain rfl : c = '.' := beq_iff_eq.mp (Bool.and_eq_true_iff.mp hPoint).1
      have hRest : (digitRun Char.isDigit ('.' :: cs)).rest = '.' :: cs := rfl
      have hFraction : 1 ≤ (readFraction ('.' :: cs)).length := Nat.le_add_left 1 _
      rw [hRest]
      omega
  have hBare : 1 ≤ (bareLiteral (c :: cs)).length := by
    unfold bareLiteral
    split
    · exact Nat.le_trans (by omega) (Nat.le_add_left 2 _)
    · split
      · next hZero =>
        obtain rfl : c = '0' := by simpa using (Bool.and_eq_true_iff.mp hZero).1
        exact length_digitRun rfl cs
      · exact hDecimal
  unfold scanNumber
  dsimp only
  split <;> exact Nat.le_trans hBare (hFinish _)

/-- Every token takes at least one character. -/
theorem length_scan (c : Char) (cs : List Char) :
    1 ≤ (scan regexAllowed templates c cs).length := by
  have hTemplate (templates : List Nat) (closed opened : TemplatePart) :
      1 ≤ (scanTemplate templates closed opened cs).length := by
    have hBody := length_templateBody cs {}
    unfold scanTemplate
    dsimp only
    split <;> exact hBody
  have hIf {q : Prop} [Decidable q] {s t : Scan} (hs : q → 1 ≤ s.length) (ht : ¬q → 1 ≤ t.length) :
      1 ≤ (if q then s else t).length := by
    split
    · next hq => exact hs hq
    · next hq => exact ht hq
  unfold scan
  refine hIf (fun _ => Nat.le_add_left 1 _) fun _ => hIf (fun _ => ?_) fun _ => hIf (fun _ => ?_)
    fun _ => hIf (fun _ => hTemplate _ _ _) fun _ => hIf (fun _ => hTemplate _ _ _)
    fun _ => hIf (fun _ => ?_) fun _ => hIf (fun hNumber => ?_) fun _ =>
      hIf (fun hWord => ?_) fun _ => ?_
  · unfold scanBlockComment
    dsimp only
    split <;> exact Nat.le_add_left 1 _
  · have hBody := length_regexpBody false cs {}
    unfold scanRegexp
    dsimp only
    split
    · exact Nat.le_trans hBody (Nat.le_add_right _ _)
    · exact hBody
  · have hBody := length_stringBody c 0 cs { literal := { quote := c } }
    unfold scanString
    dsimp only
    split
    · exact hBody
    · split <;> exact hBody
  · have hBody := length_scanNumber hNumber
    unfold scanNumeric
    dsimp only
    split <;> exact hBody
  · have hBody : 1 ≤ (wordBody 0 (c :: cs) {}).length := by
      rw [wordBody]
      split
      · dsimp only
        split
        · refine Nat.le_trans ?_ (length_wordBody _ _ _)
          dsimp only
          omega
        · dsimp only
          omega
      · next hEscape =>
        have hPart : isNamePart c := by
          have hStart : isNameStart c := by simpa [hEscape] using hWord
          rw [isNamePart, hStart]
          rfl
        rw [if_pos hPart]
        exact Nat.le_trans (Nat.le_refl 1)
          (length_wordBody 0 cs { name := String.push "" c, length := 1 })
    unfold scanWord
    dsimp only
    split <;> exact hBody
  · unfold scanPunctuator
    split
    · exact length_spelling _
    · exact Nat.le_refl 1

end ScriptLint.Lexer
