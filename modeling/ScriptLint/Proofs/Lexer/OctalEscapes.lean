import ScriptLint.Proofs.LineEndings.Scanning

/-!
# Octal escapes in strings

A backslash and octal digits stand for one character. How many of the digits belong to the escape is
decided by the code that was read so far: a digit is taken as long as the code before it is below
32. On digits that do not start with a zero this is the rule of three digits and one byte; zeros in
front do not count towards the three digits.

- `Walks`: from the start of a string to another place in it, between two escapes.
- `octalRun`, `octalValue`: the digits after a backslash and the code that they write.
- `LegacyPrefix`: the longest prefix of at most three digits that fits a byte.
- `octalDigits_run`: how many digits are taken.
- `octal_escape`: what a string does with an escape.
-/

namespace ScriptLint.Lexer

variable {cs rest digits : List Char} {c : Char} {quote : Char} {s s' s'' : StringScan}

/-! ## The digits that are taken -/

/-- Whether the character is an octal digit. -/
def isOctal (c : Char) : Bool := (Text.octalValue? c).isSome

/-- The octal digits at the front. -/
def octalRun (cs : List Char) : List Char := cs.takeWhile isOctal

/-- The number that octal digits write. -/
def octalValue (digits : List Char) : Nat :=
  digits.foldl (fun code c => code * 8 + (c.toNat - '0'.toNat)) 0

/-- The longest prefix of at most three digits whose value fits a byte has `length` digits. -/
structure LegacyPrefix (digits : List Char) (length : Nat) : Prop where
  within : length ≤ digits.length
  short : length ≤ 3
  fits : octalValue (digits.take length) ≤ 255
  longest : ∀ n, n ≤ digits.length → n ≤ 3 → octalValue (digits.take n) ≤ 255 → n ≤ length

/-- An octal digit is worth less than eight. -/
theorem octalValue_of_isOctal (h : isOctal c) :
    Text.octalValue? c = some (c.toNat - '0'.toNat) ∧ c.toNat - '0'.toNat < 8 := by
  unfold isOctal Text.octalValue? at h
  split at h
  case isFalse => cases h
  case isTrue hRange =>
    refine ⟨if_pos hRange, ?_⟩
    have hLast : c.toNat ≤ 55 := hRange.2
    show c.toNat - 48 < 8
    omega

/-- An octal digit is one of eight characters. -/
theorem mem_of_isOctal (h : isOctal c) : c ∈ ['0', '1', '2', '3', '4', '5', '6', '7'] := by
  unfold isOctal Text.octalValue? at h
  split at h
  case isFalse => cases h
  case isTrue hRange =>
    have hLeast : 48 ≤ c.toNat := hRange.1
    have hMost : c.toNat ≤ 55 := hRange.2
    obtain ⟨n, hn⟩ := Nat.exists_eq_add_of_le hLeast
    have hOf : c = Char.ofNat (48 + n) := by rw [← hn, Char.ofNat_toNat]
    have hAll : ∀ n < 8, Char.ofNat (48 + n) ∈ ['0', '1', '2', '3', '4', '5', '6', '7'] := by decide
    rw [hOf]
    exact hAll n (by omega)

/-- A digit is taken while the code is below 32. -/
theorem octalDigits_cons {code : Nat} (h : isOctal c) (hCode : code < 32) (rest : List Char) :
    octalDigits code (c :: rest) =
      ((octalDigits (code * 8 + (c.toNat - '0'.toNat)) rest).1,
        (octalDigits (code * 8 + (c.toNat - '0'.toNat)) rest).2 + 1) := by
  rw [octalDigits, (octalValue_of_isOctal h).1]
  exact if_pos hCode

/-- None is taken once the code is 32. -/
theorem octalDigits_full {code : Nat} (hCode : 32 ≤ code) (cs : List Char) :
    octalDigits code cs = (code, 0) := by
  cases cs with
  | nil => rfl
  | cons c rest =>
    rw [octalDigits]
    split
    · exact if_neg (Nat.not_lt.mpr hCode)
    · rfl

/-- None is taken where none stands. -/
theorem octalDigits_stop (code : Nat) (h : octalRun cs = []) : octalDigits code cs = (code, 0) := by
  cases cs with
  | nil => rfl
  | cons c rest =>
    have hOther : ¬isOctal c := by
      intro hc
      unfold octalRun at h
      rw [List.takeWhile_cons_of_pos hc] at h
      cases h
    rw [octalDigits, Option.not_isSome_iff_eq_none.mp hOther]

theorem isOctal_of_mem (h : c ∈ octalRun cs) : isOctal c :=
  List.all_eq_true.mp List.all_takeWhile c h

/-- What follows the run has no part in it. -/
theorem octalDigits_run (code : Nat) (cs : List Char) :
    octalDigits code (octalRun cs) = octalDigits code cs := by
  induction cs generalizing code with
  | nil => rfl
  | cons c rest ih =>
    by_cases hc : isOctal c
    · have hRun : octalRun (c :: rest) = c :: octalRun rest := List.takeWhile_cons_of_pos hc
      rw [hRun]
      by_cases hCode : code < 32
      · rw [octalDigits_cons hc hCode, octalDigits_cons hc hCode, ih]
      · rw [octalDigits_full (Nat.le_of_not_lt hCode), octalDigits_full (Nat.le_of_not_lt hCode)]
    · have hRun : octalRun (c :: rest) = [] := List.takeWhile_cons_of_neg hc
      rw [hRun, octalDigits_stop code hRun]
      rfl

/-- The code is what the digits that were taken write. -/
theorem octalDigits_value (code : Nat) (hDigits : ∀ d ∈ digits, isOctal d) :
    (octalDigits code digits).1 = (digits.take (octalDigits code digits).2).foldl
      (fun code d => code * 8 + (d.toNat - '0'.toNat)) code := by
  induction digits generalizing code with
  | nil => rfl
  | cons d digits ih =>
    have hd := hDigits d List.mem_cons_self
    by_cases hCode : code < 32
    · rw [octalDigits_cons hd hCode]
      dsimp only
      rw [List.take_succ_cons, List.foldl_cons]
      exact ih _ fun e he => hDigits e (List.mem_cons_of_mem d he)
    · rw [octalDigits_full (Nat.le_of_not_lt hCode)]
      rfl

/-- Zeros at the front are all taken, whatever their number, and leave the rest as if they were not
there. -/
theorem octalDigits_zeros (hDigits : ∀ d ∈ digits, isOctal d) :
    (octalDigits 0 digits).2 = (digits.takeWhile (· == '0')).length +
      (octalDigits 0 (digits.dropWhile (· == '0'))).2 := by
  induction digits with
  | nil => rfl
  | cons d digits ih =>
    by_cases hZero : d = '0'
    · subst hZero
      have hRest := ih fun e he => hDigits e (List.mem_cons_of_mem _ he)
      rw [octalDigits_cons rfl (by decide), List.takeWhile_cons_of_pos rfl,
        List.dropWhile_cons_of_pos rfl, List.length_cons]
      show (octalDigits 0 digits).2 + 1 = _
      omega
    · have hTake : (d :: digits).takeWhile (· == '0') = [] :=
        List.takeWhile_cons_of_neg (by simpa using hZero)
      have hDrop : (d :: digits).dropWhile (· == '0') = d :: digits :=
        List.dropWhile_cons_of_neg (by simpa using hZero)
      rw [hTake, hDrop, List.length_nil, Nat.zero_add]

/-- A prefix is the longest if no digit is left or three are in it. -/
theorem LegacyPrefix.of_full {n : Nat} (hWithin : n ≤ digits.length) (hShort : n ≤ 3)
    (hFits : octalValue (digits.take n) ≤ 255) (hFull : n = digits.length ∨ n = 3) :
    LegacyPrefix digits n := by
  refine ⟨hWithin, hShort, hFits, ?_⟩
  intro m hm hm' _
  omega

/-- What is taken is the longest prefix of at most three digits that fits a byte, except from more
than three digits of which the first three write a code below 32: there a fourth one is taken. -/
theorem legacyPrefix_octalDigits (hDigits : ∀ d ∈ digits, isOctal d) :
    LegacyPrefix digits (octalDigits 0 digits).2 ↔
      digits.length ≤ 3 ∨ 32 ≤ octalValue (digits.take 3) := by
  match digits with
  | [] =>
    exact iff_of_true (.of_full (Nat.le_refl 0) (by decide) (by decide) (.inl rfl))
      (.inl (by decide))
  -- the first digit always fits, the second as well
  | a :: digits =>
    obtain ⟨ha, hDigits⟩ := List.forall_mem_cons.mp hDigits
    have hFirst := (octalValue_of_isOctal ha).2
    rw [octalDigits_cons ha (by decide)]
    generalize hx : 0 * 8 + (a.toNat - '0'.toNat) = x
    have hOne : octalValue [a] = x := hx
    match digits with
    | [] =>
      refine iff_of_true (.of_full (Nat.le_refl 1) (show 1 ≤ 3 by decide) ?_ (.inl rfl))
        (.inl (by simp))
      show octalValue [a] ≤ 255
      omega
    | b :: digits =>
      obtain ⟨hb, hDigits⟩ := List.forall_mem_cons.mp hDigits
      have hSecond := (octalValue_of_isOctal hb).2
      rw [octalDigits_cons hb (by omega)]
      generalize hy : x * 8 + (b.toNat - '0'.toNat) = y
      have hTwo : octalValue [a, b] = y := by
        rw [← hy, ← hx]
        rfl
      match digits with
      | [] =>
        refine iff_of_true (.of_full (Nat.le_refl 2) (show 2 ≤ 3 by decide) ?_ (.inl rfl))
          (.inl (by simp))
        show octalValue [a, b] ≤ 255
        omega
      | c :: digits =>
        obtain ⟨hc, hDigits⟩ := List.forall_mem_cons.mp hDigits
        have hThird := (octalValue_of_isOctal hc).2
        have hThree : octalValue [a, b, c] = y * 8 + (c.toNat - '0'.toNat) := by
          rw [← hTwo]
          rfl
        by_cases hFits : y < 32
        · -- the third digit is taken
          rw [octalDigits_cons hc hFits]
          generalize hz : y * 8 + (c.toNat - '0'.toNat) = z at hThree ⊢
          have hLegacy : LegacyPrefix (a :: b :: c :: digits) 3 := by
            refine .of_full (by simp) (Nat.le_refl 3) ?_ (.inr rfl)
            show octalValue [a, b, c] ≤ 255
            omega
          by_cases hFull : 32 ≤ z
          · rw [octalDigits_full hFull]
            refine iff_of_true hLegacy (.inr ?_)
            show 32 ≤ octalValue [a, b, c]
            omega
          · match digits with
            | [] => exact iff_of_true hLegacy (.inl (by simp))
            | d :: digits =>
              -- and so is a fourth one
              have hd := hDigits d List.mem_cons_self
              rw [octalDigits_cons hd (by omega)]
              refine iff_of_false ?_ ?_
              · intro hMore
                have hShort := hMore.short
                omega
              · rintro (hLength | hCode)
                · simp only [List.length_cons] at hLength
                  omega
                · have hSmall : 32 ≤ octalValue [a, b, c] := hCode
                  omega
        · -- it would not fit
          rw [octalDigits_full (Nat.le_of_not_lt hFits)]
          refine iff_of_true ⟨by simp, by omega, ?_, ?_⟩ (.inr ?_)
          · show octalValue [a, b] ≤ 255
            omega
          · intro n _ hShort hValue
            refine Nat.le_of_not_lt fun hLess => ?_
            obtain rfl : n = 3 := by omega
            have hByte : octalValue [a, b, c] ≤ 255 := hValue
            omega
          · show 32 ≤ octalValue [a, b, c]
            omega

/-- No zero in front: the rule of three digits and one byte. -/
theorem legacyPrefix_of_nonzero (hDigits : ∀ d ∈ digits, isOctal d)
    (hFirst : digits.head? ≠ some '0') : LegacyPrefix digits (octalDigits 0 digits).2 := by
  refine (legacyPrefix_octalDigits hDigits).mpr ?_
  match digits with
  | [] => exact .inl (by decide)
  | [_] => exact .inl (by simp)
  | [_, _] => exact .inl (by simp)
  | a :: b :: c :: more =>
    right
    have ha := hDigits a List.mem_cons_self
    have hNonzero : a ≠ '0' := fun h => hFirst (congrArg some h)
    have hPositive : a.toNat - '0'.toNat ≠ 0 := by
      intro hZero
      unfold isOctal Text.octalValue? at ha
      split at ha
      · next hRange =>
        have hLeast : 48 ≤ a.toNat := hRange.1
        have hCode : a.toNat = '0'.toNat := by
          show a.toNat = 48
          have hSub : a.toNat - 48 = 0 := hZero
          omega
        exact hNonzero (Char.toNat_inj.mp hCode)
      · cases ha
    show 32 ≤ ((0 * 8 + (a.toNat - '0'.toNat)) * 8 + (b.toNat - '0'.toNat)) * 8 +
      (c.toNat - '0'.toNat)
    omega

/-- The code fits a byte, however many digits were taken. -/
theorem octalDigits_byte {code : Nat} (hCode : code ≤ 255) (cs : List Char) :
    (octalDigits code cs).1 ≤ 255 := by
  induction cs generalizing code with
  | nil => exact hCode
  | cons c rest ih =>
    by_cases hc : isOctal c
    · by_cases hMore : code < 32
      · rw [octalDigits_cons hc hMore]
        have hDigit := (octalValue_of_isOctal hc).2
        exact ih (by omega)
      · rw [octalDigits_full (Nat.le_of_not_lt hMore)]
        exact hCode
    · rw [octalDigits_stop code (List.takeWhile_cons_of_neg hc)]
      exact hCode

/-- Only octal digits are taken. -/
theorem octalDigits_le (code : Nat) (cs : List Char) :
    (octalDigits code cs).2 ≤ (octalRun cs).length := by
  rw [← octalDigits_run]
  exact octalDigits_fits code (octalRun cs)

/-! ## The walk over a string -/

/-- From the start of a string literal the walk gets to the rest of the text, with no escape under
way. -/
inductive Walks (quote : Char) (body : List Char) : List Char → StringScan → Prop
  | start : Walks quote body body { literal := { quote } }
  | plain {c : Char} {rest : List Char} {s : StringScan} (h : Walks quote body (c :: rest) s)
    (hBreak : Text.isLineTerminator c = false) (hQuote : c ≠ quote) (hMark : c ≠ '\x5c') :
    Walks quote body rest (s.push c)
  | escape {rest : List Char} {s : StringScan} (h : Walks quote body ('\x5c' :: rest) s)
    (hQuote : quote ≠ '\x5c') :
    Walks quote body (rest.drop (Escape.read rest).length) (s.pushEscape (Escape.read rest))

variable {body : List Char}

/-- Characters that an escape has accounted for are passed over. -/
theorem stringBody_skip (quote : Char) (skip : Nat) (cs : List Char) (s : StringScan) :
    stringBody quote skip cs s = stringBody quote 0 (cs.drop skip) s := by
  induction skip generalizing cs with
  | zero => rfl
  | succ skip ih =>
    cases cs with
    | nil =>
      rw [List.drop_nil, stringBody, stringBody]
    | cons c rest =>
      rw [stringBody, List.drop_succ_cons]
      exact ih rest

/-- What is left of the walk decides what the string is. -/
theorem Walks.stringBody_eq (h : Walks quote body rest s) :
    stringBody quote 0 body { literal := { quote } } = stringBody quote 0 rest s := by
  induction h with
  | start => rfl
  | @plain c rest s _ hBreak hQuote hMark ih =>
    rw [ih, stringBody, if_neg (Bool.eq_false_iff.mp hBreak),
      if_neg (fun h => hQuote (beq_iff_eq.mp h)), if_neg (fun h => hMark (beq_iff_eq.mp h))]
  | @escape rest s _ hQuote ih =>
    have hOther : ¬('\x5c' == quote) = true := fun h => hQuote (beq_iff_eq.mp h).symm
    have hSame : ('\x5c' == '\x5c') = true := rfl
    rw [ih, stringBody, if_neg (by decide), if_neg hOther, if_pos hSame]
    exact stringBody_skip ..

/-- Characters that are pushed one by one are appended. -/
theorem toList_foldl_push (text : List Char) (value : String) :
    (text.foldl String.push value).toList = value.toList ++ text := by
  induction text generalizing value with
  | nil => rw [List.foldl_nil, List.append_nil]
  | cons c text ih =>
    rw [List.foldl_cons, ih, String.toList_push, List.append_assoc, List.singleton_append]

/-- The value of a string only grows, and its flag stays raised. -/
theorem stringBody_grows (quote : Char) (skip : Nat) (cs : List Char) (s : StringScan) :
    s.literal.value.toList <+: (stringBody quote skip cs s).literal.value.toList ∧
      (s.literal.octal → (stringBody quote skip cs s).literal.octal) := by
  fun_induction stringBody quote skip cs s with
  | case1 => exact ⟨List.prefix_refl _, id⟩
  | case2 _ _ _ _ ih => exact ih
  | case3 => exact ⟨List.prefix_refl _, id⟩
  | case4 => exact ⟨List.prefix_refl _, id⟩
  | case5 c rest s _ _ _ e ih =>
    obtain ⟨hValue, hFlag⟩ := ih
    constructor
    · refine List.IsPrefix.trans ?_ hValue
      show s.literal.value.toList <+: (e.text.foldl String.push s.literal.value).toList
      rw [toList_foldl_push]
      exact List.prefix_append _ _
    · intro hOctal
      refine hFlag ?_
      show (s.literal.octal || e.octal) = true
      rw [hOctal, Bool.true_or]
  | case6 c rest s _ _ _ ih =>
    obtain ⟨hValue, hFlag⟩ := ih
    constructor
    · refine List.IsPrefix.trans ?_ hValue
      show s.literal.value.toList <+: (s.literal.value.push c).toList
      rw [String.toList_push]
      exact List.prefix_append _ _
    · exact hFlag

/-- The literal of a string, whether or not it is well formed. -/
theorem significant_scanString (templates : List Nat) (quote : Char) (body : List Char) :
    (scanString templates quote body).significant? =
      some (.string (stringBody quote 0 body { literal := { quote } }).literal) := by
  unfold scanString
  dsimp only
  split
  · rfl
  · split
    · rfl
    · rfl

/-! ## Octal escapes -/

/-- The digits after a backslash are no octal escape if they are a single zero and no decimal digit
follows. -/
def isNull (cs : List Char) : Bool := octalRun cs == ['0'] && !(cs.drop 1).head?.any Char.isDigit

/-- No escape but the octal one begins with an octal digit, and octal digits are decimal digits. -/
theorem plain_of_isOctal (h : isOctal c) :
    c ∉ specialEscapes ∧ Text.isLineTerminator c = false ∧ c.isDigit = true := by
  have hDigit := mem_of_isOctal h
  simp only [List.mem_cons, List.not_mem_nil, or_false] at hDigit
  rcases hDigit with rfl | rfl | rfl | rfl | rfl | rfl | rfl | rfl <;> exact ⟨by decide, rfl, rfl⟩

/-- The escape that octal digits write. -/
theorem read_octal (hRun : octalRun cs ≠ []) (hNull : isNull cs = false) :
    Escape.read cs = {
      length := (octalDigits 0 cs).2
      text := [Char.ofNat (octalDigits 0 cs).1]
      octal := true } := by
  -- the code is a byte, so it is a character
  have hByte := octalDigits_byte (Nat.zero_le 255) cs
  have hScalar : Text.scalar? (octalDigits 0 cs).1 = some (Char.ofNat (octalDigits 0 cs).1) := by
    refine if_pos ?_
    left
    omega
  cases cs with
  | nil => exact absurd rfl hRun
  | cons c rest =>
    have hOctal :
        isOctal c := Decidable.byContradiction fun hc => hRun (List.takeWhile_cons_of_neg hc)
    obtain ⟨hSpecial, hBreak, -⟩ := plain_of_isOctal hOctal
    have hZero : ¬(c == '0' && !(rest.head?.any Char.isDigit)) = true := by
      intro h
      obtain ⟨hc, hNext⟩ := Bool.and_eq_true_iff.mp h
      obtain rfl : c = '0' := beq_iff_eq.mp hc
      have hLone : rest.head?.any Char.isDigit = false := by simpa using hNext
      -- the digit behind the zero would be a decimal one
      have hNone : octalRun rest = [] := by
        cases rest with
        | nil => rfl
        | cons d rest =>
          refine List.takeWhile_cons_of_neg fun hd => ?_
          rw [List.head?_cons, Option.any_some, (plain_of_isOctal hd).2.2] at hLone
          cases hLone
      have hRun : octalRun ('0' :: rest) = ['0'] := by
        unfold octalRun at hNone ⊢
        rw [List.takeWhile_cons_of_pos rfl, hNone]
      rw [isNull, hRun, List.drop_one, List.tail_cons, hLone] at hNull
      cases hNull
    rw [octalDigits_cons hOctal (by decide), Nat.zero_mul, Nat.zero_add] at hScalar ⊢
    rw [escape_other hSpecial, if_neg (Bool.eq_false_iff.mp hBreak), if_neg hZero,
      (octalValue_of_isOctal hOctal).1]
    dsimp only at hScalar ⊢
    rw [hScalar]
    rfl

/-- Digits that were not taken are ordinary characters. -/
theorem Walks.leftover (hQuote : quote = '\x22' ∨ quote = '\x27')
    (hDigits : ∀ d ∈ digits, isOctal d)
    (h : Walks quote body (digits ++ rest) s) :
    Walks quote body rest (digits.foldl StringScan.push s) := by
  induction digits generalizing s with
  | nil => exact h
  | cons d digits ih =>
    obtain ⟨hd, hDigits⟩ := List.forall_mem_cons.mp hDigits
    have hPlain := plain_of_isOctal hd
    have hOther {e : Char} (he : e.isDigit = false) : d ≠ e := by
      rintro rfl
      rw [hPlain.2.2] at he
      cases he
    have hEnd : d ≠ quote := by
      rcases hQuote with rfl | rfl
      · exact hOther rfl
      · exact hOther rfl
    exact ih hDigits (h.plain hPlain.2.1 hEnd (hOther rfl))

/-- Digits that are pushed are appended and nothing else. -/
theorem foldl_push (digits : List Char) (s : StringScan) :
    (digits.foldl StringScan.push s).literal.value.toList = s.literal.value.toList ++ digits ∧
      (digits.foldl StringScan.push s).literal.octal = s.literal.octal := by
  induction digits generalizing s with
  | nil => exact ⟨(List.append_nil _).symm, rfl⟩
  | cons d digits ih =>
    obtain ⟨hValue, hFlag⟩ := ih (s.push d)
    have hPush : (s.push d).literal.value.toList = s.literal.value.toList ++ [d] :=
      String.toList_push d
    rw [List.foldl_cons]
    refine ⟨?_, hFlag⟩
    rw [hValue, hPush, List.append_assoc, List.singleton_append]

/-- Takes in a backslash and the octal digits after it as one character. -/
def StringScan.pushOctal (s : StringScan) (digits : List Char) : StringScan :=
  s.pushEscape { length := digits.length, text := [Char.ofNat (octalValue digits)], octal := true }

/-- What a string does with a backslash and the octal digits after it, of which it takes `taken`. -/
structure OctalEscape (templates : List Nat) (quote : Char) (body rest : List Char) (s : StringScan)
    (taken : Nat) : Prop where
  some : 0 < taken
  within : taken ≤ (octalRun rest).length
  /-- The character is the one of a byte. -/
  byte : octalValue ((octalRun rest).take taken) ≤ 255
  /-- Taken are all zeros at the front, and of the other digits at most three, as long as they fit a
  byte. -/
  split : ∃ count, LegacyPrefix ((octalRun rest).dropWhile (· == '0')) count ∧
    taken = ((octalRun rest).takeWhile (· == '0')).length + count
  /-- These are the longest prefix of at most three digits that fits a byte, unless there are more
  than three digits and the first three write a code below 32. -/
  legacy : LegacyPrefix (octalRun rest) taken ↔
    (octalRun rest).length ≤ 3 ∨ 32 ≤ octalValue ((octalRun rest).take 3)
  /-- They stand for one character, and the flag is raised. -/
  walks : Walks quote body (rest.drop taken) (s.pushOctal ((octalRun rest).take taken))
  /-- The other digits stand for themselves. -/
  leftover : Walks quote body (rest.dropWhile isOctal)
    (((octalRun rest).drop taken).foldl StringScan.push (s.pushOctal ((octalRun rest).take taken)))
  /-- All of this is in the literal that the string is. -/
  literal : ∃ literal, (scanString templates quote body).significant? =
    Option.some (.string literal) ∧ literal.octal = true ∧
    s.literal.value.toList ++ Char.ofNat (octalValue ((octalRun rest).take taken)) ::
      (octalRun rest).drop taken <+: literal.value.toList

/-- Every octal escape in every string. -/
theorem octal_escape (templates : List Nat) (hQuote : quote = '\x22' ∨ quote = '\x27')
    (h : Walks quote body ('\x5c' :: rest) s) (hRun : octalRun rest ≠ [])
    (hNull : isNull rest = false) :
    OctalEscape templates quote body rest s (octalDigits 0 rest).2 := by
  -- the digits that are taken are octal, fit a byte, and are a prefix of all that follow
  have hDigits : ∀ d ∈ octalRun rest, isOctal d := fun d hd => isOctal_of_mem hd
  have hLegacy := legacyPrefix_octalDigits hDigits
  have hZeros := octalDigits_zeros hDigits
  have hByte := octalDigits_byte (Nat.zero_le 255) rest
  have hWithin := octalDigits_le 0 rest
  have hValue :
      (octalDigits 0 rest).1 = octalValue ((octalRun rest).take (octalDigits 0 rest).2) := by
    rw [← octalDigits_run]
    exact octalDigits_value 0 hDigits
  rw [octalDigits_run] at hLegacy hZeros
  have hSome : 0 < (octalDigits 0 rest).2 := by
    cases rest with
    | nil => exact absurd rfl hRun
    | cons c rest =>
      have hc :
          isOctal c := Decidable.byContradiction fun hc => hRun (List.takeWhile_cons_of_neg hc)
      rw [octalDigits_cons hc (by decide)]
      exact Nat.succ_pos _
  have hMark : quote ≠ '\x5c' := by
    rintro rfl
    rcases hQuote with hc | hc <;> cases hc
  -- the walk takes the escape, and then the digits that are left
  have hWalks := h.escape hMark
  rw [read_octal hRun hNull] at hWalks
  dsimp only at hWalks
  rw [hValue] at hByte hWalks
  generalize (octalDigits 0 rest).2 = taken at *
  have hPush : s.pushOctal ((octalRun rest).take taken) = s.pushEscape {
      length := taken
      text := [Char.ofNat (octalValue ((octalRun rest).take taken))]
      octal := true } := by
    rw [StringScan.pushOctal, List.length_take_of_le hWithin]
  rw [← hPush] at hWalks
  have hLeft : Walks quote body (rest.dropWhile isOctal)
      (((octalRun rest).drop taken).foldl StringScan.push
        (s.pushOctal ((octalRun rest).take taken))) := by
    have hSplit : octalRun rest ++ rest.dropWhile isOctal = rest := List.takeWhile_append_dropWhile
    have hRest : rest.drop taken = (octalRun rest).drop taken ++ rest.dropWhile isOctal := by
      rw [← List.drop_append_of_le_length hWithin, hSplit]
    rw [hRest] at hWalks
    exact hWalks.leftover hQuote fun d hd => hDigits d (List.mem_of_mem_drop hd)
  -- behind leading zeros the prefix is the legacy one
  refine ⟨hSome, hWithin, hByte, ⟨_, ?_, hZeros⟩, hLegacy, hWalks, hLeft, ?_⟩
  · refine legacyPrefix_of_nonzero (fun d hd => hDigits d ((List.dropWhile_suffix _).subset hd)) ?_
    intro hZero
    have hFirst := List.head?_dropWhile_not (· == '0') (octalRun rest)
    rw [hZero] at hFirst
    cases hFirst
  · have hTotal := hLeft.stringBody_eq
    refine ⟨_, significant_scanString templates quote body, ?_, ?_⟩
    · rw [hTotal]
      refine (stringBody_grows quote 0 _ _).2 ?_
      rw [(foldl_push _ _).2]
      exact Bool.or_true _
    · rw [hTotal]
      refine List.IsPrefix.trans ?_ (stringBody_grows quote 0 _ _).1
      rw [(foldl_push _ _).1]
      show _ <+: (String.push s.literal.value _).toList ++ _
      rw [String.toList_push, List.append_assoc]
      exact List.prefix_refl _

/-- Three zeros and a one are all taken, which is one digit more than three. -/
theorem octal_escape_zeros :
    OctalEscape [] '\x27' ('\x5c' :: "0001\x27".toList) "0001\x27".toList
      { literal := { quote := '\x27' } } 4 ∧ ¬LegacyPrefix (octalRun "0001\x27".toList) 4 := by
  have hEscape : OctalEscape [] '\x27' ('\x5c' :: "0001\x27".toList) "0001\x27".toList
      { literal := { quote := '\x27' } } 4 :=
    octal_escape [] (.inr rfl) .start (by decide) (by decide)
  refine ⟨hEscape, ?_⟩
  rw [hEscape.legacy]
  decide

end ScriptLint.Lexer
