import ScriptLint.Proofs.Directives.Layouts
import ScriptLint.Proofs.LineEndings.Texts

/-!
# Scanning with carriage returns

No scanner minds the carriage returns: it stops at the same places and recognises the same, apart
from the text of block comments.

- `wordBody_crlf`, `stringBody_crlf`, `regexpBody_crlf`, `commentBody_crlf`, `scanNumber_crlf`: what
  the walks over the text find.
- `ofComment_crlf`: a directive does not depend on how its lines end.
- `scan_crlf`: what is recognised at the front of the text.
- `TokenKind.ReadsAlike`, `scan_readsAlike`: what the grammar reads off the text of a token is the
  same.
-/

namespace ScriptLint

namespace Lexer

variable {cs rest full : List Char} {c : Char}

/-! ## Escapes -/

/-- Digits are read up to the end of a line at most. -/
theorem hexDigits_crlf (count code : Nat) (cs : List Char) :
    hexDigits count code (crlf cs) = hexDigits count code cs := by
  induction cs generalizing count code with
  | nil => rfl
  | cons c rest ih =>
    by_cases hc : c = '\n'
    · subst hc
      cases count <;> rfl
    · rw [crlf_cons hc]
      cases count with
      | zero => rfl
      | succ count =>
        rw [hexDigits, hexDigits]
        simp only [ih]

/-- The braces of an escape hold no line end. -/
theorem bracedDigits_crlf (code : Nat) (any : Bool) (cs : List Char) :
    bracedDigits code any (crlf cs) = bracedDigits code any cs := by
  induction cs generalizing code any with
  | nil => rfl
  | cons c rest ih =>
    by_cases hc : c = '\n'
    · subst hc
      cases any <;> rfl
    · rw [crlf_cons hc, bracedDigits, bracedDigits]
      simp only [ih]

/-- Both forms of a Unicode escape are read alike. -/
theorem unicodeEscape_crlf (cs : List Char) : unicodeEscape (crlf cs) = unicodeEscape cs := by
  cases cs with
  | nil => rfl
  | cons c rest =>
    by_cases hc : c = '\n'
    · subst hc
      rfl
    by_cases hBrace : c = '\x7b'
    · subst hBrace
      rw [crlf_cons hc, unicodeEscape, unicodeEscape, bracedDigits_crlf]
    · have hPlain (l : List Char) : unicodeEscape (c :: l) = hexDigits 4 0 (c :: l) := by
        rw [unicodeEscape]
        exact fun _ hEq => hBrace (List.cons.inj hEq).1
      rw [crlf_cons hc, hPlain, hPlain, ← crlf_cons hc, hexDigits_crlf]

/-- Octal digits are read up to the end of a line at most. -/
theorem octalDigits_crlf (code : Nat) (cs : List Char) :
    octalDigits code (crlf cs) = octalDigits code cs := by
  induction cs generalizing code with
  | nil => rfl
  | cons c rest ih =>
    by_cases hc : c = '\n'
    · subst hc
      rfl
    · rw [crlf_cons hc, octalDigits, octalDigits]
      simp only [ih]

/-- The escape of a letter of a name is read alike. -/
theorem nameEscape_crlf (cs : List Char) : nameEscape (crlf cs) = nameEscape cs := by
  cases cs with
  | nil => rfl
  | cons c rest =>
    by_cases hc : c = '\n'
    · subst hc
      rfl
    by_cases hLetter : c = 'u'
    · subst hLetter
      rw [crlf_cons hc, nameEscape, nameEscape, unicodeEscape_crlf]
    · have hOther (l : List Char) : nameEscape (c :: l) = ⟨none, 0⟩ := by
        rw [nameEscape]
        exact fun _ hEq => hLetter (List.cons.inj hEq).1
      rw [crlf_cons hc, hOther, hOther]

/-- A line feed is a line terminator. -/
theorem not_mem_of_any {l : List Char} (h : l.any Text.isLineTerminator = false) : '\n' ∉ l :=
  fun hMem => List.any_eq_false.mp h _ hMem rfl

/-- An escape in a name takes in no line feed, so that nothing is shifted. -/
theorem shifted_nameEscape (cs : List Char) :
    shifted cs (nameEscape cs).length = (nameEscape cs).length :=
  shifted_of_unbroken (not_mem_of_any (nameEscape_unbroken cs)) (nameEscape_fits cs)

/-- Octal digits are read within one line. -/
theorem octalDigits_unbroken (code : Nat) (cs : List Char) :
    '\n' ∉ cs.take (octalDigits code cs).2 := by
  fun_induction octalDigits code cs with
  | case1 => exact List.not_mem_nil
  -- the digit that is read is no line feed, whatever the remaining digits are
  | case2 code c rest digit hc hSmall total length hRest ih =>
    rw [hRest] at ih
    rw [List.take_succ_cons, List.mem_cons, not_or]
    refine ⟨?_, ih⟩
    rintro rfl
    cases hc
  | case3 => exact List.not_mem_nil
  | case4 => exact List.not_mem_nil

/-- An escape in a string takes in no line feed, unless it continues the string on the next line. -/
theorem escape_unbroken (hFeed : c ≠ '\n') (hReturn : c ≠ '\r') (rest : List Char) :
    '\n' ∉ (c :: rest).take (Escape.read (c :: rest)).length := by
  have hOne {n : Nat} (h : '\n' ∉ rest.take n) : '\n' ∉ (c :: rest).take (n + 1) := by
    rw [List.take_succ_cons, List.mem_cons, not_or]
    exact ⟨hFeed.symm, h⟩
  have hNothing : '\n' ∉ rest.take 0 := List.not_mem_nil
  by_cases hSpecial : c ∈ specialEscapes
  · simp only [specialEscapes, List.mem_cons, List.not_mem_nil, or_false] at hSpecial
    rcases hSpecial with rfl | rfl | rfl | rfl | rfl | rfl | rfl | rfl | rfl
    -- the letters that stand for one character each take in nothing but themselves
    iterate 6 exact hOne hNothing
    · rw [Escape.read, length_ofDecoded]
      exact hOne (not_mem_of_any (hexDigits_unbroken 2 0 rest))
    · rw [Escape.read, length_ofDecoded]
      exact not_mem_of_any (nameEscape_unbroken ('u' :: rest))
    · exact absurd rfl hReturn
  · rw [escape_other hSpecial]
    split
    · exact hOne hNothing
    · split
      · exact hOne hNothing
      · split
        · exact hOne (octalDigits_unbroken _ rest)
        · exact hOne hNothing

/-- An escape that does not start with a line end has the same length and the same text in both. -/
theorem escape_plain (hFeed : c ≠ '\n') (hReturn : c ≠ '\r') (rest : List Char) :
    Escape.read (c :: crlf rest) = Escape.read (c :: rest) := by
  by_cases hSpecial : c ∈ specialEscapes
  · simp only [specialEscapes, List.mem_cons, List.not_mem_nil, or_false] at hSpecial
    rcases hSpecial with rfl | rfl | rfl | rfl | rfl | rfl | rfl | rfl | rfl
    -- what the letters stand for is fixed, only the digits behind `x` and `u` are read on
    iterate 6 rfl
    · rw [Escape.read, Escape.read, hexDigits_crlf]
    · rw [Escape.read, Escape.read, unicodeEscape_crlf]
    · exact absurd rfl hReturn
  · have hDigit := head_any_crlf (p := Char.isDigit) rfl rest
    rw [escape_other hSpecial, escape_other hSpecial, hDigit]
    simp only [octalDigits_crlf]

/-- An escape reaches as far as it did, and over the carriage return if it continues the string. -/
theorem escape_crlf (hText : '\r' ∉ cs) :
    Escape.read (crlf cs) =
      { Escape.read cs with length := shifted cs (Escape.read cs).length } := by
  cases cs with
  | nil => rfl
  | cons c rest =>
    by_cases hFeed : c = '\n'
    · subst hFeed
      rfl
    · have hReturn : c ≠ '\r' := fun hEq => hText (hEq ▸ List.mem_cons_self)
      rw [crlf_cons hFeed, escape_plain hFeed hReturn,
        shifted_of_unbroken (escape_unbroken hFeed hReturn rest) (escape_fits _)]

/-! ## Words -/

/-- The scan in the text with the carriage returns. -/
def WordScan.crlf (text : List Char) (s : WordScan) : WordScan :=
  { s with length := shifted text s.length, badEscape := s.badEscape.map (shifted text) }

/-- What was read before the characters at hand, some of which were accounted for already. -/
theorem drop_skip {n skip : Nat} (hSkip : skip + 1 ≤ n)
    (hFull : full.drop (n - (skip + 1)) = c :: rest) : full.drop (n - skip) = rest := by
  rw [show n - skip = n - (skip + 1) + 1 by omega, ← List.tail_drop, hFull, List.tail_cons]

/-- Past a character that is no line feed. -/
theorem shifted_past {n : Nat} (hFull : full.drop n = c :: rest) (hc : c ≠ '\n') (k : Nat) :
    shifted full (n + 1 + k) = shifted full n + 1 + shifted rest k := by
  rw [Nat.add_assoc, shifted_next hFull, Nat.add_comm 1 k, shifted_cons hc]
  omega

/-- An offset behind a character that is no line feed is shifted as far as the one before it. -/
theorem shifted_succ {n : Nat} (hFull : full.drop n = c :: rest) (hc : c ≠ '\n') :
    shifted full (n + 1) = shifted full n + 1 :=
  shifted_past hFull hc 0

/-- What is left behind one more character. -/
theorem drop_succ {n : Nat} (hFull : full.drop n = c :: rest) : full.drop (n + 1) = rest := by
  rw [← List.tail_drop, hFull, List.tail_cons]

/-- A word is scanned to the same text; what was passed over lies behind the shifted offsets. By
induction on the recursion of the scanner, which skips the characters of an escape one by one. -/
theorem wordBody_crlf {skip : Nat} {s : WordScan} (hSkip : skip ≤ s.length)
    (hFull : full.drop (s.length - skip) = cs) :
    wordBody (shifted cs skip) (crlf cs) (s.crlf full) = (wordBody skip cs s).crlf full := by
  fun_induction wordBody skip cs s with
  | case1 skip s =>
    rw [crlf_nil, wordBody]
  | case2 skip c rest s ih =>
    have hRest := ih (Nat.le_of_succ_le hSkip) (drop_skip hSkip hFull)
    by_cases hc : c = '\n'
    · subst hc
      rw [shifted_feed, crlf_feed, wordBody, wordBody, hRest]
    · rw [shifted_cons hc, crlf_cons hc, wordBody, hRest]
  | case3 c rest s hEscape decoded length letter hLetter ih =>
    have hc : c ≠ '\n' := by
      rintro rfl
      cases hEscape
    -- the escape is passed over in one go, so the offset behind it is shifted once
    have hHere : full.drop s.length = c :: rest := hFull
    have hLength : shifted full length = shifted full s.length + 1 + decoded.length := by
      rw [shifted_past hHere hc, shifted_nameEscape]
    have hNext : full.drop (length - decoded.length) = rest := by
      rw [Nat.add_sub_cancel, drop_succ hHere]
    have hRest := ih (Nat.le_add_left _ _) hNext
    rw [shifted_nameEscape] at hRest
    rw [shifted_zero, crlf_cons hc, wordBody, if_pos hEscape, nameEscape_crlf]
    dsimp only
    rw [hLetter, ← hRest]
    dsimp only [WordScan.crlf]
    rw [hLength]
  | case4 c rest s hEscape decoded length hNone =>
    have hc : c ≠ '\n' := by
      rintro rfl
      cases hEscape
    have hHere : full.drop s.length = c :: rest := hFull
    have hLength : shifted full length = shifted full s.length + 1 + decoded.length := by
      rw [shifted_past hHere hc, shifted_nameEscape]
    rw [shifted_zero, crlf_cons hc, wordBody, if_pos hEscape, nameEscape_crlf]
    dsimp only
    rw [hNone]
    dsimp only [WordScan.crlf]
    rw [hLength]
    rfl
  | case5 c rest s hEscape hPart ih =>
    have hc : c ≠ '\n' := by
      rintro rfl
      exact absurd hPart (by decide +kernel)
    have hHere : full.drop s.length = c :: rest := hFull
    have hRest := ih (Nat.zero_le _) (drop_succ hHere)
    rw [shifted_zero] at hRest
    rw [shifted_zero, crlf_cons hc, wordBody, if_neg hEscape, if_pos hPart, ← hRest]
    dsimp only [WordScan.crlf]
    rw [shifted_succ hHere hc]
  | case6 c rest s hEscape hPart =>
    by_cases hc : c = '\n'
    · subst hc
      rw [shifted_zero, crlf_feed, wordBody, if_neg (by decide), if_neg (by decide +kernel)]
    · rw [shifted_zero, crlf_cons hc, wordBody, if_neg hEscape, if_neg hPart]

/-! ## Literals -/

/-- The scan in the text with the carriage returns. -/
def StringScan.crlf (text : List Char) (s : StringScan) : StringScan :=
  { s with length := shifted text s.length, badEscape := s.badEscape.map (shifted text) }

/-- A string is scanned to the same literal, as far as its escapes go. A line end behind a backslash
is one escape in both texts, but not of the same length. -/
theorem stringBody_crlf {quote : Char} (hText : '\r' ∉ cs) {skip : Nat}
    {s : StringScan} (hSkip : skip ≤ s.length) (hFull : full.drop (s.length - skip) = cs) :
    stringBody quote (shifted cs skip) (crlf cs) (s.crlf full) =
      (stringBody quote skip cs s).crlf full := by
  fun_induction stringBody quote skip cs s with
  | case1 skip s => rw [crlf_nil, stringBody]
  | case2 skip c rest s ih =>
    have hRest :=
      ih (fun h => hText (List.mem_cons_of_mem c h)) (Nat.le_of_succ_le hSkip)
        (drop_skip hSkip hFull)
    by_cases hc : c = '\n'
    · subst hc
      rw [shifted_feed, crlf_feed, stringBody, stringBody, hRest]
    · rw [shifted_cons hc, crlf_cons hc, stringBody, hRest]
  | case3 c rest s hBreak =>
    by_cases hc : c = '\n'
    · subst hc
      rw [shifted_zero, crlf_feed, stringBody, if_pos (by decide)]
    · rw [shifted_zero, crlf_cons hc, stringBody, if_pos hBreak]
  | case4 c rest s hBreak hQuote =>
    have hc : c ≠ '\n' := by
      rintro rfl
      exact hBreak rfl
    have hHere : full.drop s.length = c :: rest := hFull
    rw [shifted_zero, crlf_cons hc, stringBody, if_neg hBreak, if_pos hQuote]
    dsimp only [StringScan.crlf, StringScan.close]
    rw [shifted_succ hHere hc]
  | case5 c rest s hBreak hQuote hEscape e ih =>
    have hc : c ≠ '\n' := by
      rintro rfl
      exact hBreak rfl
    have hRest := fun h => hText (List.mem_cons_of_mem c h)
    have hHere : full.drop s.length = c :: rest := hFull
    have hNext : full.drop ((s.pushEscape e).length - e.length) = rest := by
      rw [StringScan.pushEscape, Nat.add_sub_cancel, drop_succ hHere]
    have hTail := ih hRest (Nat.le_add_left _ _) hNext
    -- pushing the longer escape moves the scan by as much as the rewritten text is longer
    have hPushed : ((s.crlf full).pushEscape { e with length := shifted rest e.length }) =
        (s.pushEscape e).crlf full := by
      dsimp only [StringScan.crlf, StringScan.pushEscape]
      rw [shifted_past hHere hc]
      cases s.badEscape with
      | some offset => rfl
      | none =>
        cases e.bad with
        | true => simp [shifted_succ hHere hc]
        | false => rfl
    rw [shifted_zero, crlf_cons hc, stringBody, if_neg hBreak, if_neg hQuote, if_pos hEscape,
      escape_crlf hRest]
    dsimp only
    rw [← hTail, ← hPushed]
  | case6 c rest s hBreak hQuote hEscape ih =>
    have hc : c ≠ '\n' := by
      rintro rfl
      exact hBreak rfl
    have hHere : full.drop s.length = c :: rest := hFull
    have hRest := ih (fun h => hText (List.mem_cons_of_mem c h)) (Nat.zero_le _) (drop_succ hHere)
    have hPushed : (s.crlf full).push c = (s.push c).crlf full := by
      dsimp only [StringScan.crlf, StringScan.push]
      rw [shifted_succ hHere hc]
    rw [shifted_zero] at hRest
    rw [shifted_zero, crlf_cons hc, stringBody, if_neg hBreak, if_neg hQuote, if_neg hEscape,
      hPushed, hRest]

/-- The scan in the text with the carriage returns. -/
def RegexpScan.crlf (text : List Char) (s : RegexpScan) :
    RegexpScan := { s with length := shifted text s.length }

/-- A regular expression ends before the same line end or behind the same slash. -/
theorem regexpBody_crlf {inClass : Bool} {s : RegexpScan} (hFull : full.drop s.length = cs) :
    regexpBody inClass (crlf cs) (s.crlf full) = (regexpBody inClass cs s).crlf full := by
  fun_induction regexpBody inClass cs s with
  | case1 => rw [crlf_nil, regexpBody]
  | case2 inClass c rest s hBreak =>
    have hHere : shifted full (s.length + 1) = shifted full s.length + 1 :=
      shifted_succ hFull (by decide)
    rw [crlf_cons (by decide)]
    by_cases hc : c = '\n'
    · subst hc
      rw [crlf_feed, regexpBody, if_pos (by decide)]
      dsimp only [RegexpScan.crlf]
      rw [hHere]
    · rw [crlf_cons hc, regexpBody, if_pos hBreak]
      dsimp only [RegexpScan.crlf]
      rw [hHere]
  | case3 inClass c rest s hBreak ih =>
    have hc : c ≠ '\n' := by
      rintro rfl
      exact hBreak rfl
    have hNext : full.drop (s.length + 1) = c :: rest := drop_succ hFull
    have hLength : shifted full (s.length + 2) = shifted full s.length + 2 := by
      rw [shifted_succ hNext hc, shifted_succ hFull (by decide)]
    rw [crlf_cons (by decide), crlf_cons hc, regexpBody, if_neg hBreak, ← ih (drop_succ hNext)]
    dsimp only [RegexpScan.crlf]
    rw [hLength]
  | case4 inClass c rest s hEscape hBreak =>
    by_cases hc : c = '\n'
    · subst hc
      rw [crlf_feed, regexpBody_plain _ _ (fun hMark => absurd hMark (by decide)),
        if_pos (by decide)]
    · rw [crlf_cons hc, regexpBody_plain, if_pos hBreak]
      rintro rfl
      cases hBreak
  | case5 inClass c rest s hEscape hBreak hClose =>
    have hc : c ≠ '\n' := by
      rintro rfl
      exact hBreak rfl
    rw [crlf_cons hc, regexpBody_plain, if_neg hBreak, if_pos hClose]
    · dsimp only [RegexpScan.crlf]
      rw [shifted_succ hFull hc]
    · rintro rfl
      cases hClose
  | case6 inClass c rest s hEscape hBreak hClose ih =>
    have hc : c ≠ '\n' := by
      rintro rfl
      exact hBreak rfl
    -- a lone backslash at the end of the text escapes nothing in either text
    have hLast (hMark : c = '\x5c') : crlf rest = [] := by
      cases rest with
      | nil => rfl
      | cons d tail => exact (hEscape d tail hMark rfl).elim
    rw [crlf_cons hc, regexpBody_plain _ _ hLast, if_neg hBreak,
      if_neg hClose, ← ih (drop_succ hFull)]
    dsimp only [RegexpScan.crlf]
    rw [shifted_succ hFull hc]

/-! ## Comments -/

/-- The scan in the text with the carriage returns. -/
def CommentScan.crlf (text : List Char) (s : CommentScan) : CommentScan :=
  { s with length := shifted text s.length }

/-- A character that does not close the comment becomes part of it. -/
theorem commentBody_plain (s : CommentScan) (h : c = '*' → rest.head? ≠ some '/') :
    commentBody (c :: rest) s = commentBody rest { s with
      length := s.length + 1
      newline := s.newline || Text.isLineTerminator c } := by
  rw [commentBody]
  rintro tail hc rfl
  exact h hc rfl

/-- The body of a comment is as long as the rewritten one, and has a line break if it had one. -/
theorem commentBody_crlf {s : CommentScan} (hFull : full.drop s.length = cs) :
    commentBody (crlf cs) (s.crlf full) = (commentBody cs s).crlf full := by
  fun_induction commentBody cs s with
  | case1 => rw [crlf_nil, commentBody]
  | case2 tail s =>
    rw [crlf_cons (by decide), crlf_cons (by decide), commentBody]
    rfl
  | case3 c rest s hOpen ih =>
    have hRest := ih (drop_succ hFull)
    by_cases hc : c = '\n'
    · subst hc
      have hLength : shifted full (s.length + 1) = shifted full s.length + 2 := by
        rw [shifted_next hFull]
        rfl
      -- a line end is two characters of the rewritten comment, none of which closes it
      rw [crlf_feed, commentBody_plain (c := '\r') _ (fun hStar => absurd hStar (by decide)),
        commentBody_plain (c := '\n') _ (fun hStar => absurd hStar (by decide)), ← hRest]
      dsimp only [CommentScan.crlf]
      rw [hLength, Bool.or_assoc]
      rfl
    -- a slash behind the star would still be there in the text that is rewritten
    · have hOther (hStar : c = '*') : (crlf rest).head? ≠ some '/' := by
        cases rest with
        | nil =>
          intro hHead
          cases hHead
        | cons d tail =>
          by_cases hd : d = '\n'
          · subst hd
            rw [crlf_feed]
            exact fun hSlash => absurd (Option.some.inj hSlash) (by decide)
          · rw [crlf_cons hd, List.head?_cons, Ne, Option.some.injEq]
            rintro rfl
            exact hOpen tail hStar rfl
      rw [crlf_cons hc, commentBody_plain _ hOther, ← hRest]
      dsimp only [CommentScan.crlf]
      rw [shifted_succ hFull hc]

/-! ## Numbers -/

/-- A run of digits and separators ends at the same place. -/
theorem digitRun_crlf {accept : Char → Bool} (hFeed : accept '\n' = false)
    (hReturn : accept '\r' = false) (cs : List Char) :
    digitRun accept (crlf cs) =
      { digitRun accept cs with rest := crlf (digitRun accept cs).rest } := by
  unfold digitRun
  dsimp only
  rw [takeWhile_crlf (by rw [hFeed]; rfl) (by rw [hReturn]; rfl),
    dropWhile_crlf (by rw [hFeed, hReturn]; rfl)]

/-- The prefix of a number tells the same radix. -/
theorem radix_crlf (cs : List Char) : radix? (crlf cs) = radix? cs := by
  cases cs with
  | nil => rfl
  | cons c rest =>
    by_cases hc : c = '\n'
    · subst hc
      rfl
    by_cases hZero : c = '0'
    · subst hZero
      cases rest with
      | nil => rfl
      | cons d tail =>
        by_cases hd : d = '\n'
        · subst hd
          rfl
        · rw [crlf_cons hc, crlf_cons hd]
          rfl
    · have hNone (l : List Char) : radix? (c :: l) = none := by
        rw [radix?]
        exact fun _ _ hEq => (hZero (List.cons.inj hEq).1).elim
      rw [crlf_cons hc, hNone, hNone]

/-- Behind the prefix the digits of the radix are read alike. -/
theorem radixLiteral_crlf {radix : Nat} (hRadix : radix? cs = some radix) :
    radixLiteral radix (crlf cs) =
      { radixLiteral radix cs with rest := crlf (radixLiteral radix cs).rest } := by
  unfold radix? at hRadix
  split at hRadix
  · next d rest =>
    have hd : d ≠ '\n' := by
      rintro rfl
      cases hRadix
    rw [crlf_cons (by decide), crlf_cons hd]
    unfold radixLiteral
    rw [List.drop_succ_cons, List.drop_succ_cons, List.drop_zero, List.drop_succ_cons,
      List.drop_succ_cons, List.drop_zero, digitRun_crlf rfl rfl]
  · cases hRadix

/-- Legacy octal literals are read alike. -/
theorem leadingZeroLiteral_crlf (cs : List Char) :
    leadingZeroLiteral (crlf cs) =
      { leadingZeroLiteral cs with rest := crlf (leadingZeroLiteral cs).rest } := by
  unfold leadingZeroLiteral
  rw [digitRun_crlf rfl rfl]

/-- A first character that is no line feed is dropped from both texts. -/
theorem drop_one_crlf {d : Char} (hd : d ≠ '\n') (h : cs.head? = some d) :
    (crlf cs).drop 1 = crlf (cs.drop 1) := by
  obtain ⟨rest, rfl⟩ := List.head?_eq_some_iff.mp h
  rw [crlf_cons hd]
  rfl

/-- The exponent is read alike, with its sign or without. -/
theorem readExponent_crlf (cs : List Char) :
    readExponent (crlf cs) = { readExponent cs with rest := crlf (readExponent cs).rest } := by
  cases cs with
  | nil => rfl
  | cons c rest =>
    by_cases hc : c = '\n'
    · subst hc
      rfl
    rw [crlf_cons hc, readExponent, readExponent, head_beq_crlf (by decide) (by decide),
      head_beq_crlf (by decide) (by decide)]
    have hUnsigned : (if (rest.head? == some '-' || rest.head? == some '+') = true
          then (crlf rest).drop 1 else crlf rest) =
        crlf
          (if (rest.head? == some '-' || rest.head? == some '+') =
          true then rest.drop 1 else rest) := by
      split
      · next hSigned =>
        rcases Bool.or_eq_true_iff.mp hSigned with hMinus | hPlus
        · exact drop_one_crlf (by decide) (beq_iff_eq.mp hMinus)
        · exact drop_one_crlf (by decide) (beq_iff_eq.mp hPlus)
      · rfl
    split
    · dsimp only
      rw [hUnsigned, digitRun_crlf rfl rfl]
    · rw [crlf_cons hc]

/-- The fraction is read alike. -/
theorem readFraction_crlf (cs : List Char) :
    readFraction (crlf cs) = { readFraction cs with rest := crlf (readFraction cs).rest } := by
  cases cs with
  | nil => rfl
  | cons c rest =>
    by_cases hc : c = '\n'
    · subst hc
      rfl
    by_cases hPoint : c = '.'
    · subst hPoint
      rw [crlf_cons hc, readFraction, readFraction, digitRun_crlf rfl rfl]
    · have hNone (l : List Char) : readFraction (c :: l) = ⟨[], 0, c :: l⟩ := by
        rw [readFraction]
        exact fun _ hEq => hPoint (List.cons.inj hEq).1
      rw [crlf_cons hc, hNone, hNone, crlf_cons hc]

/-- A decimal literal is made of such parts. -/
theorem decimalLiteral_crlf (cs : List Char) :
    decimalLiteral (crlf cs) =
      { decimalLiteral cs with rest := crlf (decimalLiteral cs).rest } := by
  unfold decimalLiteral
  rw [digitRun_crlf rfl rfl]
  dsimp only
  rw [readFraction_crlf]
  dsimp only
  rw [readExponent_crlf]

/-- The three forms of a literal are told apart by characters that end no line. -/
theorem bareLiteral_crlf (cs : List Char) :
    bareLiteral (crlf cs) = { bareLiteral cs with rest := crlf (bareLiteral cs).rest } := by
  have hLead : ((crlf cs).head? == some '0' && ((crlf cs).drop 1).head?.any Char.isDigit) =
      (cs.head? == some '0' && (cs.drop 1).head?.any Char.isDigit) := by
    rw [head_beq_crlf (by decide) (by decide)]
    cases hZero : cs.head? == some '0' with
    | false => rfl
    | true => rw [drop_one_crlf (by decide) (beq_iff_eq.mp hZero), head_any_crlf rfl]
  unfold bareLiteral
  rw [radix_crlf, hLead]
  split
  · next hRadix => exact radixLiteral_crlf hRadix
  · split
    · exact leadingZeroLiteral_crlf cs
    · exact decimalLiteral_crlf cs

/-- The suffix and the check for a word behind the number are the same. -/
theorem NumberScan.finish_crlf (s : NumberScan) :
    NumberScan.finish { s with rest := crlf s.rest } =
      { s.finish with rest := crlf s.finish.rest } := by
  have hStart : isNameStart '\r' = isNameStart '\n' := by decide +kernel
  have hFeed : isNamePart '\n' = false := by decide +kernel
  have hReturn : isNamePart '\r' = false := by decide +kernel
  unfold NumberScan.finish
  dsimp only
  rw [head_beq_crlf (by decide) (by decide)]
  cases hSuffix : s.rest.head? == some 'n' && !s.literal.legacyOctal with
  | false =>
    simp only [Bool.false_eq_true, if_false]
    rw [head_any_crlf hStart, takeWhile_crlf hFeed hReturn,
      dropWhile_crlf (hReturn.trans hFeed.symm)]
    split <;> rfl
  | true =>
    have hDrop : (crlf s.rest).drop 1 = crlf (s.rest.drop 1) :=
      drop_one_crlf (by decide) (beq_iff_eq.mp (Bool.and_eq_true_iff.mp hSuffix).1)
    simp only [if_true]
    rw [hDrop, head_any_crlf hStart, takeWhile_crlf hFeed hReturn,
      dropWhile_crlf (hReturn.trans hFeed.symm)]
    split <;> rfl

/-- A number is scanned to the same literal, and what is left is rewritten. -/
theorem scanNumber_crlf (cs : List Char) :
    scanNumber (crlf cs) = { scanNumber cs with rest := crlf (scanNumber cs).rest } := by
  unfold scanNumber
  rw [bareLiteral_crlf, NumberScan.finish_crlf]
  dsimp only
  split <;> rfl

/-- Every form of a literal leaves an end of the text. -/
theorem bareLiteral_rest (cs : List Char) : (bareLiteral cs).rest <:+ cs := by
  have hRun (accept : Char → Bool) (l : List Char) :
      (digitRun accept l).rest <:+ l := List.dropWhile_suffix _
  have hFraction (l : List Char) : (readFraction l).rest <:+ l := by
    unfold readFraction
    split
    · exact (hRun _ _).trans (List.suffix_cons _ _)
    · exact List.suffix_refl _
  have hExponent (l : List Char) : (readExponent l).rest <:+ l := by
    cases l with
    | nil => exact List.suffix_refl _
    | cons c rest =>
      rw [readExponent]
      split
      · refine (hRun _ _).trans ?_
        split
        · exact (List.drop_suffix 1 rest).trans (List.suffix_cons c rest)
        · exact List.suffix_cons c rest
      · exact List.suffix_refl _
  unfold bareLiteral
  split
  · exact (hRun _ _).trans (List.drop_suffix 2 cs)
  · split
    · exact hRun _ _
    · exact (hExponent _).trans ((hFraction _).trans (hRun _ _))

/-- The suffix takes characters from the front only. -/
theorem NumberScan.finish_rest (s : NumberScan) : s.finish.rest <:+ s.rest := by
  have hSuffix := List.drop_suffix 1 s.rest
  unfold NumberScan.finish
  dsimp only
  split
  · split
    · exact (List.dropWhile_suffix _).trans hSuffix
    · exact hSuffix
  · split
    · exact List.dropWhile_suffix _
    · exact List.suffix_refl _

/-- A number takes in no line feed: it is as long as before. -/
theorem shifted_scanNumber (cs : List Char) :
    shifted cs (scanNumber cs).length = (scanNumber cs).length := by
  have hSplits (l : List Char) : (scanNumber l).length + (scanNumber l).rest.length = l.length := by
    have hBare := bareLiteral_splits l
    have hFinish := (bareLiteral l).finish_splits
    unfold scanNumber
    dsimp only
    split
    · dsimp only
      omega
    · omega
  have hRest : (scanNumber cs).rest = cs.drop (scanNumber cs).length := by
    have hSuffix : (scanNumber cs).rest <:+ cs := by
      have hAll := (bareLiteral cs).finish_rest.trans (bareLiteral_rest cs)
      unfold scanNumber
      dsimp only
      split <;> exact hAll
    rw [List.suffix_iff_eq_drop.mp hSuffix, ← hSplits cs, Nat.add_sub_cancel]
  -- the lengths of both scans, each with what it leaves, add up to the lengths of both texts
  have hHere := hSplits (crlf cs)
  have hThere := congrArg List.length (crlf_split cs (scanNumber cs).length)
  rw [scanNumber_crlf, hRest] at hHere
  rw [List.length_append] at hThere
  dsimp only at hHere
  rw [shifted]
  omega

/-! ## Directives -/

/-- The blanks before a colon are removed with the line ends among them. -/
theorem tightenColons_crlf (cs : List Char) :
    Directive.tightenColons (crlf cs) = crlf (Directive.tightenColons cs) := by
  have hBlank {c : Char} (hc : Text.isBlank c) (hOther : c ≠ ':') (rest : List Char) :
      Directive.tightenColons (c :: rest) =
        if (Directive.tightenColons rest).head? == some ':' then Directive.tightenColons rest
        else c :: Directive.tightenColons rest := by
    rw [Directive.tightenColons_cons, if_neg hOther, hc, Bool.true_and]
  induction cs with
  | nil => rfl
  | cons c rest ih =>
    by_cases hc : c = '\n'
    · subst hc
      -- the carriage return is dropped if the line feed is, that is if a colon comes next
      have hColon := head_beq_crlf (d := ':') (by decide) (by decide) (Directive.tightenColons rest)
      rw [crlf_feed, hBlank (c := '\r') rfl (by decide), hBlank (c := '\n') rfl (by decide),
        hBlank (c := '\n') rfl (by decide), ih, hColon]
      split
      · next hHead => rw [hColon, if_pos hHead]
      · rfl
    · rw [crlf_cons hc, Directive.tightenColons_cons, Directive.tightenColons_cons, ih,
        head_beq_crlf (by decide) (by decide)]
      split
      · rw [crlf_cons (by decide), dropWhile_crlf rfl]
      · split
        · rfl
        · rw [crlf_cons hc]

/-- Of lists that begin alike only what comes after matters. -/
theorem filter_of_tail {α : Type} {p : α → Bool} {l l' : List α} (hHead : l'.head? = l.head?)
    (hTail : l'.tail.filter p = l.tail.filter p) : l'.filter p = l.filter p := by
  cases l with
  | nil => rw [List.head?_eq_none_iff.mp hHead]
  | cons a rest =>
    obtain ⟨rest', rfl⟩ := List.head?_eq_some_iff.mp hHead
    have hRest : rest'.filter p = rest.filter p := hTail
    rw [List.filter_cons, List.filter_cons, hRest]

/-- By induction on the text: the carriage return only adds an empty piece behind an empty one. -/
theorem pieces_crlf (cs : List Char) :
    (Directive.pieces (crlf cs)).head? = (Directive.pieces cs).head? ∧
      (Directive.pieces (crlf cs)).tail.filter (!·.isEmpty) =
        (Directive.pieces cs).tail.filter (!·.isEmpty) := by
  -- the rewritten text has one more empty piece for each line end
  induction cs with
  | nil => exact ⟨rfl, rfl⟩
  | cons c rest ih =>
    obtain ⟨hHead, hTail⟩ := ih
    by_cases hc : c = '\n'
    · subst hc
      rw [crlf_feed, Directive.pieces_separator (c := '\r') rfl,
        Directive.pieces_separator (c := '\n') rfl, Directive.pieces_separator (c := '\n') rfl]
      exact ⟨rfl, (filter_of_tail hHead hTail :)⟩
    · rw [crlf_cons hc]
      by_cases hSeparator : Directive.isSeparator c
      · rw [Directive.pieces_separator hSeparator, Directive.pieces_separator hSeparator]
        exact ⟨rfl, filter_of_tail hHead hTail⟩
      · rw [Directive.pieces_cons hSeparator, Directive.pieces_cons hSeparator, hHead]
        exact ⟨rfl, hTail⟩

/-- A directive has the same items. -/
theorem items_crlf (cs : List Char) : Directive.items (crlf cs) = Directive.items cs := by
  unfold Directive.items
  rw [tightenColons_crlf]
  exact filter_of_tail (pieces_crlf _).1 (pieces_crlf _).2

/-- A directive does not depend on how its lines end. -/
theorem ofComment_crlf (body : List Char) :
    Directive.ofComment? (String.ofList (crlf body)) =
      Directive.ofComment? (String.ofList body) := by
  have hHead (l : List Char) : (crlf l).head?.all Text.isBlank = l.head?.all Text.isBlank := by
    cases l with
    | nil => rfl
    | cons c rest =>
      by_cases hc : c = '\n'
      · subst hc
        rfl
      · rw [crlf_cons hc]
        rfl
  unfold Directive.ofComment? Text.trimLeft
  rw [String.toList_ofList, String.toList_ofList, dropWhile_crlf rfl]
  dsimp only
  rw [takeWhile_crlf rfl rfl, dropWhile_crlf rfl, hHead, items_crlf]

end Lexer

/-! ## Any token -/

/-- The kind in the text with the carriage returns: only the text of a comment is another one. -/
def TokenKind.crlf : TokenKind → TokenKind
  | .comment body => .comment (String.ofList (ScriptLint.crlf body.toList))
  | kind => kind

namespace TokenKind

/-- Only comments hold line ends that are rewritten. -/
theorem crlf_of_significant {kind : TokenKind} (h : kind.isTrivia = false) : kind.crlf = kind := by
  cases kind <;> first | rfl | cases h

@[simp] theorem isTrivia_crlf (kind : TokenKind) : kind.crlf.isTrivia = kind.isTrivia := by
  cases kind <;> rfl

@[simp] theorem endsValue_crlf (kind : TokenKind) : kind.crlf.endsValue = kind.endsValue := by
  cases kind <;> rfl

end TokenKind

namespace Lexer

variable {cs rest full : List Char} {c : Char}

/-- A comment is rewritten as a whole, and is the same directive as before. -/
theorem commentKind_crlf (body : List Char) :
    commentKind (crlf body) = (commentKind body).crlf := by
  unfold commentKind
  dsimp only
  rw [ofComment_crlf]
  split
  · rfl
  · show _ = TokenKind.comment (String.ofList (crlf (String.ofList body).toList))
    rw [String.toList_ofList]

/-- What is recognised in the text with the carriage returns. -/
def Scanned.crlf (text : List Char) : Scanned → Scanned
  | .token kind => .token kind.crlf
  | .failure problem offset recovered =>
    .failure problem (shifted text offset) (recovered.map TokenKind.crlf)

/-- The scan in the text with the carriage returns. -/
def Scan.crlf (text : List Char) (s : Scan) : Scan :=
  { s with length := shifted text s.length, scanned := s.scanned.crlf text }

/-- A comment up to the end of the line holds no line end. -/
theorem scanLineComment_crlf (templates : List Nat) (body : List Char) :
    scanLineComment templates (crlf body) =
      (scanLineComment templates body).crlf ('/' :: '/' :: body) := by
  have hUnbroken := not_mem_takeWhile (p := (!Text.isLineTerminator ·)) rfl body
  have hKind : commentKind (body.takeWhile (!Text.isLineTerminator ·)) =
      (commentKind (body.takeWhile (!Text.isLineTerminator ·))).crlf := by
    rw [← commentKind_crlf, crlf_of_unbroken hUnbroken]
  unfold scanLineComment Scan.crlf
  dsimp only [Scanned.crlf]
  rw [takeWhile_crlf rfl rfl, ← hKind, shifted_cons (by decide), shifted_cons (by decide),
    shifted_takeWhile rfl]

/-- A block comment ends behind the same characters; if it is not closed, both are refused at their
start. -/
theorem scanBlockComment_crlf (templates : List Nat) (body : List Char) :
    scanBlockComment templates (crlf body) =
      (scanBlockComment templates body).crlf ('/' :: '*' :: body) := by
  have hBody : commentBody (crlf body) {} = (commentBody body {}).crlf body :=
    commentBody_crlf (s := {}) (show body.drop 0 = body from rfl)
  unfold scanBlockComment Scan.crlf
  rw [hBody]
  dsimp only [CommentScan.crlf]
  split
  · next hClosed =>
    obtain ⟨tail, hMark⟩ := commentBody_closed body {} rfl hClosed
    have hLength : shifted body ((commentBody body {}).length + 2) =
        shifted body (commentBody body {}).length + 2 := by
      have hHere : body.drop (commentBody body {}).length = '*' :: '/' :: tail := hMark
      rw [shifted_next hHere, shifted_cons (by decide), shifted_cons (by decide), shifted_zero]
    dsimp only [Scanned.crlf]
    rw [shifted_cons (by decide), shifted_cons (by decide), hLength, take_shifted, commentKind_crlf]
  · dsimp only [Scanned.crlf]
    rw [shifted_cons (by decide), shifted_cons (by decide)]
    rfl

/-- A regular expression with its flags stands on one line. -/
theorem scanRegexp_crlf (templates : List Nat) (body : List Char) :
    scanRegexp templates (crlf body) = (scanRegexp templates body).crlf ('/' :: body) := by
  have hBody : regexpBody false (crlf body) {} = (regexpBody false body {}).crlf ('/' :: body) :=
    regexpBody_crlf (s := {}) (show ('/' :: body).drop 1 = body from rfl)
  have hStart : 1 ≤ (regexpBody false body {}).length := length_regexpBody false body {}
  obtain ⟨n, hn⟩ := Nat.exists_eq_add_of_le' hStart
  have hFeed : isNamePart '\n' = false := by decide +kernel
  have hReturn : isNamePart '\r' = false := by decide +kernel
  unfold scanRegexp Scan.crlf
  rw [hBody]
  dsimp only [RegexpScan.crlf]
  split
  · dsimp only [Scanned.crlf]
    rw [hn, shifted_cons (by decide), Nat.add_sub_cancel, Nat.add_sub_cancel, drop_shifted,
      takeWhile_crlf hFeed hReturn, Nat.add_right_comm n, shifted_cons (by decide), shifted_add,
      shifted_takeWhile hFeed, Nat.add_right_comm]
    rfl
  · rfl

/-- A string is scanned alike, and a bad escape in it is found at the shifted place. -/
theorem scanString_crlf (templates : List Nat) {quote : Char} (hQuote : quote ≠ '\n')
    {body : List Char} (hText : '\r' ∉ body) :
    scanString templates quote (crlf body) =
      (scanString templates quote body).crlf (quote :: body) := by
  have hOne : shifted (quote :: body) 1 = 1 := shifted_cons hQuote body 0
  have hBody : stringBody quote 0 (crlf body) { literal := { quote } } =
      (stringBody quote 0 body { literal := { quote } }).crlf (quote :: body) := by
    have hWalk : stringBody quote (shifted body 0) (crlf body)
          (({ literal := { quote } } : StringScan).crlf (quote :: body)) =
        (stringBody quote 0 body { literal := { quote } }).crlf (quote :: body) :=
      stringBody_crlf hText (Nat.zero_le _) rfl
    rw [shifted_zero, StringScan.crlf, hOne] at hWalk
    exact hWalk
  unfold scanString Scan.crlf
  rw [hBody]
  dsimp only [StringScan.crlf]
  split
  · rfl
  · cases (stringBody quote 0 body { literal := { quote } }).badEscape <;> rfl

/-- A number stands on one line, so that its text is the same. -/
theorem scanNumeric_crlf (templates : List Nat) (cs : List Char) :
    scanNumeric templates (crlf cs) = (scanNumeric templates cs).crlf cs := by
  have hLength := shifted_scanNumber cs
  have hRaw : (crlf cs).take (scanNumber cs).length = cs.take (scanNumber cs).length := by
    have hTake := take_shifted cs (scanNumber cs).length
    rw [hLength] at hTake
    rw [hTake, crlf_of_unbroken (unbroken_of_shifted (scanNumber_fits cs) hLength)]
  unfold scanNumeric Scan.crlf
  rw [scanNumber_crlf]
  dsimp only
  rw [hRaw]
  split <;> dsimp only [Scanned.crlf] <;> rw [hLength] <;> rfl

/-- A word stands on one line, but a bad escape in it may lie behind line ends. -/
theorem scanWord_crlf (templates : List Nat) (cs : List Char) :
    scanWord templates (crlf cs) = (scanWord templates cs).crlf cs := by
  have hBody : wordBody 0 (crlf cs) {} = (wordBody 0 cs {}).crlf cs :=
    wordBody_crlf (s := {}) (Nat.zero_le _) (show cs.drop 0 = cs from rfl)
  unfold scanWord Scan.crlf
  rw [hBody]
  dsimp only [WordScan.crlf]
  cases (wordBody 0 cs {}).badEscape with
  | some offset =>
    dsimp only [Option.map_some, Scanned.crlf]
    split <;> rfl
  | none =>
    dsimp only [Option.map_none, Scanned.crlf]
    rw [TokenKind.crlf_of_significant (isTemplate_wordKind _).2]
    rfl

/-- A word without line ends starts both texts or neither. -/
theorem isPrefixOf_crlf {word : List Char} (hFeed : '\n' ∉ word) (hReturn : '\r' ∉ word)
    (cs : List Char) : word.isPrefixOf (crlf cs) = word.isPrefixOf cs := by
  induction word generalizing cs with
  | nil => rfl
  | cons d word ih =>
    rw [List.mem_cons, not_or] at hFeed hReturn
    cases cs with
    | nil => rfl
    | cons c rest =>
      by_cases hc : c = '\n'
      · subst hc
        rw [crlf_feed, List.isPrefixOf, List.isPrefixOf, beq_eq_false_iff_ne.mpr (Ne.symm hFeed.1),
          beq_eq_false_iff_ne.mpr (Ne.symm hReturn.1)]
        rfl
      · rw [crlf_cons hc, List.isPrefixOf, List.isPrefixOf, ih hFeed.2 hReturn.2]

/-- No punctuator is spelled with a line end. -/
theorem spelling_unbroken (p : Punctuator) :
    '\n' ∉ p.spelling.toList ∧ '\r' ∉ p.spelling.toList := by
  cases p <;> decide

/-- A spelling at the front of the text has no line feed in it. -/
theorem shifted_spelling {p : Punctuator} (h : p.spelling.toList.isPrefixOf cs) :
    shifted cs p.spelling.length = p.spelling.length := by
  have hPrefix := List.isPrefixOf_iff_prefix.mp h
  rw [← String.length_toList]
  refine shifted_of_unbroken ?_ hPrefix.length_le
  rw [← List.prefix_iff_eq_take.mp hPrefix]
  exact (spelling_unbroken p).1

/-- The same punctuator is the longest one. -/
theorem longestPunctuator_crlf (cs : List Char) :
    longestPunctuator? (crlf cs) = longestPunctuator? cs := by
  have hFind : Punctuator.all.find? (·.spelling.toList.isPrefixOf (crlf cs)) =
      Punctuator.all.find? (·.spelling.toList.isPrefixOf cs) := by
    congr 1
    funext p
    exact isPrefixOf_crlf (spelling_unbroken p).1 (spelling_unbroken p).2 cs
  unfold longestPunctuator?
  rw [hFind]
  split
  · next hChain =>
    -- the digit that tells a conditional from an optional chain stands behind two characters in
    -- both texts
    have hFound := List.find?_some hChain
    have hTwo : shifted cs 2 = 2 := shifted_spelling (p := .optionalChain) hFound
    have hDrop := drop_shifted cs 2
    rw [hTwo] at hDrop
    rw [hDrop, head_any_crlf rfl]
  · rfl

/-- What is recognised stands at the front. -/
theorem prefix_of_longestPunctuator {p : Punctuator} (h : longestPunctuator? cs = some p) :
    p.spelling.toList.isPrefixOf cs := by
  unfold longestPunctuator? at h
  split at h
  · next hChain =>
    have hFound := List.find?_some hChain
    split at h <;> obtain rfl := Option.some.inj h
    · have hFirst :
        Punctuator.question.spelling.toList <+: Punctuator.optionalChain.spelling.toList :=
        ⟨['.'], rfl⟩
      exact List.isPrefixOf_iff_prefix.mpr (hFirst.trans (List.isPrefixOf_iff_prefix.mp hFound))
    · exact hFound
  · have hFound := List.find?_some h
    exact hFound

/-- A punctuator has the same length; a character that starts no token is refused in both. -/
theorem scanPunctuator_crlf (templates : List Nat) (hc : c ≠ '\n') (rest : List Char) :
    scanPunctuator templates c (c :: crlf rest) =
      (scanPunctuator templates c (c :: rest)).crlf (c :: rest) := by
  have hOne : shifted (c :: rest) 1 = 1 := shifted_cons hc rest 0
  have hLongest : longestPunctuator? (c :: crlf rest) = longestPunctuator? (c :: rest) := by
    rw [← crlf_cons hc, longestPunctuator_crlf]
  unfold scanPunctuator Scan.crlf
  rw [hLongest]
  cases hFound : longestPunctuator? (c :: rest) with
  | some p =>
    dsimp only [Scanned.crlf]
    rw [shifted_spelling (prefix_of_longestPunctuator hFound)]
    rfl
  | none =>
    dsimp only [Scanned.crlf]
    rw [hOne]
    rfl

/-- Whatever stands at the front is recognised alike. No template starts without its mark, and none
goes on. -/
theorem scan_crlf (regexAllowed : Bool) (hFeed : c ≠ '\n') (hMark : c ≠ '\x60')
    (hText : '\r' ∉ rest) :
    scan regexAllowed [] c (crlf rest) = (scan regexAllowed [] c rest).crlf (c :: rest) := by
  have hSecond {d : Char} (h : (c == '/' && rest.head? == some d) = true) :
      c = '/' ∧ ∃ body, rest = d :: body := by
    rw [Bool.and_eq_true, beq_iff_eq, beq_iff_eq] at h
    exact ⟨h.1, List.head?_eq_some_iff.mp h.2⟩
  -- in the order of the scanner, each form is told by characters that both texts have
  unfold scan
  rw [head_beq_crlf (by decide) (by decide), head_beq_crlf (by decide) (by decide),
    head_any_crlf rfl]
  split
  · next hLine =>
    obtain ⟨rfl, body, rfl⟩ := hSecond hLine
    rw [crlf_cons (by decide)]
    exact scanLineComment_crlf [] body
  split
  · next hBlock =>
    obtain ⟨rfl, body, rfl⟩ := hSecond hBlock
    rw [crlf_cons (by decide)]
    exact scanBlockComment_crlf [] body
  split
  · next hSlash =>
    obtain rfl : c = '/' := beq_iff_eq.mp (Bool.and_eq_true_iff.mp hSlash).1
    exact scanRegexp_crlf [] rest
  split
  · next hTemplate => exact absurd (beq_iff_eq.mp hTemplate) hMark
  split
  · next hTemplate => exact absurd (Bool.and_eq_true_iff.mp hTemplate).2 Bool.false_ne_true
  split
  · exact scanString_crlf [] hFeed hText
  split
  · rw [← crlf_cons hFeed]
    exact scanNumeric_crlf [] (c :: rest)
  split
  · rw [← crlf_cons hFeed]
    exact scanWord_crlf [] (c :: rest)
  · exact scanPunctuator_crlf [] hFeed rest

/-! ## What the grammar reads off a text -/

end Lexer

/-- What the grammar reads off the text of a token is the same with the carriage returns: how a
number is written, and whether a string is `use strict`. -/
def TokenKind.ReadsAlike (kind : TokenKind) (raw : List Char) : Prop :=
  match kind with
  | .number _ => ScriptLint.crlf raw = raw
  | .string _ =>
    ((ScriptLint.crlf raw).drop 1).dropLast = "use strict".toList ↔ (raw.drop 1).dropLast =
      "use strict".toList
  | _ => True

namespace Lexer

variable {cs rest full : List Char} {c : Char}

/-- The line feed would have ended the string. -/
theorem length_useStrict {quote : Char} (hQuote : quote = '\x22' ∨ quote = '\x27')
    (tail : List Char) :
    (stringBody quote 0 ("use strict".toList ++ '\n' :: tail) { literal := { quote } }).length =
    11 := by
  rcases hQuote with rfl | rfl <;> rfl

/-- The text of a string is `use strict` in both sources or in neither. A string with a line end in
it is different from it before and after the rewriting. -/
theorem readsAlike_string {quote : Char} (hQuote : quote = '\x22' ∨ quote = '\x27')
    (literal : StringLiteral)
    (body : List Char) {n : Nat}
    (hLength : n = (stringBody quote 0 body { literal := { quote } }).length) :
    (TokenKind.string literal).ReadsAlike ((quote :: body).take n) := by
  subst hLength
  have hStart : 1 ≤ (stringBody quote 0 body { literal := { quote } }).length :=
    length_stringBody quote 0 body { literal := { quote } }
  obtain ⟨n, hn⟩ := Nat.exists_eq_add_of_le' hStart
  have hFeed : quote ≠ '\n' := by
    rcases hQuote with rfl | rfl <;> decide
  show ((crlf _).drop 1).dropLast = _ ↔ _
  rw [hn, List.take_succ_cons, crlf_cons hFeed, List.drop_succ_cons, List.drop_zero,
    List.drop_succ_cons, List.drop_zero]
  by_cases hUnbroken : '\n' ∈ body.take n
  · obtain ⟨before, after, hSplit⟩ := List.append_of_mem hUnbroken
    rw [hSplit, crlf_append, crlf_feed]
    refine iff_of_false (fun hEq => ?_) fun hEq => ?_
    · -- the carriage return is not the last character
      have hReturn : '\r' ∈ (crlf before ++ '\r' :: '\n' :: crlf after).dropLast := by
        rw [List.dropLast_append_cons]
        simp
      rw [hEq] at hReturn
      exact absurd hReturn (by decide)
    · cases after with
      | cons d after =>
        have hInside : '\n' ∈ (before ++ '\n' :: d :: after).dropLast := by
          rw [List.dropLast_append_cons]
          simp
        rw [hEq] at hInside
        exact absurd hInside (by decide)
      -- only the last character could be the line end, but such a string is longer than it may be
      | nil =>
        rw [List.dropLast_concat] at hEq
        rw [hEq] at hSplit
        have hBody : body = "use strict".toList ++ '\n' :: body.drop n := by
          rw [← List.singleton_append, ← List.append_assoc, ← hSplit, List.take_append_drop]
        have hEleven := length_useStrict hQuote (body.drop n)
        rw [← hBody, hn] at hEleven
        have hTaken := congrArg List.length hSplit
        rw [List.length_take] at hTaken
        have hCount : ("use strict".toList ++ ['\n']).length = 11 := rfl
        omega
  · rw [crlf_of_unbroken hUnbroken]

/-- The grammar reads the same off the text that was recognised. -/
def Scan.ReadsAlike (text : List Char) (s : Scan) : Prop :=
  ∀ kind, s.significant? = some kind → kind.ReadsAlike (text.take s.length)

/-- Nothing is read off a comment. -/
theorem readsAlike_comment {s : Scan} {body : List Char}
    (h : s.scanned = .token (commentKind body)) : s.ReadsAlike cs := by
  intro kind hKind
  rw [Scan.significant?, h] at hKind
  cases (if_pos (commentKind_isTrivia body)).symm.trans hKind

/-- A string is read alike if it is a token. -/
theorem scanString_readsAlike (templates : List Nat) {quote : Char}
    (hQuote : quote = '\x22' ∨ quote = '\x27')
    (body : List Char) : (scanString templates quote body).ReadsAlike (quote :: body) := by
  unfold scanString
  dsimp only
  split
  · rintro kind ⟨⟩
    exact readsAlike_string hQuote _ body rfl
  · split
    all_goals
      rintro kind ⟨⟩
      exact readsAlike_string hQuote _ body rfl

/-- The text of a number is the same in both. -/
theorem scanNumeric_readsAlike (templates : List Nat) (cs : List Char) :
    (scanNumeric templates cs).ReadsAlike cs := by
  have hUnbroken : crlf (cs.take (scanNumber cs).length) = cs.take (scanNumber cs).length :=
    crlf_of_unbroken (unbroken_of_shifted (scanNumber_fits cs) (shifted_scanNumber cs))
  unfold scanNumeric
  dsimp only
  split
  all_goals
    rintro kind ⟨⟩
    exact hUnbroken

/-- Nothing but the name is read off a word. -/
theorem scanWord_readsAlike (templates : List Nat) (cs : List Char) :
    (scanWord templates cs).ReadsAlike cs := by
  have hWord (s : WordScan) (raw : List Char) : s.kind.ReadsAlike raw := by
    unfold WordScan.kind
    split
    · split <;> trivial
    · trivial
  unfold scanWord
  dsimp only
  split
  · intro kind hKind
    obtain ⟨-, hSome⟩ := Option.ite_none_left_eq_some.mp hKind
    obtain rfl := Option.some.inj hSome
    trivial
  · intro kind hKind
    obtain ⟨-, hSome⟩ := Option.ite_none_left_eq_some.mp hKind
    obtain rfl := Option.some.inj hSome
    exact hWord _ _

/-- What the grammar reads off a token does not depend on the line ends, whatever the token is. -/
theorem scan_readsAlike (regexAllowed : Bool) (hMark : c ≠ '\x60') (rest : List Char) :
    (scan regexAllowed [] c rest).ReadsAlike (c :: rest) := by
  unfold scan
  split
  · exact readsAlike_comment rfl
  split
  · unfold scanBlockComment
    dsimp only
    split
    · exact readsAlike_comment rfl
    · rintro kind ⟨⟩
  split
  · unfold scanRegexp
    dsimp only
    split
    all_goals
      rintro kind ⟨⟩
      trivial
  split
  · next hTemplate => exact absurd (beq_iff_eq.mp hTemplate) hMark
  split
  · next hTemplate => exact absurd (Bool.and_eq_true_iff.mp hTemplate).2 Bool.false_ne_true
  split
  · next hQuote =>
    rw [Bool.or_eq_true, beq_iff_eq, beq_iff_eq] at hQuote
    exact scanString_readsAlike [] hQuote rest
  split
  · exact scanNumeric_readsAlike [] (c :: rest)
  split
  · exact scanWord_readsAlike [] (c :: rest)
  · unfold scanPunctuator
    split
    · rintro kind ⟨⟩
      trivial
    · rintro kind ⟨⟩

/-- Where no template starts, none is open afterwards. -/
theorem templates_scan (regexAllowed : Bool) (hMark : c ≠ '\x60') (rest : List Char) :
    (scan regexAllowed [] c rest).templates = [] := by
  unfold scan
  split
  · rfl
  split
  · unfold scanBlockComment
    dsimp only
    split <;> rfl
  split
  · unfold scanRegexp
    dsimp only
    split <;> rfl
  split
  · next hTemplate => exact absurd (beq_iff_eq.mp hTemplate) hMark
  split
  · next hTemplate => exact absurd (Bool.and_eq_true_iff.mp hTemplate).2 Bool.false_ne_true
  split
  · unfold scanString
    dsimp only
    split
    · rfl
    · split <;> rfl
  split
  · unfold scanNumeric
    dsimp only
    split <;> rfl
  split
  · unfold scanWord
    dsimp only
    split <;> rfl
  · unfold scanPunctuator
    split <;> rfl

end Lexer

end ScriptLint
