import ScriptLint.Proofs.Comments.Lexing
import ScriptLint.Proofs.Lexer.Lookahead
import ScriptLint.Proofs.LineEndings.Scanning
import ScriptLint.Proofs.Log.Sessions

/-!
# Braces and substitutions

A lexer keeps a counter for each open substitution of a template, and tells by it whether a closing
brace ends the substitution. The counters are exact on every text: they say how many braces stand
open, as the tokens that were yielded say, and none of them is ever counted below zero.

- `scan_brace`: a closing brace inside a token is part of a literal or a comment, or ends a Unicode
  escape.
- `Steers`: all that a token does to the open substitutions.
- `BraceLevel`, `levels`: the open substitutions and their braces, as the yielded tokens tell them.
- `BraceLevel.Counted`: the counters say the same. A lexer starts with this and keeps it with every
  token.
-/

namespace ScriptLint

/-- Literals with a text of their own, the pieces of templates and comments. A brace in one of these
is text. -/
def TokenKind.holdsText : TokenKind → Bool
  | .string _ | .regexp _ _ | .template _ _ | .comment _ | .directive _ => true
  | _ => false

namespace Lexer

variable {cs rest full : List Char} {c : Char} {templates : List Nat} {l : Lexer} {rs : List Result}
  {source : String}

/-! ## Braces inside tokens -/

/-- The text ends in a Unicode escape in braces, after at least one of its digits. -/
def EndsInEscape (text : List Char) : Prop :=
  ∃ before digits, text = before ++ '\x5c' :: 'u' :: '\x7b' :: digits ∧ digits ≠ [] ∧
    ∀ d ∈ digits, (Text.hexValue? d).isSome

/-- No brace is a hexadecimal digit. -/
theorem hexDigits_unbraced (count code : Nat) (cs : List Char) :
    '\x7d' ∉ cs.take (hexDigits count code cs).length := by
  fun_induction hexDigits count code cs with
  | case1 => exact List.not_mem_nil
  | case2 => exact List.not_mem_nil
  | case3 => exact List.not_mem_nil
  | case4 code count c rest digit hDigit decoded ih =>
    rw [List.take_succ_cons, List.mem_cons, not_or]
    refine ⟨?_, ih⟩
    rintro rfl
    cases hDigit

/-- The brace that ends an escape follows its digits. -/
theorem bracedDigits_brace (code : Nat) (any : Bool) (cs : List Char) :
    ∀ i : Nat, i < (bracedDigits code any cs).length → cs[i]? = some '\x7d' →
      (any = true ∨ cs.take i ≠ []) ∧ ∀ d ∈ cs.take i, (Text.hexValue? d).isSome := by
  -- along the scan; only the brace at the end counts
  fun_induction bracedDigits code any cs with
  | case1 => exact fun _ hUpto => absurd hUpto (Nat.not_lt_zero _)
  | case2 code any c rest digit hDigit hFits decoded ih =>
    intro i hUpto hBrace
    cases i with
    | zero =>
      obtain rfl : c = '\x7d' := Option.some.inj hBrace
      cases hDigit
    | succ i =>
      obtain ⟨-, hDigits⟩ := ih i (Nat.lt_of_succ_lt_succ hUpto) hBrace
      constructor
      · right
        rw [List.take_succ_cons]
        exact List.cons_ne_nil _ _
      · intro d hd
        rw [List.take_succ_cons, List.mem_cons] at hd
        rcases hd with rfl | hd
        · rw [hDigit]
          rfl
        · exact hDigits d hd
  | case3 => exact fun _ hUpto => absurd hUpto (Nat.not_lt_zero _)
  | case4 code any c rest hNone hEnd =>
    intro i hUpto hBrace
    obtain rfl : i = 0 := Nat.lt_one_iff.mp hUpto
    constructor
    · left
      exact (Bool.and_eq_true_iff.mp hEnd).1
    · intro d hd
      cases hd
  | case5 => exact fun _ hUpto => absurd hUpto (Nat.not_lt_zero _)

/-- Only the escape in braces takes a brace. -/
theorem nameEscape_brace {i : Nat} (hUpto : i < (nameEscape cs).length)
    (hBrace : cs[i]? = some '\x7d') : ∃ digits, cs.take i = 'u' :: '\x7b' :: digits ∧ digits ≠ [] ∧
      ∀ d ∈ digits, (Text.hexValue? d).isSome := by
  unfold nameEscape at hUpto
  split at hUpto
  case h_2 => cases hUpto
  case h_1 rest =>
    cases i with
    | zero => cases hBrace
    | succ i =>
      have hInner : i < (unicodeEscape rest).length := Nat.lt_of_succ_lt_succ hUpto
      rw [List.getElem?_cons_succ] at hBrace
      unfold unicodeEscape at hInner
      split at hInner
      · next digits =>
        cases i with
        | zero => cases hBrace
        | succ i =>
          obtain ⟨hSome, hDigits⟩ :=
            bracedDigits_brace 0 false digits i (Nat.lt_of_succ_lt_succ hInner) hBrace
          refine ⟨digits.take i, rfl, ?_, hDigits⟩
          exact hSome.resolve_left Bool.false_ne_true
      · -- four digits, none of which is a brace
        exact absurd (List.mem_of_getElem? ((List.getElem?_take_of_lt hInner).trans hBrace))
          (hexDigits_unbraced 4 0 rest)

/-- A brace in a word ends an escape. -/
theorem wordBody_brace {skip : Nat} {s : WordScan} (hSkip : skip ≤ s.length)
    (hFull : full.drop (s.length - skip) = cs) {i : Nat} (hFrom : s.length ≤ i)
    (hUpto : i < (wordBody skip cs s).length) (hBrace : full[i]? = some '\x7d') :
    EndsInEscape (full.take i) := by
  -- inside the escape after the backslash at the end of what was read
  have hEscaped {n : Nat} {c : Char} {rest : List Char} (hc : (c == '\x5c') = true)
      (hHere : full.drop n = c :: rest) (hn : n ≤ i) (hi : i < n + 1 + (nameEscape rest).length) :
      EndsInEscape (full.take i) := by
    obtain rfl : c = '\x5c' := beq_iff_eq.mp hc
    obtain ⟨k, rfl⟩ := Nat.exists_eq_add_of_le hn
    rw [← List.getElem?_drop, hHere] at hBrace
    cases k with
    | zero => cases hBrace
    | succ k =>
      have hInner : k < (nameEscape rest).length := by omega
      rw [List.getElem?_cons_succ] at hBrace
      obtain ⟨digits, hText, hSome, hDigits⟩ := nameEscape_brace hInner hBrace
      refine ⟨full.take n, digits, ?_, hSome, hDigits⟩
      rw [List.take_add, hHere, List.take_succ_cons, hText]
  fun_induction wordBody skip cs s with
  | case1 => omega
  | case2 skip c rest s ih => exact ih (Nat.le_of_succ_le hSkip) (drop_skip hSkip hFull) hFrom hUpto
  | case3 c rest s hc decoded length letter hLetter ih =>
    by_cases hi : i < length
    · exact hEscaped hc hFull hFrom hi
    · refine ih (Nat.le_add_left _ _) ?_ (Nat.le_of_not_lt hi) hUpto
      show full.drop (s.length + 1 + decoded.length - decoded.length) = rest
      rw [Nat.add_sub_cancel]
      exact drop_succ hFull
  | case4 c rest s hc decoded length hNone => exact hEscaped hc hFull hFrom hUpto
  | case5 c rest s hc hPart ih =>
    have hHere : full.drop s.length = c :: rest := hFull
    have hLater : s.length + 1 ≤ i := by
      refine Nat.lt_of_le_of_ne hFrom ?_
      rintro rfl
      have hAt := congrArg List.head? hHere
      rw [List.head?_drop, hBrace] at hAt
      obtain rfl : '\x7d' = c := Option.some.inj hAt
      exact absurd hPart (by decide +kernel)
    exact ih (Nat.zero_le _) (drop_succ hHere) hLater hUpto
  | case6 => omega

/-- Characters other than a closing brace lead from the text to the rest of it. -/
def Unbraced (cs rest : List Char) : Prop := ∃ run, cs = run ++ rest ∧ '\x7d' ∉ run

namespace Unbraced

theorem refl (cs : List Char) : Unbraced cs cs := ⟨[], rfl, List.not_mem_nil⟩

/-- Stretches without braces follow each other. -/
theorem trans {cs' cs'' : List Char} (h : Unbraced cs cs') (h' : Unbraced cs' cs'') :
    Unbraced cs cs'' := by
  obtain ⟨run, rfl, hRun⟩ := h
  obtain ⟨run', rfl, hRun'⟩ := h'
  refine ⟨run ++ run', (List.append_assoc ..).symm, ?_⟩
  rw [List.mem_append, not_or]
  exact ⟨hRun, hRun'⟩

/-- One more character that is no brace. -/
theorem cons (hc : c ≠ '\x7d') (h : Unbraced cs rest) : Unbraced (c :: cs) rest := by
  obtain ⟨run, rfl, hRun⟩ := h
  refine ⟨c :: run, rfl, ?_⟩
  rw [List.mem_cons, not_or]
  exact ⟨hc.symm, hRun⟩

/-- A run of characters none of which is a brace. -/
theorem dropWhile {p : Char → Bool} (hp : p '\x7d' = false) (cs : List Char) :
    Unbraced cs (cs.dropWhile p) := by
  refine ⟨cs.takeWhile p, List.takeWhile_append_dropWhile.symm, ?_⟩
  intro hMem
  have hTrue := List.all_eq_true.mp List.all_takeWhile _ hMem
  rw [hp] at hTrue
  cases hTrue

/-- One character, if it is known to be another one. -/
theorem drop_one {d : Char} (hd : d ≠ '\x7d') (h : cs.head? = some d) :
    Unbraced cs (cs.drop 1) := by
  cases cs with
  | nil => cases h
  | cons c tail =>
    obtain rfl : c = d := Option.some.inj h
    exact (refl tail).cons hd

/-- The run is as long as what it leaves says. -/
theorem not_mem_take (h : Unbraced cs rest) {n : Nat} (hn : n + rest.length = cs.length) :
    '\x7d' ∉ cs.take n := by
  obtain ⟨run, rfl, hRun⟩ := h
  rw [List.length_append] at hn
  obtain rfl : n = run.length := Nat.add_right_cancel hn
  rwa [List.take_left]

end Unbraced

/-- No brace is a digit. -/
theorem digitRun_unbraced {accept : Char → Bool} (h : accept '\x7d' = false) (cs : List Char) :
    Unbraced cs (digitRun accept cs).rest := by
  refine Unbraced.dropWhile ?_ cs
  rw [h]
  rfl

theorem readFraction_unbraced (cs : List Char) : Unbraced cs (readFraction cs).rest := by
  unfold readFraction
  split
  · exact (digitRun_unbraced rfl _).cons (by decide)
  · exact .refl _

/-- An exponent has no brace in it. -/
theorem readExponent_unbraced (cs : List Char) : Unbraced cs (readExponent cs).rest := by
  cases cs with
  | nil => exact .refl _
  | cons c rest =>
    rw [readExponent]
    split
    · next hc =>
      have hMark : c ≠ '\x7d' := by
        rintro rfl
        cases hc
      refine Unbraced.cons hMark (Unbraced.trans ?_ (digitRun_unbraced rfl _))
      split
      · next hSign =>
        rcases Bool.or_eq_true_iff.mp hSign with h | h
        · exact .drop_one (by decide) (beq_iff_eq.mp h)
        · exact .drop_one (by decide) (beq_iff_eq.mp h)
      · exact .refl _
    · exact .refl _

/-- Nor has any number. -/
theorem bareLiteral_unbraced (cs : List Char) : Unbraced cs (bareLiteral cs).rest := by
  unfold bareLiteral
  split
  · next radix hRadix =>
    obtain ⟨c, tail, rfl, hc⟩ : ∃ c tail, cs = '0' :: c :: tail ∧ c ≠ '\x7d' := by
      unfold radix? at hRadix
      split at hRadix
      · refine ⟨_, _, rfl, ?_⟩
        rintro rfl
        cases hRadix
      · cases hRadix
    exact ((digitRun_unbraced rfl tail).cons hc).cons (by decide)
  · split
    · exact digitRun_unbraced rfl cs
    · exact ((digitRun_unbraced rfl cs).trans (readFraction_unbraced _)).trans
        (readExponent_unbraced _)

/-- Nor has what is appended to a number. -/
theorem NumberScan.finish_unbraced (s : NumberScan) : Unbraced s.rest s.finish.rest := by
  have hName (l : List Char) : Unbraced l (l.dropWhile isNamePart) :=
    .dropWhile (by decide +kernel) l
  unfold NumberScan.finish
  dsimp only
  split
  · next hSuffix =>
    have hOne : Unbraced s.rest (s.rest.drop 1) :=
      .drop_one (by decide) (beq_iff_eq.mp (Bool.and_eq_true_iff.mp hSuffix).1)
    split
    · exact hOne.trans (hName _)
    · exact hOne
  · split
    · exact hName _
    · exact .refl _

/-- A number takes no brace. -/
theorem scanNumber_unbraced (cs : List Char) : '\x7d' ∉ cs.take (scanNumber cs).length := by
  have hBare := bareLiteral_splits cs
  have hFinish := (bareLiteral cs).finish_splits
  have hLeaves := (bareLiteral_unbraced cs).trans (bareLiteral cs).finish_unbraced
  have hTake := hLeaves.not_mem_take (hFinish.trans hBare)
  unfold scanNumber
  dsimp only
  split
  · exact hTake
  · exact hTake

/-- An operator has no closing brace in it after its first character. -/
theorem spelling_unbraced (p : Punctuator) : '\x7d' ∉ p.spelling.toList.tail := by
  cases p <;> decide

/-- Whether what was scanned holds text; a comment that is never closed does. -/
def Scan.holdsText (s : Scan) : Bool :=
  match s.scanned with
  | .token kind => kind.holdsText
  | .failure problem _ recovered => problem = .unclosedComment || recovered.any TokenKind.holdsText

/-- A comment holds text of its own. -/
theorem holdsText_commentKind (body : List Char) : (commentKind body).holdsText := by
  unfold commentKind
  dsimp only
  split
  · rfl
  · rfl

theorem holdsText_scanBlockComment (templates : List Nat) (body : List Char) :
    (scanBlockComment templates body).holdsText := by
  unfold scanBlockComment
  dsimp only
  split
  · exact holdsText_commentKind _
  · rfl

/-- So does a regular expression. -/
theorem holdsText_scanRegexp (templates : List Nat) (body : List Char) :
    (scanRegexp templates body).holdsText := by
  unfold scanRegexp
  dsimp only
  split
  · rfl
  · rfl

/-- So does a part of a template. -/
theorem holdsText_scanTemplate (templates : List Nat) (closed opened : TemplatePart)
    (body : List Char) : (scanTemplate templates closed opened body).holdsText := by
  unfold scanTemplate
  dsimp only
  split
  · rfl
  · rfl
  · rfl

/-- So does a string. -/
theorem holdsText_scanString (templates : List Nat) (quote : Char) (body : List Char) :
    (scanString templates quote body).holdsText := by
  unfold scanString
  dsimp only
  split
  · rfl
  · split
    · rfl
    · rfl

/-- A brace inside a token is text of a literal or a comment, or the end of an escape in a name. -/
theorem scan_brace (regexAllowed : Bool) (templates : List Nat) (c : Char)
    (rest : List Char) {i : Nat}
    (hInside : 0 < i) (hUpto : i < (scan regexAllowed templates c rest).length)
    (hBrace : (c :: rest)[i]? = some '\x7d') :
    (scan regexAllowed templates c rest).holdsText ∨ EndsInEscape ((c :: rest).take i) := by
  unfold scan at hUpto ⊢
  split
  · exact .inl (holdsText_commentKind _)
  next hLine =>
  rw [if_neg hLine] at hUpto
  split
  · exact .inl (holdsText_scanBlockComment _ _)
  next hBlock =>
  rw [if_neg hBlock] at hUpto
  split
  · exact .inl (holdsText_scanRegexp _ _)
  next hRegexp =>
  rw [if_neg hRegexp] at hUpto
  split
  · exact .inl (holdsText_scanTemplate _ _ _ _)
  next hWhole =>
  rw [if_neg hWhole] at hUpto
  split
  · exact .inl (holdsText_scanTemplate _ _ _ _)
  next hMiddle =>
  rw [if_neg hMiddle] at hUpto
  split
  · exact .inl (holdsText_scanString _ _ _)
  next hString =>
  rw [if_neg hString] at hUpto
  -- the other tokens have no room for text of their own
  split
  · next hNumeric =>
    rw [if_pos hNumeric] at hUpto
    have hLength : i < (scanNumber (c :: rest)).length := by
      unfold scanNumeric at hUpto
      dsimp only at hUpto
      split at hUpto
      · exact hUpto
      · exact hUpto
    have hMem := List.mem_of_getElem? ((List.getElem?_take_of_lt hLength).trans hBrace)
    exact absurd hMem (scanNumber_unbraced (c :: rest))
  next hNumeric =>
  rw [if_neg hNumeric] at hUpto
  split
  · next hWord =>
    rw [if_pos hWord] at hUpto
    have hLength : i < (wordBody 0 (c :: rest) {}).length := by
      unfold scanWord at hUpto
      dsimp only at hUpto
      split at hUpto
      · exact hUpto
      · exact hUpto
    have hFull : (c :: rest).drop (0 - 0) = c :: rest := rfl
    exact .inr (wordBody_brace (Nat.zero_le _) hFull (Nat.zero_le i) hLength hBrace)
  next hWord =>
  rw [if_neg hWord] at hUpto
  unfold scanPunctuator at hUpto
  split at hUpto
  · next p hFound =>
    obtain ⟨after, hText⟩ := List.isPrefixOf_iff_prefix.mp (prefix_of_longestPunctuator hFound)
    have hLength : i < p.spelling.toList.length := hUpto
    rw [← hText, List.getElem?_append_left hLength] at hBrace
    obtain ⟨i, rfl⟩ : ∃ k, i = k + 1 := Nat.exists_eq_add_one.mpr hInside
    rw [← List.getElem?_tail] at hBrace
    exact absurd (List.mem_of_getElem? hBrace) (spelling_unbraced p)
  · exact absurd hInside (Nat.not_lt.mpr (Nat.le_of_lt_succ hUpto))

/-! ## A closing brace at the front -/

/-- Only one operator is spelled with a closing brace first. -/
theorem rightBrace_of_spelling {p : Punctuator} (h : p.spelling.toList.head? = some '\x7d') :
    p = .rightBrace := by
  revert h
  cases p <;> decide

/-- A closing brace is the operator in front of any text. -/
theorem longestPunctuator_rightBrace (rest : List Char) :
    longestPunctuator? ('\x7d' :: rest) = some .rightBrace := by
  have hSome : (Punctuator.all.find? (·.spelling.toList.isPrefixOf ('\x7d' :: rest))).isSome :=
    List.find?_isSome.mpr ⟨.rightBrace, by decide, rfl⟩
  obtain ⟨p, hFound⟩ := Option.isSome_iff_exists.mp hSome
  obtain rfl := rightBrace_of_spelling (head_spelling_of_find hFound)
  unfold longestPunctuator?
  rw [hFound]

/-- A closing brace goes on with the template where the innermost substitution has no open brace. -/
theorem scan_rightBrace (regexAllowed : Bool) (rest : List Char) :
    scan regexAllowed templates '\x7d' rest =
      if templates.head? = some 0 then scanTemplate templates.tail .tail .middle rest
      else {
        length := 1
        scanned := .token (.punctuator .rightBrace)
        templates := trackBraces templates .rightBrace } := by
  have hScan : scan regexAllowed templates '\x7d' rest =
      if templates.head? == some 0 then scanTemplate templates.tail .tail .middle rest
      else if isNameStart '\x7d' || '\x7d' == '\x5c' then scanWord templates ('\x7d' :: rest)
      else scanPunctuator templates '\x7d' ('\x7d' :: rest) := rfl
  have hStart : ¬(isNameStart '\x7d' || '\x7d' == '\x5c') = true := by decide +kernel
  rw [hScan, if_neg hStart]
  by_cases hHead : templates.head? = some 0
  · rw [if_pos hHead, if_pos (beq_iff_eq.mpr hHead)]
  · rw [if_neg hHead, if_neg (fun h => hHead (beq_iff_eq.mp h)), scanPunctuator,
      longestPunctuator_rightBrace]
    rfl

/-! ## What a token does to the substitutions -/

/-- Whether the kind can open or close a brace or a substitution. -/
def isStructural : TokenKind → Bool
  | .template .whole _ => false
  | .template _ _ => true
  | .punctuator .leftBrace | .punctuator .rightBrace => true
  | _ => false

/-- All that reading does to the counters of the open substitutions, by what is yielded: a head
begins a substitution, a middle piece ends one and begins another, a tail ends one, and a brace
counts for the innermost. A substitution ends with its counter at zero only, and a closing brace is
yielded only if that is not so. -/
inductive Steers (templates : List Nat) : Option TokenKind → List Nat → Prop
  | head (cooked : String) : Steers templates (some (.template .head cooked)) (0 :: templates)
  | middle {outer : List Nat} (cooked : String) (hOpen : templates = 0 :: outer) :
    Steers templates (some (.template .middle cooked)) (0 :: outer)
  | tail {outer : List Nat} (cooked : String) (hOpen : templates = 0 :: outer) :
    Steers templates (some (.template .tail cooked)) outer
  | leftBrace : Steers templates (some (.punctuator .leftBrace)) (trackBraces templates .leftBrace)
  | rightBrace (hHead : templates.head? ≠ some 0) :
    Steers templates (some (.punctuator .rightBrace)) (trackBraces templates .rightBrace)
  | other {yielded : Option TokenKind} (hOther : yielded.any isStructural = false) :
    Steers templates yielded templates

theorem Steers.passed {s : Scan} {body : List Char}
    (hScanned : s.scanned = .token (commentKind body))
    (hSame : s.templates = templates) : Steers templates s.significant? s.templates := by
  have hNone : s.significant? = none := by
    unfold Scan.significant?
    rw [hScanned]
    exact if_pos (commentKind_isTrivia body)
  rw [hNone, hSame]
  exact .other rfl

/-- Operators steer the substitutions by their braces. -/
theorem scanPunctuator_steers {c : Char} {rest : List Char}
    (hHead : c = '\x7d' → templates.head? ≠ some 0) :
    Steers templates (scanPunctuator templates c (c :: rest)).significant?
      (scanPunctuator templates c (c :: rest)).templates := by
  unfold scanPunctuator
  split
  · next p hFound =>
    -- the two braces, and all the others
    show Steers templates (some (.punctuator p)) (trackBraces templates p)
    by_cases hLeft : p = .leftBrace
    · subst hLeft
      exact .leftBrace
    by_cases hRight : p = .rightBrace
    · subst hRight
      have hPrefix := prefix_of_longestPunctuator hFound
      have hFirst : ('\x7d' == c) = true := (Bool.and_eq_true_iff.mp hPrefix).1
      exact .rightBrace (hHead (beq_iff_eq.mp hFirst).symm)
    · have hSame : trackBraces templates p = templates := by
        unfold trackBraces
        split
        · exact absurd rfl hLeft
        · exact absurd rfl hRight
        · rfl
      rw [hSame]
      refine .other ?_
      rw [Option.any_some]
      unfold isStructural
      split
      · rfl
      · next h => cases h
      · next h => exact absurd (TokenKind.punctuator.inj h) hLeft
      · next h => exact absurd (TokenKind.punctuator.inj h) hRight
      · rfl
  · exact .other rfl

/-- Whatever is scanned steers the substitutions. -/
theorem scan_steers (regexAllowed : Bool) (templates : List Nat) (c : Char) (rest : List Char) :
    Steers templates (scan regexAllowed templates c rest).significant?
      (scan regexAllowed templates c rest).templates := by
  -- one scanner after the other; only templates and braces steer
  unfold scan
  split
  · exact .passed rfl rfl
  split
  · unfold scanBlockComment
    dsimp only
    split
    · exact .passed rfl rfl
    · exact .other rfl
  split
  · unfold scanRegexp
    dsimp only
    split
    · exact .other rfl
    · exact .other rfl
  split
  · unfold scanTemplate
    dsimp only
    split
    · exact .other rfl
    · exact .head _
    · exact .other rfl
  split
  · next hClose =>
    obtain ⟨outer, rfl⟩ : ∃ outer, templates = 0 :: outer := by
      have hHead := beq_iff_eq.mp (Bool.and_eq_true_iff.mp hClose).2
      exact ⟨_, List.eq_cons_of_mem_head? hHead⟩
    unfold scanTemplate
    dsimp only [List.tail_cons]
    split
    · exact .tail _ rfl
    · exact .middle _ rfl
    · exact .tail _ rfl
  next hClose =>
  split
  · unfold scanString
    dsimp only
    split
    · exact .other rfl
    · split
      · exact .other rfl
      · exact .other rfl
  split
  · unfold scanNumeric
    dsimp only
    split
    · exact .other rfl
    · exact .other rfl
  split
  · unfold scanWord
    dsimp only
    split
    · split
      · exact .other rfl
      · exact .other rfl
    · unfold WordScan.kind
      split
      · split
        · exact .other rfl
        · exact .other rfl
      · exact .other rfl
  · refine scanPunctuator_steers ?_
    rintro rfl hHead
    refine hClose ?_
    rw [hHead]
    rfl

/-- The kind that is yielded, if it counts. -/
def yielded? (r : Result) : Option TokenKind := (significant? r).map (·.kind)

/-- Every token. -/
theorem next_steers (l : Lexer) : Steers l.templates (yielded? l.next.1) l.next.2.templates := by
  have hSkip : l.skipBlank.templates = l.templates := rfl
  unfold yielded?
  cases hRest : l.skipBlank.cursor.rest with
  | nil =>
    rw [next_of_nil hRest, significant_finish rfl, Option.map_some, kind_finish]
    exact .other rfl
  | cons c rest =>
    rw [next_of_cons hRest, kind_read, templates_read, ← hSkip]
    exact scan_steers _ _ c rest

/-! ## The levels of the yielded tokens -/

/-- The braces that were yielded on the level of an open substitution since it began. -/
structure BraceLevel where
  opened : Nat := 0
  closed : Nat := 0
deriving DecidableEq

namespace BraceLevel

/-- The open substitutions, innermost first, after one more token was yielded. -/
def follow (levels : List BraceLevel) : TokenKind → List BraceLevel
  | .template .head _ => {} :: levels
  | .template .middle _ => {} :: levels.tail
  | .template .tail _ => levels.tail
  | .punctuator .leftBrace =>
    levels.modifyHead fun level => { level with opened := level.opened + 1 }
  | .punctuator .rightBrace =>
    levels.modifyHead fun level => { level with closed := level.closed + 1 }
  | _ => levels

/-- Only structural kinds are followed. -/
theorem follow_other {kind : TokenKind} (h : isStructural kind = false) (levels : List BraceLevel) :
    follow levels kind = levels := by
  cases kind with
  | template part cooked =>
    cases part with
    | whole => rfl
    | head => cases h
    | middle => cases h
    | tail => cases h
  | punctuator p => cases p <;> first | rfl | cases h
  | _ => rfl

/-- The counter is the number of opening braces less the number of closing ones. -/
def Counts (counter : Nat) (level : BraceLevel) :
    Prop := (counter : Int) = level.opened - level.closed

/-- Reading a token keeps the counters of all open substitutions right. -/
theorem counts_follow {after : List Nat} {levels : List BraceLevel} {kind : TokenKind}
    (h : List.Forall₂ Counts templates levels) (hSteers : Steers templates (some kind) after) :
    List.Forall₂ Counts after (follow levels kind) := by
  -- the counters of the lexer and the levels of the braces change alike
  cases hSteers with
  | head cooked => exact .cons rfl h
  | middle cooked hOpen =>
    subst hOpen
    cases h with
    | cons _ hOuter => exact .cons rfl hOuter
  | tail cooked hOpen =>
    subst hOpen
    cases h with
    | cons _ hOuter => exact hOuter
  | leftBrace =>
    cases h with
    | nil => exact .nil
    | cons hInner hOuter =>
      refine .cons ?_ hOuter
      unfold Counts at hInner ⊢
      push_cast
      omega
  | rightBrace hHead =>
    cases h with
    | nil => exact .nil
    | @cons counter level _ _ hInner hOuter =>
      refine .cons ?_ hOuter
      -- the counter is not at zero, so that one less is one less
      have hPositive : counter ≠ 0 := fun hZero => hHead (congrArg some hZero)
      unfold Counts at hInner ⊢
      push_cast
      omega
  | other hOther =>
    rw [follow_other hOther]
    exact h

end BraceLevel

/-- The kinds of the tokens that were yielded, those that take the place of malformed text
included. -/
def kinds (rs : List Result) : List TokenKind := rs.filterMap yielded?

/-- The open substitutions, as the yielded tokens tell them. -/
def levels (rs : List Result) : List BraceLevel := (kinds rs).foldl BraceLevel.follow []

/-- Whether the token is the first piece of a template with substitutions. -/
def isHead : TokenKind → Bool
  | .template .head _ => true
  | _ => false

/-- Whether the token is the last piece of a template with substitutions. -/
def isTail : TokenKind → Bool
  | .template .tail _ => true
  | _ => false

/-- Kinds are listed in the order of the results. -/
theorem kinds_append (rs : List Result) (r : Result) :
    kinds (rs ++ [r]) = kinds rs ++ (yielded? r).toList := by
  unfold kinds
  rw [List.filterMap_append]
  cases hYielded : yielded? r with
  | none =>
    rw [List.filterMap_cons_none hYielded]
    rfl
  | some kind =>
    rw [List.filterMap_cons_some hYielded]
    rfl

/-- The levels follow each further result. -/
theorem levels_append (rs : List Result) (r : Result) :
    levels (rs ++ [r]) = (yielded? r).toList.foldl BraceLevel.follow (levels rs) := by
  unfold levels
  rw [kinds_append, List.foldl_append]

/-- Whatever is read, and whenever a slash is told to start a regular expression, the counters are
right. -/
theorem Yields.counts (h : Yields (.ofSource source) rs l) :
    List.Forall₂ BraceLevel.Counts l.templates (levels rs) := by
  induction h with
  | start =>
    rw [templates_ofSource]
    exact .nil
  | @read rs l _ ih =>
    rw [levels_append]
    have hSteers := next_steers l
    generalize l.next.2.templates = after at hSteers ⊢
    cases hYielded : yielded? l.next.1 with
    | none =>
      rw [hYielded] at hSteers
      cases hSteers
      exact ih
    | some kind =>
      rw [hYielded] at hSteers
      exact BraceLevel.counts_follow ih hSteers
  | allow _ ih => exact ih

/-- Braces open and close no substitution. -/
theorem length_trackBraces (templates : List Nat) (p : Punctuator) :
    (trackBraces templates p).length = templates.length := by
  unfold trackBraces
  split
  · rfl
  · rfl
  · rfl

/-- One substitution more for a head, one less for a tail. -/
theorem Steers.length {yielded : Option TokenKind} {after : List Nat}
    (h : Steers templates yielded after) :
    after.length + yielded.toList.countP isTail =
      templates.length + yielded.toList.countP isHead := by
  cases h with
  | head cooked => rfl
  | middle cooked hOpen =>
    subst hOpen
    rfl
  | tail cooked hOpen =>
    subst hOpen
    rfl
  | leftBrace => exact length_trackBraces templates .leftBrace
  | rightBrace hHead => exact length_trackBraces templates .rightBrace
  | other hOther =>
    cases yielded with
    | none => rfl
    | some kind =>
      have hPlain : isHead kind = false ∧ isTail kind = false := by
        cases kind with
        | template part cooked =>
          cases part with
          | whole => exact ⟨rfl, rfl⟩
          | head => cases hOther
          | middle => cases hOther
          | tail => cases hOther
        | _ => exact ⟨rfl, rfl⟩
      rw [Option.toList_some, List.countP_singleton, List.countP_singleton, hPlain.1, hPlain.2]

/-- As many substitutions are open as have begun and not ended. -/
theorem Yields.substitutions (h : Yields (.ofSource source) rs l) :
    l.templates.length + (kinds rs).countP isTail = (kinds rs).countP isHead := by
  induction h with
  | start =>
    rw [templates_ofSource]
    rfl
  | @read rs l _ ih =>
    have hStep := (next_steers l).length
    rw [kinds_append, List.countP_append, List.countP_append]
    omega
  | allow _ ih => exact ih

/-! ## The closing braces of a source -/

/-- Whether the result holds text; a comment that is never closed does. -/
def holdsText : Result → Bool
  | .ok t => t.kind.holdsText
  | .error e => e.problem = .unclosedComment || e.recovered.any (·.kind.holdsText)

/-- A token that is read holds text if its scan does. -/
theorem holdsText_read (l : Lexer) (s : Scan) : holdsText (l.read s).1 = s.holdsText := by
  unfold read Scan.holdsText holdsText
  cases s.scanned with
  | token kind =>
    dsimp only
    rw [kind_finish]
  | failure problem offset recovered =>
    cases recovered with
    | none => rfl
    | some kind =>
      dsimp only [Option.any_some]
      rw [kind_finish]

/-- An unmatched brace is open inside the innermost substitution, or no substitution is open. -/
def isUnmatched (levels : List BraceLevel) : Bool :=
  levels.head?.all fun level => level.closed < level.opened

/-- A closing brace is unmatched when the counter is not at zero. -/
theorem isUnmatched_iff {levels : List BraceLevel}
    (h : List.Forall₂ BraceLevel.Counts templates levels) :
    isUnmatched levels ↔ templates.head? ≠ some 0 := by
  cases h with
  | nil =>
    constructor
    · intro _ hHead
      cases hHead
    · intro _
      rfl
  | @cons counter level _ _ hInner _ =>
    unfold BraceLevel.Counts at hInner
    show decide (level.closed < level.opened) = true ↔ some counter ≠ some 0
    rw [decide_eq_true_iff, ne_eq, Option.some_inj]
    omega

/-- What becomes of a closing brace of the text that the next token reaches. Inside the token it is
text of a literal or a comment, or ends a Unicode escape in a name. At the front of the token it is
yielded as the operator exactly if it is unmatched, and otherwise goes on with a template. -/
inductive BraceFate (text : List Char) (levels : List BraceLevel) (l : Lexer) (offset : Nat) : Prop
  | inside (hInside : l.skipBlank.offset < offset)
    (hText : holdsText l.next.1 ∨ EndsInEscape (slice text l.skipBlank.offset offset))
  | front (hFront : offset = l.skipBlank.offset)
    (hBrace : (∃ t, l.next.1 = .ok t ∧ t.kind = .punctuator .rightBrace) ↔ isUnmatched levels)
    (hPiece : ¬isUnmatched levels → ∃ part cooked, (part = .middle ∨ part = .tail) ∧
      yielded? l.next.1 = some (.template part cooked))

/-- Behind a substitution a middle part or the tail follows. -/
theorem yielded_scanTemplate (templates : List Nat) (body : List Char) :
    ∃ part cooked, (part = .middle ∨ part = .tail) ∧
      (scanTemplate templates .tail .middle body).significant? = some (.template part cooked) := by
  unfold scanTemplate
  dsimp only
  split
  · exact ⟨_, _, .inr rfl, rfl⟩
  · exact ⟨_, _, .inl rfl, rfl⟩
  · exact ⟨_, _, .inr rfl, rfl⟩

/-- A brace at the front of a token. -/
theorem front_brace {levels : List BraceLevel}
    (h : List.Forall₂ BraceLevel.Counts l.templates levels)
    (hRest : l.skipBlank.cursor.rest = '\x7d' :: rest) (text : List Char) :
    BraceFate text levels l l.skipBlank.offset := by
  have hSkip : l.skipBlank.templates = l.templates := rfl
  have hNext := next_of_cons hRest
  rw [scan_rightBrace, hSkip] at hNext
  have hUnmatched := isUnmatched_iff h
  -- the counter is at zero where the brace closes a substitution
  by_cases hHead : l.templates.head? = some 0
  · have hMatched : ¬isUnmatched levels := fun hOpen => hUnmatched.mp hOpen hHead
    rw [if_pos hHead] at hNext
    have hPiece : ∃ part cooked, (part = .middle ∨ part = .tail) ∧
        yielded? l.next.1 = some (.template part cooked) := by
      obtain ⟨part, cooked, hPart, hKind⟩ := yielded_scanTemplate l.templates.tail rest
      refine ⟨part, cooked, hPart, ?_⟩
      rw [hNext, yielded?, kind_read, hKind]
    refine .front rfl ⟨?_, fun hOpen => absurd hOpen hMatched⟩ fun _ => hPiece
    rintro ⟨t, hRead, hKind⟩
    obtain ⟨part, cooked, -, hYielded⟩ := hPiece
    have hTrivia : ¬t.isTrivia = true := by
      rw [Token.isTrivia, hKind]
      exact Bool.false_ne_true
    rw [hRead, yielded?, significant?, if_neg hTrivia, Option.map_some, hKind] at hYielded
    cases hYielded
  · have hOpen : isUnmatched levels := hUnmatched.mpr hHead
    rw [if_neg hHead] at hNext
    refine .front rfl ⟨fun _ => hOpen, fun _ => ?_⟩ fun hMatched => absurd hOpen hMatched
    rw [hNext]
    exact ⟨_, rfl, rfl⟩

/-- Every closing brace up to the end of the next token. -/
theorem next_brace {text : List Char} {levels : List BraceLevel} {offset : Nat}
    (hFollows : Follows text l.cursor)
    (h : List.Forall₂ BraceLevel.Counts l.templates levels) (hFrom : l.offset ≤ offset)
    (hUpto : offset < l.next.2.offset) (hBrace : text[offset]? = some '\x7d') :
    BraceFate text levels l offset := by
  have hProceeds := hFollows.proceeds
  have hSkipped := hFollows.skipBlank
  -- no brace is skipped as white space
  have hStart : l.skipBlank.offset ≤ offset := by
    refine Nat.le_of_not_lt fun hBlank => ?_
    have hMem : '\x7d' ∈ slice text l.offset l.skipBlank.offset := by
      refine List.mem_of_getElem? (i := offset - l.offset) ?_
      rw [slice, List.getElem?_drop, Nat.add_sub_cancel' hFrom,
        List.getElem?_take_of_lt hBlank, hBrace]
    exact absurd (hProceeds.blank _ hMem) (by decide +kernel)
  obtain ⟨i, rfl⟩ := Nat.exists_eq_add_of_le hStart
  have hAt : l.skipBlank.cursor.rest[i]? = some '\x7d' := by
    rw [hSkipped.rest, List.getElem?_drop]
    exact hBrace
  cases hRest : l.skipBlank.cursor.rest with
  | nil =>
    rw [hRest] at hAt
    cases hAt
  | cons c rest =>
    rw [hRest] at hAt
    -- the brace begins a token or is inside one
    rcases Nat.eq_zero_or_pos i with rfl | hInside
    · obtain rfl : c = '\x7d' := Option.some.inj hAt
      exact front_brace h hRest text
    · have hNext := next_of_cons hRest
      have hFits : (scan l.skipBlank.regexAllowed l.skipBlank.templates c rest).length ≤
          l.skipBlank.cursor.rest.length := hRest ▸ scan_fits ..
      have hStop : l.next.2.offset = l.skipBlank.offset +
          (scan l.skipBlank.regexAllowed l.skipBlank.templates c rest).length := by
        rw [hNext, Lexer.offset, cursor_read]
        exact offset_advance_of_le hFits
      have hLength : i < (scan l.skipBlank.regexAllowed l.skipBlank.templates c rest).length := by
        omega
      have hSlice : slice text l.skipBlank.offset (l.skipBlank.offset + i) =
          (c :: rest).take i := by
        rw [slice, List.drop_take, Nat.add_sub_cancel_left, ← hRest, hSkipped.rest]
        rfl
      refine .inside (Nat.lt_add_of_pos_right hInside) ?_
      rw [hNext, holdsText_read, hSlice]
      exact scan_brace _ _ c rest hInside hLength hAt

/-- How the structure of templates and braces is kept by what a lexer yielded and is about to
yield. -/
structure Braced (text : List Char) (rs : List Result) (l : Lexer) : Prop where
  /-- One substitution is open for each head without a tail. -/
  substitutions : l.templates.length + (kinds rs).countP isTail = (kinds rs).countP isHead
  /-- Each counter is what the tokens on its level say. -/
  counters : List.Forall₂ BraceLevel.Counts l.templates (levels rs)
  /-- A closing brace counts down a counter above zero. -/
  exact :
    yielded? l.next.1 = some (.punctuator .rightBrace) → ∀ counter ∈ l.templates.head?, 0 < counter
  /-- The later pieces of a template are read inside a substitution. -/
  inside : ∀ part cooked, yielded? l.next.1 = some (.template part cooked) →
    part = .middle ∨ part = .tail → l.templates ≠ []
  /-- Each closing brace up to the end of the next token. -/
  braces : ∀ offset, l.offset ≤ offset → offset < l.next.2.offset → text[offset]? = some '\x7d' →
    BraceFate text (levels rs) l offset

/-- The lexer follows the source. -/
theorem Yields.follows (h : Yields (.ofSource source) rs l) : Follows source.toList l.cursor := by
  induction h with
  | start => exact follows_ofSource source
  | read _ ih => exact ih.proceeds.follows
  | allow _ ih => exact ih

/-- On every source, however its tokens are asked for. -/
theorem yields_braced (h : Yields (.ofSource source) rs l) : Braced source.toList rs l := by
  have hSteers := next_steers l
  generalize l.next.2.templates = after at hSteers
  refine ⟨h.substitutions, h.counts, ?_, ?_, fun _ => next_brace h.follows h.counts⟩
  · intro hYielded counter hCounter
    rw [hYielded] at hSteers
    cases hSteers with
    | rightBrace hHead =>
      refine Nat.pos_of_ne_zero ?_
      rintro rfl
      exact hHead hCounter
    | other hOther => cases hOther
  · intro part cooked hYielded hPart
    rw [hYielded] at hSteers
    rcases hPart with rfl | rfl
    · cases hSteers with
      | middle _ hOpen =>
        rw [hOpen]
        exact List.cons_ne_nil _ _
      | other hOther => cases hOther
    · cases hSteers with
      | tail _ hOpen =>
        rw [hOpen]
        exact List.cons_ne_nil _ _
      | other hOther => cases hOther

/-- Two braces deep in a template, the next closing brace is an operator. -/
theorem yields_braced_of_template :
    ∃ rs l, Yields (.ofSource "\x60a$\x7b\x7b\x7d\x7db\x60") rs l ∧ levels rs = [⟨1, 0⟩] ∧
      Braced "\x60a$\x7b\x7b\x7d\x7db\x60".toList rs l :=
  ⟨_, _, .read (.read .start), by decide +kernel, yields_braced (.read (.read .start))⟩

/-- An escape in a name has a closing brace that is in no literal and in no comment, and is yielded
as no operator although no substitution is open. -/
theorem brace_of_name_escape :
    ¬∀ source rs l offset, Yields (.ofSource source) rs l → l.offset ≤ offset →
      offset < l.next.2.offset → source.toList[offset]? = some '\x7d' → holdsText l.next.1 = false →
      ((∃ t, l.next.1 = .ok t ∧ t.kind = .punctuator .rightBrace) ↔ isUnmatched (levels rs)) := by
  intro h
  have hBrace :=
    h "\\u\x7b61\x7d" [] (ofSource "\\u\x7b61\x7d") 5 .start (by decide +kernel) (by decide +kernel)
    (by decide +kernel) (by decide +kernel)
  obtain ⟨t, hRead, hKind⟩ := hBrace.mpr rfl
  have hName : (ofSource "\\u\x7b61\x7d").next.1.toOption.any (·.identifier?.isSome) := by
    decide +kernel
  rw [hRead, Except.toOption, Option.any_some, Token.identifier?, hKind] at hName
  cases hName

end Lexer

end ScriptLint
