import ScriptLint.Proofs.Lexer.Positions

/-!
# Texts with carriage returns

A text is read again with a carriage return before every line feed.

- `crlf`, `shifted`: the text with the carriage returns, and where its offsets lie in it.
- `takeWhile_crlf`, `dropWhile_crlf`: runs of characters that do not tell the ends of lines apart.
- `within_crlf`: lines and columns stay as they are.
-/

namespace ScriptLint

/-! ## Texts -/

/-- The text with a carriage return before every line feed. -/
def crlf (text : List Char) : List Char :=
  text.flatMap fun c => if c = '\n' then ['\r', '\n'] else [c]

/-- Where an offset of the text lies in the text with the carriage returns. -/
def shifted (text : List Char) (offset : Nat) : Nat := (crlf (text.take offset)).length

section Texts

variable {text rest : List Char} {c : Char} {p : Char → Bool}

@[simp] theorem crlf_nil : crlf [] = [] := rfl

@[simp] theorem crlf_feed (rest : List Char) :
    crlf ('\n' :: rest) = '\r' :: '\n' :: crlf rest := rfl

theorem crlf_cons (h : c ≠ '\n') (rest : List Char) : crlf (c :: rest) = c :: crlf rest := by
  rw [crlf, List.flatMap_cons, if_neg h]
  rfl

/-- Line feeds are rewritten one by one, so that texts may be put together before or after. -/
theorem crlf_append (text rest : List Char) : crlf (text ++ rest) = crlf text ++ crlf rest :=
  List.flatMap_append

/-- A text without line feeds stays as it is. -/
theorem crlf_of_unbroken (h : '\n' ∉ text) : crlf text = text := by
  induction text with
  | nil => rfl
  | cons c rest ih =>
    rw [List.mem_cons, not_or] at h
    rw [crlf_cons (Ne.symm h.1), ih h.2]

/-- Every line feed makes the text longer. -/
theorem length_crlf (text : List Char) : (crlf text).length = text.length + text.count '\n' := by
  induction text with
  | nil => rfl
  | cons c rest ih =>
    by_cases hc : c = '\n'
    · subst hc
      rw [crlf_feed, List.count_cons_self, List.length_cons, List.length_cons, ih, List.length_cons]
      omega
    · rw [crlf_cons hc, List.count_cons_of_ne hc, List.length_cons, ih, List.length_cons]
      omega

/-! ### Offsets -/

@[simp] theorem shifted_zero (text : List Char) : shifted text 0 = 0 := rfl

@[simp] theorem shifted_feed (rest : List Char) (n : Nat) :
    shifted ('\n' :: rest) (n + 1) = shifted rest n + 2 := rfl

theorem shifted_cons (h : c ≠ '\n') (rest : List Char) (n : Nat) :
    shifted (c :: rest) (n + 1) = shifted rest n + 1 := by
  rw [shifted, List.take_succ_cons, crlf_cons h]
  rfl

/-- Behind the first characters the offsets of the remaining text count. -/
theorem shifted_add (text : List Char) (m n : Nat) :
    shifted text (m + n) = shifted text m + shifted (text.drop m) n := by
  rw [shifted, List.take_add, crlf_append, List.length_append]
  rfl

/-- The rewritten text falls into parts where the text does. -/
theorem crlf_split (text : List Char) (n : Nat) :
    crlf text = crlf (text.take n) ++ crlf (text.drop n) := by
  rw [← crlf_append, List.take_append_drop]

/-- The shifted offset cuts the rewritten text where the offset cuts the text. -/
theorem take_shifted (text : List Char) (n : Nat) :
    (crlf text).take (shifted text n) = crlf (text.take n) := by
  rw [crlf_split text n]
  exact List.take_left

/-- What is left behind an offset is rewritten on its own. -/
theorem drop_shifted (text : List Char) (n : Nat) :
    (crlf text).drop (shifted text n) = crlf (text.drop n) := by
  rw [crlf_split text n]
  exact List.drop_left

/-- No offset of the text is moved out of the rewritten text. -/
theorem shifted_le (text : List Char) (n : Nat) : shifted text n ≤ (crlf text).length := by
  rw [crlf_split text n, List.length_append]
  exact Nat.le_add_right _ _

/-- The order of offsets is kept. -/
theorem shifted_mono (text : List Char) {m n : Nat} (h : m ≤ n) :
    shifted text m ≤ shifted text n := by
  obtain ⟨k, rfl⟩ := Nat.exists_eq_add_of_le h
  rw [shifted_add]
  exact Nat.le_add_right _ _

/-- Inside the text different offsets stay different, in the same order. -/
theorem shifted_lt {m n : Nat} (h : m < n) (hn : n ≤ text.length) :
    shifted text m < shifted text n := by
  obtain ⟨k, rfl⟩ := Nat.exists_eq_add_of_le (Nat.le_of_lt h)
  have hMore : 0 < ((text.drop m).take k).length := by
    rw [List.length_take, List.length_drop]
    omega
  rw [shifted_add, shifted, shifted, length_crlf ((text.drop m).take k)]
  omega

/-- An offset of the text can be told from its shifted one. -/
theorem shifted_inj {m n : Nat} (hm : m ≤ text.length) (hn : n ≤ text.length)
    (h : shifted text m = shifted text n) : m = n := by
  rcases Nat.lt_trichotomy m n with hLess | hEq | hLess
  · have := shifted_lt hLess hn
    omega
  · exact hEq
  · have := shifted_lt hLess hm
    omega

/-- Up to the first line feed nothing is shifted. -/
theorem shifted_of_unbroken {n : Nat} (h : '\n' ∉ text.take n) (hn : n ≤ text.length) :
    shifted text n = n := by
  rw [shifted, crlf_of_unbroken h, List.length_take_of_le hn]

/-- Where nothing is shifted, no line feed came before. -/
theorem unbroken_of_shifted {n : Nat} (hn : n ≤ text.length) (h : shifted text n = n) :
    '\n' ∉ text.take n := by
  rw [shifted, length_crlf, List.length_take_of_le hn] at h
  exact List.count_eq_zero.mp (by omega)

/-- What stands after so many characters. -/
theorem shifted_next {n : Nat} {cs : List Char} (h : text.drop n = cs) (k : Nat) :
    shifted text (n + k) = shifted text n + shifted cs k := by
  rw [shifted_add, h]

/-! ### Runs of characters -/

/-- A run that line ends cannot be part of is the same in both texts. -/
theorem takeWhile_crlf (hFeed : p '\n' = false) (hReturn : p '\r' = false) (text : List Char) :
    (crlf text).takeWhile p = text.takeWhile p := by
  induction text with
  | nil => rfl
  | cons c rest ih =>
    by_cases hc : c = '\n'
    · subst hc
      rw [crlf_feed, List.takeWhile_cons_of_neg (by rw [hReturn]; exact Bool.false_ne_true),
        List.takeWhile_cons_of_neg (by rw [hFeed]; exact Bool.false_ne_true)]
    · rw [crlf_cons hc, List.takeWhile_cons, List.takeWhile_cons, ih]

/-- Characters that are dropped together with line feeds are dropped together with carriage returns.
-/
theorem dropWhile_crlf (h : p '\r' = p '\n') (text : List Char) :
    (crlf text).dropWhile p = crlf (text.dropWhile p) := by
  induction text with
  | nil => rfl
  | cons c rest ih =>
    by_cases hc : c = '\n'
    · subst hc
      rw [crlf_feed, List.dropWhile_cons, List.dropWhile_cons, List.dropWhile_cons, ih, h]
      split
      · rfl
      · exact (crlf_feed rest).symm
    · rw [crlf_cons hc, List.dropWhile_cons, List.dropWhile_cons, ih]
      split
      · rfl
      · exact (crlf_cons hc rest).symm

/-- A run that goes on over the ends of lines. -/
theorem takeWhile_crlf_of_pos (hFeed : p '\n' = true) (hReturn : p '\r' = true) (text : List Char) :
    (crlf text).takeWhile p = crlf (text.takeWhile p) := by
  induction text with
  | nil => rfl
  | cons c rest ih =>
    by_cases hc : c = '\n'
    · subst hc
      rw [crlf_feed, List.takeWhile_cons_of_pos hReturn, List.takeWhile_cons_of_pos hFeed,
        List.takeWhile_cons_of_pos hFeed, ih, crlf_feed]
    · rw [crlf_cons hc, List.takeWhile_cons, List.takeWhile_cons, ih]
      split
      · exact (crlf_cons hc _).symm
      · rfl

/-- A run that line feeds cannot be part of holds none. -/
theorem not_mem_takeWhile (hFeed : p '\n' = false) (text : List Char) : '\n' ∉ text.takeWhile p :=
  fun hMem => by
  rw [List.all_eq_true.mp List.all_takeWhile _ hMem] at hFeed
  cases hFeed

/-- Behind such a run nothing is shifted. -/
theorem shifted_takeWhile (hFeed : p '\n' = false) (text : List Char) :
    shifted text (text.takeWhile p).length = (text.takeWhile p).length := by
  have hPrefix := List.takeWhile_prefix p (l := text)
  refine shifted_of_unbroken ?_ hPrefix.length_le
  rw [← List.prefix_iff_eq_take.mp hPrefix]
  exact not_mem_takeWhile hFeed text

/-- A test that makes no difference between the two characters of a line end finds the same in both
texts. -/
theorem any_crlf (h : p '\r' = p '\n') (text : List Char) : (crlf text).any p = text.any p := by
  induction text with
  | nil => rfl
  | cons c rest ih =>
    by_cases hc : c = '\n'
    · subst hc
      rw [crlf_feed, List.any_cons, List.any_cons, List.any_cons, ih, h, ← Bool.or_assoc,
        Bool.or_self]
    · rw [crlf_cons hc, List.any_cons, List.any_cons, ih]

/-- Such a test gives the same for the first character. -/
theorem head_any_crlf (h : p '\r' = p '\n') (text : List Char) :
    (crlf text).head?.any p = text.head?.any p := by
  cases text with
  | nil => rfl
  | cons c rest =>
    by_cases hc : c = '\n'
    · subst hc
      exact h
    · rw [crlf_cons hc]
      rfl

/-- The first character is the same one, unless it ends the line. -/
theorem head_beq_crlf {d : Char} (hFeed : d ≠ '\n') (hReturn : d ≠ '\r') (text : List Char) :
    ((crlf text).head? == some d) = (text.head? == some d) := by
  have hAny (l : List Char) : (l.head? == some d) = l.head?.any (· == d) := by
    cases l <;> rfl
  rw [hAny, hAny, head_any_crlf]
  rw [beq_eq_false_iff_ne.mpr hFeed.symm, beq_eq_false_iff_ne.mpr hReturn.symm]

end Texts

/-! ### Places -/

/-- The place of what stands there in the text with the carriage returns. -/
def Position.crlf (text : List Char) (p : Position) :
    Position := { p with offset := shifted text p.offset }

/-- By induction on the offset: a carriage return before a line feed does not end the line. -/
theorem within_crlf {text : List Char} (hText : '\r' ∉ text) {offset : Nat}
    (h : offset ≤ text.length) :
    Position.within (crlf text) (shifted text offset) =
      (Position.within text offset).crlf text := by
  induction offset with
  -- both places are taken one character further, which is two characters where a line ends
  | zero => rfl
  | succ offset ih =>
    have hHere := ih (Nat.le_of_succ_le h)
    obtain ⟨c, rest, hDrop⟩ : ∃ c rest, text.drop offset = c :: rest := by
      refine List.exists_cons_of_length_pos ?_
      rw [List.length_drop]
      omega
    have hReturn : c ≠ '\r' := by
      rintro rfl
      refine hText (List.mem_of_mem_drop (i := offset) ?_)
      rw [hDrop]
      exact List.mem_cons_self
    have hThere := (drop_shifted text offset).trans (congrArg ScriptLint.crlf hDrop)
    have hNext := shifted_next hDrop 1
    by_cases hc : c = '\n'
    · subst hc
      rw [crlf_feed] at hThere
      have hFeed :
          (ScriptLint.crlf text).drop (shifted text offset + 1) = '\n' :: ScriptLint.crlf rest := by
        rw [← List.tail_drop, hThere, List.tail_cons]
      have hFirst := Position.within_succ hThere
      have hSecond := Position.within_succ hFeed
      rw [hNext, shifted_feed, shifted_zero, Nat.zero_add]
      show Position.within _ (shifted text offset + 1 + 1) = _
      rw [hSecond, hFirst, hHere, Position.within_succ hDrop]
      simp only [Cursor.step, Position.crlf, Text.isLineTerminator]
      simp [hNext, Position.within]
    · rw [crlf_cons hc] at hThere
      have hStep := Position.within_succ hThere
      have hOne : shifted (c :: rest) 1 = 1 := shifted_cons hc rest 0
      have hCount : (c == '\r') = false := beq_eq_false_iff_ne.mpr hReturn
      rw [hNext, hOne, hStep, hHere, Position.within_succ hDrop]
      simp only [Cursor.step, Position.crlf, hCount, Bool.false_and, Bool.not_false, Bool.and_true]
      split
      · simp [hNext, hOne, Position.within]
      · simp [hNext, hOne, Position.within]

end ScriptLint
