import ScriptLint.Proofs.Configuration.Overrides

/-!
# The values of settings

Two readers decide which values a setting can have. Directives and overrides are texts and are read;
the options of a run have types already and are checked. Both know the same three kinds of settings.

- `Setting.Kind.Takes`: the values of each kind.
- `Setting.exists_text`: every such value can be written, numbers in decimal digits.
- `Setting.exists_read_iff`, `Setting.validate_iff`: what is read, and what passes the check.
- `Setting.validate_iff_exists_read`: the two agree, but for the value `true` of a setting that
  takes numbers. The check lets it pass, and no text gives it.
-/

namespace ScriptLint

/-! ## Texts without white space -/

namespace Text

/-- A text without white space is not trimmed. -/
theorem trim_of_forall {cs : List Char} (h : ∀ c ∈ cs, isBlank c = false) : trim cs = cs := by
  have hKeep {cs : List Char} (h : ∀ c ∈ cs, isBlank c = false) : cs.dropWhile isBlank = cs := by
    cases cs with
    | nil => rfl
    | cons c rest =>
      exact List.dropWhile_cons_of_neg (Bool.not_eq_true _ ▸ h c (List.mem_cons_self ..))
  have hReversed : ∀ c ∈ cs.reverse, isBlank c = false := fun c hc => h c (List.mem_reverse.mp hc)
  rw [trim, trimLeft, hKeep h, hKeep hReversed, List.reverse_reverse]

/-- A digit is no white space. -/
theorem isBlank_of_isDigit {c : Char} (h : c.isDigit) : isBlank c = false := by
  have hRange : 48 ≤ c.toNat ∧ c.toNat ≤ 57 := by
    simpa [Char.isDigit, UInt32.le_iff_toNat_le] using h
  rw [isBlank, if_pos (by omega)]
  simp only [Bool.or_eq_false_iff, Bool.and_eq_false_iff, decide_eq_false_iff_not,
    beq_eq_false_iff_ne]
  omega

end Text

namespace Setting

variable {s : Setting} {value : Value} {levels : List String}

/-- The values that a setting of the kind takes: a number is positive, and `false` unsets it. -/
def Kind.Takes (kind : Kind) (value : Value) : Prop :=
  match kind with
  | .flag => ∃ on, value = .flag on
  | .limit => value = .flag false ∨ ∃ bound > 0, value = .limit bound
  | .graded levels => (∃ on, value = .flag on) ∨ ∃ word ∈ levels, value = .level word

/-! ## Numbers -/

/-- A number is written with digits. -/
theorem isDigit_of_mem_toDigits {n : Nat} {c : Char} (h : c ∈ Nat.toDigits 10 n) : c.isDigit :=
  Nat.isDigit_of_mem_toDigits (by decide) (by decide) h

/-- Without a sign in front, the digits are all there is to read. -/
theorem readNumber?_digits {cs : List Char} (hSome : cs ≠ []) (hDigits : ∀ c ∈ cs, c.isDigit) :
    readNumber? cs = if Nat.ofDigitChars 10 cs 0 < 4294967296
      then some (UInt32.ofNat (Nat.ofDigitChars 10 cs 0)) else none := by
  have hFold : cs.foldl (fun sum c => sum * 10 + (c.toNat - '0'.toNat)) 0 =
      Nat.ofDigitChars 10 cs 0 := by
    simp only [Nat.ofDigitChars_eq_foldl, Nat.mul_comm]
  have hAll : cs.all Char.isDigit = true := List.all_eq_true.mpr hDigits
  have hIsEmpty : cs.isEmpty = false := List.isEmpty_eq_false_iff.mpr hSome
  unfold readNumber?
  split
  · next rest => exact absurd (hDigits '+' (List.mem_cons_self ..)) (by decide)
  · dsimp only
    rw [hFold, hAll, hIsEmpty]
    rfl

/-- A written limit is read back. -/
theorem readNumber?_repr (bound : UInt32) :
    readNumber? (Nat.repr bound.toNat).toList = some bound := by
  rw [Nat.toList_repr, readNumber?_digits Nat.toDigits_ne_nil fun _ => isDigit_of_mem_toDigits,
    Nat.ofDigitChars_ten_toDigits, if_pos bound.toNat_lt, UInt32.ofNat_toNat]

/-- A written number has no white space around it. -/
theorem trimText_repr (n : Nat) : Text.trimText (Nat.repr n) = Nat.repr n := by
  rw [Text.trimText, Text.trim_of_forall, String.ofList_toList]
  intro c hc
  rw [Nat.toList_repr] at hc
  exact Text.isBlank_of_isDigit (isDigit_of_mem_toDigits hc)

/-- A written number is no word. -/
theorem repr_ne_false (n : Nat) : Nat.repr n ≠ "false" := by
  intro h
  have hMem : 'f' ∈ Nat.toDigits 10 n := by
    rw [← Nat.toList_repr, h]
    decide
  exact absurd (isDigit_of_mem_toDigits hMem) (by decide)

/-- A positive limit is read from its digits. -/
theorem read_repr (hKind : s.kind = .limit) {bound : UInt32} (hPositive : bound > 0) :
    s.read (Nat.repr bound.toNat) = .ok (.limit bound) := by
  unfold read
  simp only [hKind, trimText_repr, if_neg (repr_ne_false _), readNumber?_repr, if_pos hPositive]

/-! ## Words -/

/-- Every setting can be switched off. -/
theorem read_false (s : Setting) : s.read "false" = .ok (.flag false) := by
  have hTrim : Text.trimText "false" = "false" := by decide +kernel
  unfold read
  simp only [hTrim]
  cases s.kind <;> rfl

/-- Only a limit cannot be switched on. -/
theorem read_true (hKind : s.kind ≠ .limit) : s.read "true" = .ok (.flag true) := by
  have hTrim : Text.trimText "true" = "true" := by decide +kernel
  unfold read
  simp only [hTrim]
  cases h : s.kind with
  | limit => exact absurd h hKind
  | flag => rfl
  | graded levels => rfl

/-- The levels of the catalogue stand for themselves. -/
theorem read_level (hKind : s.kind = .graded levels) {word : String} (hWord : word ∈ levels) :
    s.read word = .ok (.level word) := by
  have hPlain : Text.trimText word = word ∧ word ≠ "true" ∧ word ≠ "false" := by
    cases s <;> cases hKind <;> revert word <;> decide +kernel
  obtain ⟨hTrim, hTrue, hFalse⟩ := hPlain
  unfold read
  simp only [hKind, hTrim, if_neg hTrue, if_neg hFalse, List.contains_iff_mem.mpr hWord, if_pos]

/-! ## Both readers -/

/-- Every value of the kind has a text that is read as it. One case for each kind. -/
theorem exists_text (h : s.kind.Takes value) : ∃ raw, s.read raw = .ok value := by
  have hFlag (hKind : s.kind ≠ .limit) (on : Bool) : ∃ raw, s.read raw = .ok (.flag on) := by
    cases on with
    | false => exact ⟨"false", read_false s⟩
    | true => exact ⟨"true", read_true hKind⟩
  cases hKind : s.kind with
  | flag =>
    rw [hKind] at h
    obtain ⟨on, rfl⟩ := h
    exact hFlag (by simp [hKind]) on
  | limit =>
    rw [hKind] at h
    rcases h with rfl | ⟨bound, hPositive, rfl⟩
    · exact ⟨"false", read_false s⟩
    · exact ⟨_, read_repr hKind hPositive⟩
  | graded levels =>
    rw [hKind] at h
    rcases h with ⟨on, rfl⟩ | ⟨word, hWord, rfl⟩
    · exact hFlag (by simp [hKind]) on
    · exact ⟨word, read_level hKind hWord⟩

/-- The check of typed values is the kind's, and lets `true` pass for a number. -/
theorem validate_iff (s : Setting) (value : Value) :
    s.validate value = .ok () ↔ s.kind.Takes value ∨ s.kind = .limit ∧ value = .flag true := by
  unfold validate Kind.Takes
  cases s.kind <;> rcases value with (_ | _) | bound | word | members <;> grind

/-- No text is read as the value `true` of a setting that takes numbers. -/
theorem read_ne_true (hKind : s.kind = .limit) (raw : String) : s.read raw ≠ .ok (.flag true) := by
  unfold read
  simp only [hKind]
  grind

/-- The values that can be read are those that the kind of the setting takes. -/
theorem exists_read_iff (s : Setting) (value : Value) :
    (∃ raw, s.read raw = .ok value) ↔ s.kind.Takes value := by
  constructor
  · rintro ⟨raw, hRead⟩
    rcases (validate_iff s value).mp (validate_of_read hRead) with hTakes | ⟨hKind, rfl⟩
    · exact hTakes
    · exact absurd hRead (read_ne_true hKind raw)
  · exact exists_text

/-! ## Where values come from -/

/-- A directive gives a setting what is read from the text behind the colon. -/
theorem optionItem_name (s : Setting) (raw : String) (value : Value) :
    Directive.optionItem s.name (some raw) = .ok (some (.setOption s value)) ↔ s.read raw =
      .ok value := by
  have hNotIgnore : s.name ≠ "ignore" := by cases s <;> decide
  unfold Directive.optionItem
  simp only [ignoredCode?_name, if_neg hNotIgnore, ofName?_name]
  cases s.read raw <;> simp

/-- A single option is accepted exactly if it passes the check. -/
theorem problems_ofOptions_single (s : Setting) (value : Value) :
    (Layers.ofOptions ⟨[(s.name, value)]⟩).2 = [] ↔ s.validate value = .ok () := by
  show (Layers.readBase.step ({}, []) (s.name, value)).2 = [] ↔ _
  unfold Layers.readBase.step
  simp only [ignoredCode?_name, ofName?_name]
  cases s.validate value <;> simp

/-- What is checked and what is read are the same values, but for the value `true` of a setting that
takes numbers, which only the check accepts. So directives and overrides give such a setting the
positive numbers and `false`, and the options of a run `true` besides. -/
theorem validate_iff_exists_read (s : Setting) (value : Value) :
    (s.validate value = .ok () ↔ (∃ raw, s.read raw = .ok value) ∨ s.kind = .limit ∧
    value = .flag true) ∧ ((∃ raw, s.read raw = .ok value) ↔ s.kind.Takes value) ∧
    ((∃ raw, Directive.optionItem s.name (some raw) = .ok (some (.setOption s value))) ↔
    s.kind.Takes value) ∧
    ((∃ raw, Config.overrideValue s.name raw = .ok value) ↔ s.kind.Takes value) ∧
    ((Layers.ofOptions ⟨[(s.name, value)]⟩).2 = [] ↔
      s.kind.Takes value ∨ s.kind = .limit ∧ value = .flag true) := by
  refine ⟨?_, exists_read_iff s value, ?_, ?_, ?_⟩
  · rw [exists_read_iff, validate_iff]
  · simp only [optionItem_name, exists_read_iff]
  · simp only [Config.overrideValue_name, exists_read_iff]
  · rw [problems_ofOptions_single, validate_iff]

end Setting

end ScriptLint
