import ScriptLint.Directive

/-!
# How directives may be laid out

The items of a directive are told apart by commas and white space, and a colon may have white space
on either side. However a list of items is written down, the directive has the results of these
items and nothing else.

- `Item`: a key with its value, as it stands between separators.
- `Layout`: the texts that write a list of items.
- `tightenColons_append`, `pieces_append`: what the two passes over the text do to a part without
  colons, and to a part without separators.
- `items_layout`: the items that are found in a layout.
- `ofComment_layout`: the directive of a comment.
-/

namespace ScriptLint.Directive

/-! ## Layouts -/

/-- Whether a text can be a key or a value: it is not empty and has neither separators nor
colons. -/
def isPlain (text : String) : Bool :=
  !text.toList.isEmpty && text.toList.all fun c => !isSeparator c && c != ':'

/-- An item of a directive. -/
structure Item where
  key : String
  value : Option String := none
  plain : isPlain key = true := by decide
  valuePlain : value.all isPlain = true := by decide

namespace Item

/-- The item with nothing around its colon. -/
def text (item : Item) : List Char :=
  match item.value with
  | none => item.key.toList
  | some value => item.key.toList ++ ':' :: value.toList

/-- The text writes the item, with any white space around its colon. -/
def Written (item : Item) (text : List Char) : Prop :=
  match item.value with
  | none => text = item.key.toList
  | some value => ∃ before after, (∀ c ∈ before, Text.isBlank c) ∧ (∀ c ∈ after, Text.isBlank c) ∧
    text = item.key.toList ++ (before ++ ':' :: (after ++ value.toList))

/-- The item, read as its family demands. -/
def read (family : Family) (item : Item) : Except Setting.Problem (Option Entry) :=
  match family with
  | .options => optionItem item.key item.value
  | .globals => globalItem item.key item.value
  | .exported => .ok (some (.exportName item.key))

/-- What the item adds to the entries of its directive. -/
def accepted? (family : Family) (item : Item) : Option Entry :=
  match item.read family with
  | .ok entry => entry
  | .error _ => none

/-- What the item adds to the problems of its directive. -/
def rejected? (family : Family) (item : Item) : Option Setting.Problem :=
  match item.read family with
  | .ok _ => none
  | .error problem => some problem

end Item

/-- The text writes the items in order, with separators before each of them and, if wanted, after
the last. -/
inductive Layout : List Item → List Char → Prop
  | done {gap : List Char} (hGap : ∀ c ∈ gap, isSeparator c) : Layout [] gap
  | item {gap text rest : List Char} {item : Item} {items : List Item}
    (hGap : ∀ c ∈ gap, isSeparator c)
    (hSome : gap ≠ []) (hText : item.Written text) (hRest : Layout items rest) :
    Layout (item :: items) (gap ++ (text ++ rest))

variable {cs gap rest text : List Char} {c : Char} {item : Item} {items : List Item}
  {family : Family}

/-! ## White space around colons -/

/-- The unfolding of `tightenColons` at one character. -/
theorem tightenColons_cons (c : Char) (rest : List Char) : tightenColons (c :: rest) =
    if c = ':' then ':' :: (tightenColons rest).dropWhile Text.isBlank
    else if Text.isBlank c && (tightenColons rest).head? == some ':' then tightenColons rest
    else c :: tightenColons rest := rfl

theorem ne_colon_of_isSeparator (h : isSeparator c) : c ≠ ':' := by
  rintro rfl
  cases h

theorem isSeparator_of_isBlank (h : Text.isBlank c) : isSeparator c := by
  rw [isSeparator, h, Bool.or_true]

/-- Any character but a colon is kept, unless it is white space before a colon. -/
theorem tightenColons_keep (hColon : c ≠ ':')
    (hNext : Text.isBlank c = false ∨ (tightenColons rest).head? ≠ some ':') :
    tightenColons (c :: rest) = c :: tightenColons rest := by
  rw [tightenColons_cons, if_neg hColon]
  refine if_neg fun hDropped => ?_
  obtain ⟨hBlank, hHead⟩ := Bool.and_eq_true_iff.mp hDropped
  rcases hNext with hNone | hOther
  · rw [hBlank] at hNone
    cases hNone
  · exact hOther (beq_iff_eq.mp hHead)

/-- A text without colons and white space is kept. -/
theorem tightenColons_solid (h : ∀ c ∈ cs, c ≠ ':' ∧ Text.isBlank c = false) :
    tightenColons (cs ++ rest) = cs ++ tightenColons rest := by
  induction cs with
  | nil => rfl
  | cons c cs ih =>
    obtain ⟨⟨hColon, hBlank⟩, hRest⟩ := List.forall_mem_cons.mp h
    rw [List.cons_append, tightenColons_keep hColon (.inl hBlank), ih hRest, List.cons_append]

/-- A text without colons is kept if no colon comes after it. -/
theorem tightenColons_append (h : ∀ c ∈ cs, c ≠ ':')
    (hEnd : (tightenColons rest).head? ≠ some ':') :
    tightenColons (cs ++ rest) = cs ++ tightenColons rest := by
  induction cs with
  | nil => rfl
  | cons c cs ih =>
    obtain ⟨hColon, hRest⟩ := List.forall_mem_cons.mp h
    have hNext : (tightenColons (cs ++ rest)).head? ≠ some ':' := by
      rw [ih hRest]
      cases cs with
      | nil => exact hEnd
      | cons d cs => exact fun hHead => hRest d (List.mem_cons_self ..) (Option.some.inj hHead)
    rw [List.cons_append, tightenColons_keep hColon (.inr hNext), ih hRest, List.cons_append]

/-- White space before a colon is dropped. -/
theorem tightenColons_before (h : ∀ c ∈ cs, Text.isBlank c) :
    tightenColons (cs ++ ':' :: rest) = tightenColons (':' :: rest) := by
  induction cs with
  | nil => rfl
  | cons c cs ih =>
    obtain ⟨hBlank, hRest⟩ := List.forall_mem_cons.mp h
    have hColon := ne_colon_of_isSeparator (isSeparator_of_isBlank hBlank)
    have hHead : (tightenColons (':' :: rest)).head? == some ':' := rfl
    rw [List.cons_append, tightenColons_cons, if_neg hColon, ih hRest, hBlank, hHead]
    rfl

/-- What the characters of a key or a value are not. -/
theorem not_special_of_isPlain {text : String} (h : isPlain text) :
    ∀ c ∈ text.toList, isSeparator c = false ∧ c ≠ ':' := by
  intro c hc
  have hChar := List.all_eq_true.mp (Bool.and_eq_true_iff.mp h).2 c hc
  simpa using hChar

/-- A plain text is not empty. -/
theorem ne_nil_of_isPlain {text : String} (h : isPlain text) : text.toList ≠ [] := by
  have hSome := (Bool.and_eq_true_iff.mp h).1
  simpa using hSome

/-- A plain text has neither colons nor white space. -/
theorem solid_of_isPlain {text : String} (h : isPlain text) :
    ∀ c ∈ text.toList, c ≠ ':' ∧ Text.isBlank c = false := by
  intro c hc
  obtain ⟨hSeparator, hColon⟩ := not_special_of_isPlain h c hc
  refine ⟨hColon, Bool.eq_false_iff.mpr fun hBlank => ?_⟩
  rw [isSeparator_of_isBlank hBlank] at hSeparator
  cases hSeparator

/-- An item as written loses the white space around its colon, what follows it does not. -/
theorem tightenColons_written (h : item.Written text) (rest : List Char) :
    tightenColons (text ++ rest) = item.text ++ tightenColons rest := by
  unfold Item.Written at h
  unfold Item.text
  have hKey := solid_of_isPlain item.plain
  cases hValue : item.value with
  | none =>
    rw [hValue] at h
    rw [show text = item.key.toList from h, tightenColons_solid hKey]
  | some value =>
    rw [hValue] at h
    obtain ⟨before, after, hBefore, hAfter, rfl⟩ := h
    have hPlain : isPlain value := by
      have hAll := item.valuePlain
      rwa [hValue] at hAll
    obtain ⟨d, tail, hCons⟩ := List.exists_cons_of_ne_nil (ne_nil_of_isPlain hPlain)
    have hValueKept : tightenColons (value.toList ++ rest) = value.toList ++ tightenColons rest :=
      tightenColons_solid (solid_of_isPlain hPlain)
    obtain ⟨hColon, hBlank⟩ := solid_of_isPlain hPlain d (hCons ▸ List.mem_cons_self ..)
    have hAfterKept : tightenColons (after ++ (value.toList ++ rest)) =
        after ++ (value.toList ++ tightenColons rest) := by
      refine (tightenColons_append ?_ ?_).trans (by rw [hValueKept])
      · exact fun c hc => ne_colon_of_isSeparator (isSeparator_of_isBlank (hAfter c hc))
      · rw [hValueKept, hCons]
        exact fun hHead => hColon (Option.some.inj hHead)
    -- the white space after the colon is still there when the colon is reached, and goes then
    have hDropped : (after ++ (value.toList ++ tightenColons rest)).dropWhile Text.isBlank =
        value.toList ++ tightenColons rest := by
      rw [List.dropWhile_append_of_pos hAfter, hCons]
      exact List.dropWhile_cons_of_neg (Bool.eq_false_iff.mp hBlank)
    simp only [List.append_assoc, List.cons_append]
    rw [tightenColons_solid hKey, tightenColons_before hBefore, tightenColons_cons,
      if_pos rfl, hAfterKept, hDropped]

/-! ## Separators -/

theorem pieces_separator (h : isSeparator c) (rest : List Char) :
    pieces (c :: rest) = [] :: pieces rest := if_pos h

/-- A character that separates nothing is put in front of the first piece. -/
theorem pieces_cons (h : ¬isSeparator c) (rest : List Char) :
    pieces (c :: rest) = (c :: (pieces rest).head?.getD []) :: (pieces rest).tail := by
  refine (if_neg h).trans ?_
  unfold pieces
  generalize List.foldr _ _ rest = parts
  cases parts <;> rfl

/-- A text without separators belongs to one piece. -/
theorem pieces_append {part : List Char} {parts : List (List Char)}
    (hRest : pieces rest = part :: parts)
    (h : ∀ c ∈ cs, isSeparator c = false) : pieces (cs ++ rest) = (cs ++ part) :: parts := by
  induction cs with
  | nil => exact hRest
  | cons c cs ih =>
    obtain ⟨hFirst, hOthers⟩ := List.forall_mem_cons.mp h
    rw [List.cons_append, pieces_cons (Bool.eq_false_iff.mp hFirst), ih hOthers]
    rfl

/-- The pieces that are not empty. -/
def solidPieces (cs : List Char) : List (List Char) := (pieces cs).filter (!·.isEmpty)

/-- Separators in front add no piece. -/
theorem solidPieces_gap (h : ∀ c ∈ gap, isSeparator c) (rest : List Char) :
    solidPieces (gap ++ rest) = solidPieces rest := by
  induction gap with
  | nil => rfl
  | cons c gap ih =>
    obtain ⟨hFirst, hOthers⟩ := List.forall_mem_cons.mp h
    rw [List.cons_append, solidPieces, pieces_separator hFirst]
    exact ih hOthers

/-- A text before a separator or the end is a piece of its own. -/
theorem solidPieces_append (hSome : cs ≠ []) (h : ∀ c ∈ cs, isSeparator c = false)
    (hRest : rest.head?.all isSeparator) : solidPieces (cs ++ rest) = cs :: solidPieces rest := by
  have hKept : (!cs.isEmpty) = true := by simpa using hSome
  cases rest with
  | nil =>
    have hEmpty : pieces [] = [] :: [] := rfl
    rw [solidPieces, pieces_append hEmpty h, List.append_nil, List.filter_cons, if_pos hKept]
    rfl
  | cons d rest =>
    have hSeparator : isSeparator d := hRest
    rw [solidPieces, pieces_append (pieces_separator hSeparator rest) h, List.append_nil,
      List.filter_cons, if_pos hKept, solidPieces, pieces_separator hSeparator]
    rfl

/-! ## Items -/

/-- The text of an item is one piece. -/
theorem Item.text_solid (item : Item) :
    item.text ≠ [] ∧ ∀ c ∈ item.text, isSeparator c = false := by
  have hKey := not_special_of_isPlain item.plain
  have hSome := ne_nil_of_isPlain item.plain
  unfold text
  cases hValue : item.value with
  | none => exact ⟨hSome, fun c hc => (hKey c hc).1⟩
  | some value =>
    have hPlain : isPlain value := by
      have hAll := item.valuePlain
      rwa [hValue] at hAll
    refine ⟨fun hNil => hSome (List.append_eq_nil_iff.mp hNil).1, fun c hc => ?_⟩
    rcases List.mem_append.mp hc with hHere | hThere
    · exact (hKey c hHere).1
    · rcases List.mem_cons.mp hThere with rfl | hLast
      · rfl
      · exact (not_special_of_isPlain hPlain c hLast).1

/-- An item starts with its key. -/
theorem Item.head_text (item : Item) : item.text.head? ≠ some ':' := by
  obtain ⟨c, tail, hCons⟩ := List.exists_cons_of_ne_nil (ne_nil_of_isPlain item.plain)
  have hColon := (not_special_of_isPlain item.plain c (hCons ▸ List.mem_cons_self ..)).2
  unfold text
  rw [hCons]
  cases item.value <;> exact fun hHead => hColon (Option.some.inj hHead)

/-- An item's text splits into its key and its value. -/
theorem splitItem_text (item : Item) : splitItem item.text = (item.key, item.value) := by
  -- no character of the key is a colon, so the first colon is the one behind it
  have hKey : ∀ c ∈ item.key.toList, decide (c ≠ ':') = true :=
    fun c hc => decide_eq_true (not_special_of_isPlain item.plain c hc).2
  have hTake (l : List Char) :
      (item.key.toList ++ l).takeWhile (· ≠ ':') = item.key.toList ++ l.takeWhile (· ≠ ':') :=
    List.takeWhile_append_of_pos hKey
  have hDrop (l : List Char) : (item.key.toList ++ l).dropWhile (· ≠ ':') = l.dropWhile (· ≠ ':') :=
    List.dropWhile_append_of_pos hKey
  unfold Item.text splitItem
  cases hValue : item.value with
  | none =>
    have hWhole := hTake []
    have hNothing := hDrop []
    rw [List.append_nil] at hWhole hNothing
    dsimp only
    rw [hWhole, hNothing, List.takeWhile_nil, List.append_nil, String.ofList_toList]
    rfl
  | some value =>
    have hStop : (':' :: value.toList).takeWhile (· ≠ ':') = [] := rfl
    have hLeft : (':' :: value.toList).dropWhile (· ≠ ':') = ':' :: value.toList := rfl
    dsimp only
    rw [hTake, hDrop, hStop, hLeft, List.append_nil, String.ofList_toList]
    exact congrArg (item.key, some ·) String.ofList_toList

/-- An item's text reads as the item. -/
theorem readItem_text (family : Family) (item : Item) :
    readItem family item.text = item.read family := by
  unfold readItem
  rw [splitItem_text]
  rfl

/-- By induction on the layout: what is left of a gap keeps the items apart. -/
theorem items_layout (h : Layout items rest) :
    (tightenColons rest).head?.all isSeparator ∧ solidPieces (tightenColons rest) =
    items.map Item.text := by
  have hGapHead {gap : List Char} (hGap : ∀ c ∈ gap, isSeparator c) :
      gap.head?.all isSeparator := by
    cases gap with
    | nil => rfl
    | cons c gap => exact hGap c (List.mem_cons_self ..)
  have hGapKept {gap rest : List Char} (hGap : ∀ c ∈ gap, isSeparator c)
      (hEnd : (tightenColons rest).head? ≠ some ':') :
        tightenColons (gap ++ rest) = gap ++ tightenColons rest :=
    tightenColons_append (fun c hc => ne_colon_of_isSeparator (hGap c hc)) hEnd
  -- on the layout: separators at the end, or separators, an item and the rest
  induction h with
  | @done gap hGap =>
    have hKept : tightenColons (gap ++ []) = gap ++ tightenColons [] := hGapKept hGap nofun
    have hPieces := solidPieces_gap hGap []
    rw [List.append_nil] at hKept hPieces
    rw [hKept, show tightenColons [] = [] from rfl, List.append_nil, hPieces]
    exact ⟨hGapHead hGap, rfl⟩
  | @item gap text rest item items hGap hSome hText hRest ih =>
    obtain ⟨hApart, hItems⟩ := ih
    obtain ⟨hNonempty, hSolid⟩ := item.text_solid
    have hWritten := tightenColons_written hText rest
    have hEnd : (tightenColons (text ++ rest)).head? ≠ some ':' := by
      obtain ⟨c, tail, hCons⟩ := List.exists_cons_of_ne_nil hNonempty
      have hHead := item.head_text
      rw [hCons] at hHead
      rw [hWritten, hCons]
      exact hHead
    -- at least one separator stands in front of an item
    obtain ⟨c, gap, rfl⟩ := List.exists_cons_of_ne_nil hSome
    rw [hGapKept hGap hEnd, hWritten, solidPieces_gap hGap,
      solidPieces_append hNonempty hSolid hApart, hItems]
    exact ⟨hGap c (List.mem_cons_self ..), rfl⟩

/-! ## Directives -/

/-- By induction on the items. -/
theorem foldl_addItem (d : Directive) (items : List Item) :
    (items.map Item.text).foldl addItem d = { d with
      entries := d.entries ++ items.filterMap (·.accepted? d.family)
      problems := d.problems ++ items.filterMap (·.rejected? d.family) } := by
  induction items generalizing d with
  | nil => simp
  | cons item items ih =>
    have hStep : addItem d item.text = { d with
        entries := d.entries ++ (item.accepted? d.family).toList
        problems := d.problems ++ (item.rejected? d.family).toList } := by
      unfold addItem Item.accepted? Item.rejected?
      rw [readItem_text]
      cases item.read d.family with
      | ok entry => cases entry <;> simp
      | error problem => simp
    rw [List.map_cons, List.foldl_cons, ih, hStep, List.filterMap_cons, List.filterMap_cons]
    dsimp only
    cases item.accepted? d.family <;> cases item.rejected? d.family <;> simp

/-- White space is no letter. -/
theorem not_isAlpha_of_isBlank (h : Text.isBlank c) : c.isAlpha = false := by
  refine Bool.eq_false_iff.mpr fun hAlpha => ?_
  have hCode : 65 ≤ c.toNat ∧ c.toNat ≤ 90 ∨ 97 ≤ c.toNat ∧ c.toNat ≤ 122 := by
    rcases Bool.or_eq_true_iff.mp hAlpha with hUpper | hLower
    · have hRange : 'A'.val ≤ c.val ∧ c.val ≤ 'Z'.val := of_decide_eq_true hUpper
      exact .inl hRange
    · obtain ⟨hFrom, hTo⟩ : decide ('a'.val ≤ c.val) = true ∧ decide (c.val ≤ 'z'.val) = true :=
        Bool.and_eq_true_iff.mp hLower
      exact .inr ⟨of_decide_eq_true hFrom, of_decide_eq_true hTo⟩
  have hSmall : c.toNat < 0x80 := by omega
  rw [Text.isBlank, if_pos hSmall] at h
  simp only [Bool.or_eq_true, Bool.and_eq_true, decide_eq_true_eq, beq_iff_eq] at h
  omega

/-- The words of directives are made of letters. -/
theorem letters_of_family {word : String} (h : Family.ofWord? word = some family) :
    word.toList ≠ [] ∧ ∀ c ∈ word.toList, c.isAlpha ∧ Text.isBlank c = false := by
  have hWord : word ∈ ["jshint", "jslint", "global", "globals", "exported"] := by
    simp only [Family.ofWord?, Bool.or_eq_true, decide_eq_true_eq] at h
    split at h
    · next hEither => rcases hEither with rfl | rfl <;> decide
    · split at h
      · next hEither => rcases hEither with rfl | rfl <;> decide
      · split at h
        · next hExported => subst hExported; decide
        · cases h
  have hAll : isPlain word && word.toList.all (fun c => c.isAlpha && !Text.isBlank c) := by
    simp only [List.mem_cons, List.not_mem_nil, or_false] at hWord
    rcases hWord with rfl | rfl | rfl | rfl | rfl <;> rfl
  obtain ⟨hPlain, hLetters⟩ := Bool.and_eq_true_iff.mp hAll
  refine ⟨ne_nil_of_isPlain hPlain, fun c hc => ?_⟩
  simpa using List.all_eq_true.mp hLetters c hc

/-- The only item of an options directive without a result is a code that is not to be ignored. -/
theorem optionItem_none {key : String} {value : Option String} :
    optionItem key value = .ok none ↔ (Setting.ignoredCode? key).isSome ∧ value = some "false" := by
  unfold optionItem
  cases Setting.ignoredCode? key with
  | some code =>
    dsimp only
    split <;> simp_all
  | none =>
    simp only [Option.isSome_none, Bool.false_eq_true, false_and, iff_false]
    split
    · split <;> nofun
    · split
      · nofun
      · split
        · nofun
        · split <;> nofun

/-- A global is never passed over in silence. -/
theorem globalItem_none {key : String} {value : Option String} :
    globalItem key value ≠ .ok none := by
  unfold globalItem
  split
  · nofun
  · split <;> nofun

/-- An item adds to one list at most, and to neither only if it is a code that is not to be
ignored. -/
theorem Item.contributes (family : Family) (item : Item) :
    (item.accepted? family = none ∨ item.rejected? family = none) ∧
    (item.accepted? family = none ∧ item.rejected? family = none ↔
      family = .options ∧ (Setting.ignoredCode? item.key).isSome ∧ item.value = some "false") := by
  have hSilent : item.accepted? family = none ∧ item.rejected? family = none ↔ item.read family =
      .ok none := by
    unfold accepted? rejected?
    cases item.read family with
    | ok entry => simp
    | error problem => simp
  refine ⟨?_, hSilent.trans ?_⟩
  · unfold accepted? rejected?
    cases item.read family with
    | ok entry => exact .inr rfl
    | error problem => exact .inl rfl
  · unfold read
    cases family with
    | options =>
      exact ⟨fun hNone => ⟨rfl, optionItem_none.mp hNone⟩, fun h => optionItem_none.mpr h.2⟩
    | globals => exact iff_of_false globalItem_none nofun
    | exported => exact iff_of_false nofun nofun

/-- The directive of a comment that writes a word, white space and items, in whatever layout. Its
entries and its problems are the results of the items in their order; an item is in one of the two,
unless it is a code that is not to be ignored. -/
theorem ofComment_layout (word : String) (family : Family)
    (hWord : Family.ofWord? word = some family)
    (blanks rest : List Char) (hBlanks : ∀ c ∈ blanks, Text.isBlank c)
    (hStart : rest.head?.all Text.isBlank) (items : List Item) (hLayout : Layout items rest) :
    ofComment? (String.ofList (blanks ++ (word.toList ++ rest))) = some {
      family
      entries := items.filterMap (·.accepted? family)
      problems := items.filterMap (·.rejected? family) } ∧
    ∀ item ∈ items, (item.accepted? family = none ∨ item.rejected? family = none) ∧
      (item.accepted? family = none ∧ item.rejected? family = none ↔
        family = .options ∧ (Setting.ignoredCode? item.key).isSome ∧ item.value =
          some "false") := by
  refine ⟨?_, fun item _ => item.contributes family⟩
  obtain ⟨hSome, hLetters⟩ := letters_of_family hWord
  have hText : Text.trimLeft (blanks ++ (word.toList ++ rest)) = word.toList ++ rest := by
    obtain ⟨c, tail, hCons⟩ := List.exists_cons_of_ne_nil hSome
    have hFirst := (hLetters c (hCons ▸ List.mem_cons_self ..)).2
    rw [Text.trimLeft, List.dropWhile_append_of_pos hBlanks, hCons]
    exact List.dropWhile_cons_of_neg (Bool.eq_false_iff.mp hFirst)
  have hAlpha : ∀ c ∈ word.toList, c.isAlpha := fun c hc => (hLetters c hc).1
  have hBreak : rest.takeWhile Char.isAlpha = [] ∧ rest.dropWhile Char.isAlpha = rest := by
    cases rest with
    | nil => exact ⟨rfl, rfl⟩
    | cons c rest =>
      have hNo : ¬c.isAlpha = true := Bool.eq_false_iff.mp (not_isAlpha_of_isBlank hStart)
      exact ⟨List.takeWhile_cons_of_neg hNo, List.dropWhile_cons_of_neg hNo⟩
  have hItems : Directive.items rest = items.map Item.text := (items_layout hLayout).2
  unfold ofComment?
  rw [String.toList_ofList, hText]
  dsimp only
  rw [List.takeWhile_append_of_pos hAlpha, List.dropWhile_append_of_pos hAlpha, hBreak.1, hBreak.2,
    if_pos hStart,
    List.append_nil, String.ofList_toList, hWord, Option.map_some, hItems, foldl_addItem]
  rfl

/-- Three items with wide gaps, the second of them a code that is not to be ignored. -/
theorem ofComment_layout_options :
    let curly : Item := { key := "curly", value := some "true" }
    let heeded : Item := { key := "-W033", value := some "false" }
    let unknown : Item := { key := "nosuch" }
    let last := [' '] ++ ("nosuch".toList ++ [','])
    let middle :=
      [',', '\u2003'] ++ (("-W033".toList ++ ([] ++ ':' :: ([] ++ "false".toList))) ++ last)
    let rest :=
      ['\n'] ++ (("curly".toList ++ (['\t'] ++ ':' :: ([' '] ++ "true".toList))) ++ middle)
    Family.ofWord? "jshint" = some .options ∧
      (∀ c ∈ [' '], Text.isBlank c) ∧ rest.head?.all Text.isBlank ∧
      Layout [curly, heeded, unknown] rest ∧
      ofComment? (String.ofList ([' '] ++ ("jshint".toList ++ rest))) =
        some ⟨.options, [.setOption .curly (.flag true)], [.unknownOption "nosuch"]⟩ := by
  intro curly heeded unknown last middle rest
  have hLast : Layout [unknown] last :=
    .item (List.all_eq_true.mp rfl) (List.cons_ne_nil _ _) rfl (.done (List.all_eq_true.mp rfl))
  have hMiddle : Layout [heeded, unknown] middle :=
    .item (List.all_eq_true.mp rfl) (List.cons_ne_nil _ _) ⟨[], [], nofun, nofun, rfl⟩ hLast
  have hLayout : Layout [curly, heeded, unknown] rest :=
    .item (List.all_eq_true.mp rfl) (List.cons_ne_nil _ _)
      ⟨['\t'], [' '], List.all_eq_true.mp rfl, List.all_eq_true.mp rfl, rfl⟩ hMiddle
  have hBlanks : ∀ c ∈ [' '], Text.isBlank c := List.all_eq_true.mp rfl
  obtain ⟨hDirective, -⟩ := ofComment_layout "jshint" .options rfl [' '] rest hBlanks rfl _ hLayout
  refine ⟨rfl, hBlanks, rfl, hLayout, hDirective.trans ?_⟩
  decide +kernel

end ScriptLint.Directive
