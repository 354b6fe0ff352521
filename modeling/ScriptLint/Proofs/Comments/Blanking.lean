import ScriptLint.Lint
import ScriptLint.Proofs.Lexer.Positions

/-!
# Sources without their comments

A comment that is no directive is for the reader of a program only. `blankComments` puts a space in
the place of each of its characters; line ends stay, and so do all places in the source.

- `inComment`, `blankComments`: the characters of comments, and a source without them.
- `NoBareSlash`: a source in which a slash neither divides nor starts a regular expression.
- `Lexer.covers_iff`, `Lexer.inComment_eq`: the tokens of a source by the steps of the lexer.
- `skeleton`: what the places in a text and the lengths of its lines depend on.
-/

namespace ScriptLint

/-- Whether the token takes in the character at the offset. -/
def Token.covers (t : Token) (offset : Nat) : Bool :=
  t.offset ≤ offset && offset < t.offset + t.raw.length

/-- Whether the kind is a comment that is no directive. -/
def TokenKind.isComment : TokenKind → Bool
  | comment _ => true
  | _ => false

/-- Whether a slash in the text of such a token means nothing by itself. -/
def TokenKind.hidesSlash : TokenKind → Bool
  | string _ | template _ _ | comment _ | directive _ => true
  | _ => false

/-- The token of a result; an error may have one to go on with. -/
def Lexer.token? : Lexer.Result → Option Token
  | .ok t => some t
  | .error e => e.recovered

/-- The tokens of a source, with its comments. -/
def Lexer.tokensOf (source : String) : List Token :=
  (Lexer.ofSource source).results.filterMap token?

/-- Whether the character at the offset belongs to a comment that is no directive. -/
def inComment (source : String) (offset : Nat) : Bool :=
  (Lexer.tokensOf source).any fun t => t.kind.isComment && t.covers offset

/-- The source with a space for every character of its comments, directives apart, that ends no
line. -/
def blankComments (source : String) : String :=
  String.ofList (source.toList.mapIdx fun offset c =>
    if inComment source offset && !Text.isLineTerminator c then ' ' else c)

/-- Every slash belongs to a comment, a string, the text of a template or the line that names an
interpreter. A comment that is not closed is no token. -/
def NoBareSlash (source : String) : Prop :=
  ∀ offset < source.length, source.toList[offset]? = some '/' →
    offset < (Lexer.ofSource source).offset ∨
      ∃ t ∈ Lexer.tokensOf source, t.kind.hidesSlash ∧ t.covers offset

instance (source : String) : Decidable (NoBareSlash source) :=
  inferInstanceAs (Decidable (∀ offset < source.length, source.toList[offset]? = some '/' →
    offset < (Lexer.ofSource source).offset ∨
      ∃ t ∈ Lexer.tokensOf source, t.kind.hidesSlash ∧ t.covers offset))

/-! ## Line ends -/

/-- A line end, or a space in the place of any other character. -/
def keepBreak (c : Char) : Char := if Text.isLineTerminator c then c else ' '

/-- A text of which only the line ends are left. -/
def skeleton (text : List Char) : List Char := text.map keepBreak

/-- Each character stays or becomes a blank, in its place. -/
theorem getElem?_blankComments (source : String) (offset : Nat) :
    (blankComments source).toList[offset]? = source.toList[offset]?.map fun c =>
      if inComment source offset && !Text.isLineTerminator c then ' ' else c := by
  rw [blankComments, String.toList_ofList, List.getElem?_mapIdx]

/-- So the text stays as long. -/
theorem length_blankComments (source : String) :
    (blankComments source).toList.length = source.toList.length := by
  rw [blankComments, String.toList_ofList, List.length_mapIdx]

/-- Outside comments the source stays as it is. -/
theorem getElem?_of_outside {source : String} {offset : Nat} (h : inComment source offset = false) :
    (blankComments source).toList[offset]? = source.toList[offset]? := by
  rw [getElem?_blankComments, h]
  exact Option.map_id'

/-- The line ends stay where they are. -/
theorem skeleton_blankComments (source : String) :
    skeleton (blankComments source).toList = skeleton source.toList := by
  refine List.ext_getElem? fun offset => ?_
  rw [skeleton, skeleton, List.getElem?_map, List.getElem?_map, getElem?_blankComments]
  cases source.toList[offset]? with
  | none => rfl
  | some c =>
    rw [Option.map_some, Option.map_some, Option.map_some]
    split
    · next hBlank =>
      rw [Bool.and_eq_true, Bool.not_eq_true'] at hBlank
      rw [keepBreak, keepBreak, hBlank.2]
      rfl
    · rfl

/-- What is kept of a character ends a line if the character does. -/
theorem isLineTerminator_keepBreak (c : Char) :
    Text.isLineTerminator (keepBreak c) = Text.isLineTerminator c := by
  unfold keepBreak
  split
  · rfl
  · next hOther =>
    rw [Bool.eq_false_iff.mpr hOther]
    rfl

/-- A line terminator is kept as itself. -/
theorem keepBreak_beq {d : Char} (hd : Text.isLineTerminator d) (c : Char) :
    (keepBreak c == d) = (c == d) := by
  have hOther {e : Char} (he : ¬Text.isLineTerminator e = true) : (e == d) = false :=
    beq_eq_false_iff_ne.mpr fun hEq => he (hEq ▸ hd)
  unfold keepBreak
  split
  · rfl
  · next hc => rw [hOther hc, hOther (by decide)]

/-- Whether a line ends at an offset can be seen in the skeleton. -/
theorem breaksAt_skeleton (text : List Char) (offset : Nat) :
    breaksAt (skeleton text) offset = breaksAt text offset := by
  have hFollows :
      (text[offset + 1]?.map keepBreak == some '\n') = (text[offset + 1]? == some '\n') := by
    cases text[offset + 1]? with
    | none => rfl
    | some c => exact keepBreak_beq rfl c
  rw [breaksAt, breaksAt, skeleton, List.getElem?_map, List.getElem?_map, hFollows]
  cases text[offset]? with
  | none => rfl
  | some c =>
    rw [Option.map_some, Option.any_some, Option.any_some, isLineTerminator_keepBreak,
      keepBreak_beq rfl]

/-- Places in the source stay where they are. -/
theorem within_blankComments (source : String) (offset : Nat) :
    Position.within (blankComments source).toList offset = .within source.toList offset := by
  have hBreaks : breaksAt (blankComments source).toList = breaksAt source.toList := by
    funext i
    rw [← breaksAt_skeleton, skeleton_blankComments, breaksAt_skeleton]
  rw [Position.within, Position.within, hBreaks]

/-- As many lines end between two offsets. -/
theorem lineEndsWithin_blankComments (source : String) (start stop : Nat) :
    lineEndsWithin (blankComments source).toList start stop =
      lineEndsWithin source.toList start stop := by
  have hSkeleton (text : List Char) :
      lineEndsWithin (skeleton text) start stop = lineEndsWithin text start stop := by
    have hBreaks : Text.isLineTerminator ∘ keepBreak = Text.isLineTerminator :=
      funext isLineTerminator_keepBreak
    rw [lineEndsWithin, skeleton, ← List.map_take, ← List.map_drop, List.any_map, hBreaks]
    rfl
  rw [← hSkeleton, skeleton_blankComments, hSkeleton]

/-- By induction on the text. -/
theorem splitOnP_map {α β : Type} (f : α → β) (p : β → Bool) (l : List α) :
    (l.map f).splitOnP p = (l.splitOnP (p ∘ f)).map (·.map f) := by
  induction l with
  | nil => rfl
  | cons a l ih =>
    rw [List.map_cons, List.splitOnP_cons_eq_if_modifyHead,
      List.splitOnP_cons_eq_if_modifyHead, ih]
    simp only [Function.comp]
    split
    · rfl
    · cases l.splitOnP (p ∘ f) with
      | nil => rfl
      | cons first others => rfl

/-- Lines stay as long as they are. -/
theorem measureLines_blankComments (source : String) :
    measureLines (blankComments source) = measureLines source := by
  have hSkeleton (text : List Char) :
      ((skeleton text).splitOnP (· == '\n')).map
        (fun line => (line.reverse.dropWhile (· == '\r')).length) =
        (text.splitOnP (· == '\n')).map fun line =>
          (line.reverse.dropWhile (· == '\r')).length := by
    have hFeed : (· == '\n') ∘ keepBreak = (· == '\n') := funext (keepBreak_beq rfl)
    have hReturn : (· == '\r') ∘ keepBreak = (· == '\r') := funext (keepBreak_beq rfl)
    rw [skeleton, splitOnP_map, hFeed, List.map_map]
    refine List.map_congr_left fun line _ => ?_
    show ((line.map keepBreak).reverse.dropWhile (· == '\r')).length = _
    rw [← List.map_reverse, List.dropWhile_map, List.length_map, hReturn]
  unfold measureLines
  rw [← hSkeleton, skeleton_blankComments, hSkeleton]

/-! ## What a token is -/

/-- A comment has a text and nothing else. -/
theorem TokenKind.exists_of_isComment {kind : TokenKind} (h : kind.isComment) :
    ∃ text, kind = comment text := by
  cases kind with
  | comment text => exact ⟨text, rfl⟩
  | _ => cases h

namespace Lexer

/-- The kind of the token that was recognised, comments included. -/
def Scan.kind? (s : Scan) : Option TokenKind :=
  match s.scanned with
  | .token kind => some kind
  | .failure _ _ recovered => recovered

/-- The kind of a token is that of what was scanned. -/
theorem token_read (l : Lexer) (s : Scan) : (token? (l.read s).1).map (·.kind) = s.kind? := by
  unfold read Scan.kind?
  cases s.scanned with
  | token kind => exact congrArg some (kind_finish ..)
  | failure problem offset recovered =>
    cases recovered with
    | none => rfl
    | some kind => exact congrArg some (kind_finish ..)

/-- The characters at the front are a comment, open or closed. -/
structure StartsComment (templates : List Nat) (c : Char) (rest : List Char) (s : Scan) : Prop where
  slash : c = '/'
  mark : rest.head? = some '/' ∨ rest.head? = some '*'
  length : 2 ≤ s.length
  templates : s.templates = templates
  kind : ∀ kind, s.kind? = some kind → kind.isTrivia

/-- A kind of token other than a comment. After a slash no slash is hidden in it. -/
structure OtherKind (c : Char) (kind : TokenKind) : Prop where
  counts : kind.isTrivia = false
  goesOn : kind ≠ .endOfInput
  shows : c = '/' → kind.hidesSlash = false

/-- A slash before a slash or an asterisk starts a comment. -/
theorem scan_comment (regexAllowed : Bool) (templates : List Nat) {rest : List Char}
    (h : rest.head? = some '/' ∨ rest.head? = some '*') :
    StartsComment templates '/' rest (scan regexAllowed templates '/' rest) := by
  have hKind {s : Scan} {body : List Char} (hs : s.scanned = .token (commentKind body)) :
      ∀ kind, s.kind? = some kind → kind.isTrivia := by
    rw [Scan.kind?, hs]
    rintro kind ⟨⟩
    exact commentKind_isTrivia body
  rcases h with hLine | hBlock
  · have hScan :
      scan regexAllowed templates '/' rest = scanLineComment templates (rest.drop 1) := by
      rw [scan, hLine]
      rfl
    rw [hScan]
    exact ⟨rfl, .inl hLine, Nat.le_add_left 2 _, rfl, hKind rfl⟩
  · have hScan :
      scan regexAllowed templates '/' rest = scanBlockComment templates (rest.drop 1) := by
      rw [scan, hBlock]
      rfl
    rw [hScan]
    unfold scanBlockComment
    dsimp only
    split
    · exact ⟨rfl, .inr hBlock, Nat.le_trans (by omega) (Nat.le_add_left 4 _), rfl, hKind rfl⟩
    · exact ⟨rfl, .inr hBlock, Nat.le_add_left 2 _, rfl, fun _ hNone => nomatch hNone⟩

/-- A piece of a template is no comment, whether it is complete or not. -/
theorem scanTemplate_other {c : Char} (hc : c ≠ '/') (templates : List Nat)
    (closed opened : TemplatePart)
    (body : List Char) : ∀ kind, (scanTemplate templates closed opened body).kind? = some kind →
      OtherKind c kind := by
  unfold scanTemplate
  dsimp only
  split
  all_goals
    rintro kind ⟨⟩
    exact ⟨rfl, TokenKind.noConfusion, fun h => absurd h hc⟩

/-- What starts with a slash is a comment, a regular expression or a division. -/
theorem scan_kind (regexAllowed : Bool) (templates : List Nat) (c : Char) (rest : List Char) :
    StartsComment templates c rest (scan regexAllowed templates c rest) ∨
      ∀ kind, (scan regexAllowed templates c rest).kind? = some kind → OtherKind c kind := by
  -- a comment starts with a slash and its second character; the other forms follow in the order of
  -- the scanner
  by_cases hStarts : c = '/' ∧ (rest.head? = some '/' ∨ rest.head? = some '*')
  · obtain ⟨rfl, hMark⟩ := hStarts
    exact .inl (scan_comment regexAllowed templates hMark)
  have hNone {d : Char} (hd : d = '/' ∨ d = '*') : ¬(c == '/' && rest.head? == some d) = true := by
    rw [Bool.and_eq_true, beq_iff_eq, beq_iff_eq]
    rintro ⟨hc, hHead⟩
    rcases hd with rfl | rfl
    · exact hStarts ⟨hc, .inl hHead⟩
    · exact hStarts ⟨hc, .inr hHead⟩
  refine .inr ?_
  rw [scan, if_neg (hNone (.inl rfl)), if_neg (hNone (.inr rfl))]
  split
  · unfold scanRegexp
    dsimp only
    split
    all_goals
      rintro kind ⟨⟩
      exact ⟨rfl, TokenKind.noConfusion, fun _ => rfl⟩
  split
  · next hMark =>
    obtain rfl : c = '\x60' := beq_iff_eq.mp hMark
    exact scanTemplate_other (by decide) templates _ _ rest
  split
  · next hMark =>
    obtain rfl : c = '\x7d' := beq_iff_eq.mp (Bool.and_eq_true_iff.mp hMark).1
    exact scanTemplate_other (by decide) _ _ _ rest
  split
  · next hQuote =>
    have hc : c ≠ '/' := by
      rintro rfl
      cases hQuote
    unfold scanString
    dsimp only
    split
    · rintro kind ⟨⟩
      exact ⟨rfl, TokenKind.noConfusion, fun h => absurd h hc⟩
    · split
      all_goals
        rintro kind ⟨⟩
        exact ⟨rfl, TokenKind.noConfusion, fun h => absurd h hc⟩
  split
  · unfold scanNumeric
    dsimp only
    split
    all_goals
      rintro kind ⟨⟩
      exact ⟨rfl, TokenKind.noConfusion, fun _ => rfl⟩
  split
  · have hWord (s : WordScan) : OtherKind c s.kind := by
      unfold WordScan.kind
      split
      · split
        · exact ⟨rfl, TokenKind.noConfusion, fun _ => rfl⟩
        · exact ⟨rfl, TokenKind.noConfusion, fun _ => rfl⟩
      · exact ⟨rfl, TokenKind.noConfusion, fun _ => rfl⟩
    unfold scanWord
    dsimp only
    split
    · intro kind hKind
      obtain ⟨-, hSome⟩ := Option.ite_none_left_eq_some.mp hKind
      obtain rfl := Option.some.inj hSome
      exact ⟨rfl, TokenKind.noConfusion, fun _ => rfl⟩
    · rintro kind ⟨⟩
      exact hWord _
  · unfold scanPunctuator
    split
    · rintro kind ⟨⟩
      exact ⟨rfl, TokenKind.noConfusion, fun _ => rfl⟩
    · exact fun _ hNone => nomatch hNone

/-- The input ends where the source does. -/
theorem rest_of_end {l : Lexer} (h : isEndOfInput l.next.1) : l.skipBlank.cursor.rest = [] := by
  cases hRest : l.skipBlank.cursor.rest with
  | nil => rfl
  | cons c rest =>
    obtain ⟨t, ht, hEnd⟩ := h
    rw [next_of_cons hRest] at ht
    have hKind :=
      token_read l.skipBlank (scan l.skipBlank.regexAllowed l.skipBlank.templates c rest)
    rw [ht, show (token? (.ok t)).map (·.kind) = some t.kind from rfl, hEnd] at hKind
    rcases scan_kind l.skipBlank.regexAllowed l.skipBlank.templates c rest with hComment | hOther
    · cases hComment.kind _ hKind.symm
    · exact absurd rfl (hOther _ hKind.symm).goesOn

/-! ## The tokens of a source -/

variable {source : String} {t : Token}

/-- White space lies before a token. -/
theorem offset_le_spanStart (source : String) (k : Nat) :
    (after source k).offset ≤ spanStart source k :=
  (follows_after source k).proceeds.skips

/-- A token does not end before it starts. -/
theorem spanStart_le_spanEnd (source : String) (k : Nat) : spanStart source k ≤ spanEnd source k :=
  skipBlank_le_next (follows_after source k)

/-- No token goes beyond the source. -/
theorem spanEnd_le_length (source : String) (k : Nat) : spanEnd source k ≤ source.toList.length :=
  (follows_after source (k + 1)).bound

/-- The lexer does not go back. -/
theorem offset_mono (source : String) {k m : Nat} (h : k ≤ m) :
    (after source k).offset ≤ (after source m).offset := by
  induction h with
  | refl => exact Nat.le_refl _
  | step _ ih => exact Nat.le_trans ih (offset_le_next (follows_after source _))

/-- A token takes in what the step that reads it takes in. -/
theorem covers_iff {k : Nat} (ht : token? (resultAt source k) = some t) (offset : Nat) :
    t.covers offset ↔ spanStart source k ≤ offset ∧ offset < spanEnd source k := by
  have hBound := spanEnd_le_length source k
  have hSpans : Spans source.toList (spanStart source k) (spanEnd source k) t := by
    have hResult := (follows_after source k).proceeds.spans
    rw [show (after source k).next.1 = resultAt source k from rfl] at hResult
    cases hr : resultAt source k with
    | ok u =>
      rw [hr] at ht hResult
      exact Option.some.inj ht ▸ hResult
    | error e =>
      rw [hr] at ht hResult
      exact hResult.2 t ht
  have hOffset : t.offset = spanStart source k := by
    rw [Token.offset, hSpans.place, Position.within]
  have hLength : t.raw.length = spanEnd source k - spanStart source k := by
    rw [← String.length_toList, hSpans.raw, slice, List.length_drop, List.length_take]
    omega
  rw [Token.covers, Bool.and_eq_true, decide_eq_true_iff, decide_eq_true_iff, hOffset, hLength]
  omega

/-- Only the token that a step reads takes in what the step takes in. -/
theorem eq_of_covers {k m offset : Nat} (ht : token? (resultAt source m) = some t)
    (hCovers : t.covers offset)
    (hFrom : (after source k).offset ≤ offset) (hTo : offset < spanEnd source k) : m = k := by
  obtain ⟨hStart, hEnd⟩ := (covers_iff ht offset).mp hCovers
  rcases Nat.lt_trichotomy m k with hLess | hEqual | hMore
  · have hBefore : spanEnd source m ≤ (after source k).offset := offset_mono source hLess
    omega
  · exact hEqual
  · have hBehind : spanEnd source k ≤ (after source m).offset := offset_mono source hMore
    have hSkips := offset_le_spanStart source m
    omega

/-- By induction on the steps that are left. -/
theorem exists_of_mem_go {r : Result} {n k : Nat} (h : r ∈ results.go n (after source k)) :
    ∃ m, resultAt source m = r := by
  induction n generalizing k with
  | zero => cases h
  | succ n ih =>
    have hRest (h : r ∈ results.go n (after source k).next.2) : ∃ m, resultAt source m = r :=
      ih (k := k + 1) h
    rw [results.go] at h
    split at h
    · next u after hNext =>
      have hHere : resultAt source k = .ok u := congrArg Prod.fst hNext
      rw [hNext] at hRest
      split at h
      · exact ⟨k, hHere.trans (List.mem_singleton.mp h).symm⟩
      · exact (List.mem_cons.mp h).elim (fun hr => ⟨k, hHere.trans hr.symm⟩) hRest
    · next e after hNext =>
      have hHere : resultAt source k = .error e := congrArg Prod.fst hNext
      rw [hNext] at hRest
      exact (List.mem_cons.mp h).elim (fun hr => ⟨k, hHere.trans hr.symm⟩) hRest

/-- By induction on the steps: what is read before the input ends is among the results. -/
theorem mem_go {n k m : Nat} (hSteps : k ≤ m) (hFuel : (after source k).remaining < n)
    (hGoesOn : ∀ j, k ≤ j → j < m → ¬isEndOfInput (resultAt source j)) :
    resultAt source m ∈ results.go n (after source k) := by
  induction n generalizing k with
  | zero => cases hFuel
  -- the fuel is more than what is left to read, which every result before the end makes less
  | succ n ih =>
    rcases Nat.eq_or_lt_of_le hSteps with rfl | hLater
    · rw [results.go]
      split
      · next u after hNext =>
        have hHere : resultAt source k = .ok u := congrArg Prod.fst hNext
        rw [hHere]
        split <;> exact List.mem_cons_self ..
      · next e after hNext =>
        have hHere : resultAt source k = .error e := congrArg Prod.fst hNext
        rw [hHere]
        exact List.mem_cons_self ..
    · have hHere := hGoesOn k (Nat.le_refl k) hLater
      have hLess : (after source (k + 1)).remaining < n := by
        rcases next_progress (after source k) with ⟨u, hu, hEnd, -⟩ | hLess
        · exact absurd ⟨u, hu, hEnd⟩ hHere
        · exact Nat.lt_of_lt_of_le hLess (Nat.le_of_lt_succ hFuel)
      have hRest : resultAt source m ∈ results.go n (after source k).next.2 :=
        ih (k := k + 1) hLater hLess fun j hj => hGoesOn j (Nat.le_of_succ_le hj)
      rw [results.go]
      split
      · next u after hNext =>
        have hGoes : ¬u.isEnd = true := by
          intro hEnd
          refine hHere ⟨u, congrArg Prod.fst hNext, ?_⟩
          unfold Token.isEnd at hEnd
          split at hEnd
          · assumption
          · cases hEnd
        rw [hNext] at hRest
        rw [if_neg hGoes]
        exact List.mem_cons_of_mem _ hRest
      · next e after hNext =>
        rw [hNext] at hRest
        exact List.mem_cons_of_mem _ hRest

/-- Every token of the source is a result of the lexer. -/
theorem exists_of_mem_tokensOf (h : t ∈ tokensOf source) :
    ∃ m, token? (resultAt source m) = some t := by
  obtain ⟨r, hr, ht⟩ := List.mem_filterMap.mp h
  obtain ⟨m, rfl⟩ := exists_of_mem_go (k := 0) hr
  exact ⟨m, ht⟩

/-- What a step reads before the end of the source is among its tokens. -/
theorem mem_tokensOf {k : Nat} (ht : token? (resultAt source k) = some t)
    (hBefore : (after source k).offset < source.toList.length) : t ∈ tokensOf source := by
  refine List.mem_filterMap.mpr ⟨resultAt source k, ?_, ht⟩
  refine mem_go (k := 0) (Nat.zero_le k) (Nat.lt_succ_self _) fun j _ hj hEnd => ?_
  -- the input does not end before the source does
  have hOver : spanStart source j = source.toList.length :=
    (follows_after source j).skipBlank.offset_of_nil (rest_of_end hEnd)
  have hStop : spanEnd source j ≤ (after source k).offset := offset_mono source hj
  have hSpan := spanStart_le_spanEnd source j
  omega

/-- Whether the result is a comment that is no directive. -/
def isComment : Result → Bool
  | .ok t => t.kind.isComment
  | .error _ => false

/-- What takes the place of malformed text is no comment. -/
theorem isComment_of_token {l : Lexer} (ht : token? l.next.1 = some t) (hKind : t.kind.isComment) :
    isComment l.next.1 := by
  cases hr : l.next.1 with
  | ok u =>
    rw [hr] at ht
    obtain rfl : u = t := Option.some.inj ht
    exact hKind
  -- a result that is an error may hold a recovered token, but never a comment
  | error e =>
    cases hRest : l.skipBlank.cursor.rest with
    | nil =>
      rw [next_of_nil hRest] at hr
      cases hr
    | cons c rest =>
      have hCounts := (scan_notices l.skipBlank.regexAllowed l.skipBlank.templates
        (unbroken_of_skipBlank hRest) rest).counts
      rw [next_of_cons hRest] at hr ht
      generalize scan l.skipBlank.regexAllowed l.skipBlank.templates c rest = s at hCounts hr ht
      have hSame : s.kind? = some t.kind := by
        rw [← token_read l.skipBlank s, ht]
        rfl
      unfold Scan.kind? at hSame
      unfold Scan.significant? at hCounts
      unfold read at hr
      cases hScanned : s.scanned with
      | token kind =>
        rw [hScanned] at hr
        cases hr
      | failure problem offset recovered =>
        rw [hScanned] at hSame hCounts
        obtain ⟨text, hText⟩ := TokenKind.exists_of_isComment hKind
        rw [hText] at hSame
        cases hCounts _ hSame

/-- Of what a step passes over and reads, the characters of a comment belong to one. -/
theorem inComment_eq {k offset : Nat} (hFrom : (after source k).offset ≤ offset)
    (hTo : offset < spanEnd source k) : inComment source offset =
      (isComment (resultAt source k) && decide (spanStart source k ≤ offset)) := by
  have hBound := spanEnd_le_length source k
  rw [Bool.eq_iff_iff, inComment, List.any_eq_true, Bool.and_eq_true, decide_eq_true_iff]
  constructor
  · rintro ⟨t, hMem, hToken⟩
    obtain ⟨hKind, hCovers⟩ := Bool.and_eq_true_iff.mp hToken
    obtain ⟨m, ht⟩ := exists_of_mem_tokensOf hMem
    obtain rfl := eq_of_covers ht hCovers hFrom hTo
    exact ⟨isComment_of_token ht hKind, ((covers_iff ht offset).mp hCovers).1⟩
  · rintro ⟨hComment, hStart⟩
    obtain ⟨t, ht, hKind⟩ : ∃ t, token? (resultAt source k) = some t ∧ t.kind.isComment := by
      cases hr : resultAt source k with
      | ok t =>
        rw [hr] at hComment
        exact ⟨t, rfl, hComment⟩
      | error e =>
        rw [hr] at hComment
        cases hComment
    refine ⟨t, mem_tokensOf ht (by omega), Bool.and_eq_true_iff.mpr ⟨hKind, ?_⟩⟩
    exact (covers_iff ht offset).mpr ⟨hStart, hTo⟩

end Lexer

end ScriptLint
