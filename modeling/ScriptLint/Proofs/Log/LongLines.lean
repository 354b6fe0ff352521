import ScriptLint.Proofs.Log.Strides

/-!
# Lines that are too long

Lines are measured once, before the run, and checked as the run gets past them: when a token is
consumed, the lines from its own up to that of the next one are. By then the directives between the
two tokens are carried out, so that all these lines are held to the limit that the last of the
directives leaves.

- `lineLengths`: the lengths of the lines of a text, as the lexer numbers them.
- `measureLines_eq_lineLengths_iff`: the lines that are measured are those exactly if they break at
  line feeds only, a carriage return before each of them or not.
- `longLines`: what is reported for lines under a limit.
- `Session.Measured`: the lines up to that of the current token are checked, and the others are not.
- `long_lines_checked`: which lines a change of a run checks, and what it reports for them.
- `Session.Gauged`: the lines that are checked by then, each with its limit.
- `long_lines_reported`: the long lines of a report are those of the source, in order, under these
  limits.
-/

namespace ScriptLint

open Parse Lexer

/-! ## The lengths of lines -/

/-- The length of the line with that number, without what breaks it. -/
def lineLength (text : List Char) (line : Nat) : Nat :=
  (List.range text.length).countP fun offset =>
    (Position.within text offset).line == line && !text[offset]?.any Text.isLineTerminator

/-- The lengths of the lines of a text, as the lexer numbers them. -/
def lineLengths (text : List Char) : List Nat :=
  (List.range (Position.within text text.length).line).map fun n => lineLength text (n + 1)

/-- Lines break at line feeds only, with a carriage return before them or not. -/
def BreaksAtFeeds (text : List Char) : Prop :=
  ∀ offset c, text[offset]? = some c → Text.isLineTerminator c →
    c = '\n' ∨ c = '\r' ∧ text[offset + 1]? = some '\n'

section

variable {c : Char} {rest : List Char}

/-- A text keeps its breaks when it loses its first character. -/
theorem BreaksAtFeeds.tail (h : BreaksAtFeeds (c :: rest)) : BreaksAtFeeds rest :=
  fun offset _ => h (offset + 1) _

/-- A line more behind a break. -/
theorem Position.line_within_cons (c : Char) (rest : List Char) (offset : Nat) :
    (within (c :: rest) (offset + 1)).line =
      (within rest offset).line + if breaksAt (c :: rest) 0 then 1 else 0 := by
  have hShift : breaksAt (c :: rest) ∘ Nat.succ = breaksAt rest := rfl
  show 1 + (List.range (offset + 1)).countP _ = 1 + (List.range offset).countP _ + _
  rw [List.range_succ_eq_map, List.countP_cons, List.countP_map, hShift, Nat.add_assoc]

/-- What the first character adds to the length of a line. -/
theorem lineLength_cons (c : Char) (rest : List Char) (line : Nat) :
    lineLength (c :: rest) line =
      ((List.range rest.length).countP fun offset =>
        (Position.within rest offset).line + (if breaksAt (c :: rest) 0 then 1 else 0) == line &&
          !rest[offset]?.any Text.isLineTerminator) +
      if 1 = line ∧ Text.isLineTerminator c = false then 1 else 0 := by
  rw [lineLength, List.length_cons, List.range_succ_eq_map, List.countP_cons, List.countP_map]
  congr 1
  · refine List.countP_congr fun offset _ => ?_
    rw [← Position.line_within_cons]
    rfl
  · have hFirst : (Position.within (c :: rest) 0).line = 1 := rfl
    simp [hFirst]

/-- Lines are numbered from one. -/
theorem Position.exists_line_within (text : List Char) (offset : Nat) :
    ∃ n, (within text offset).line = n + 1 :=
  ⟨_, Nat.add_comm 1 _⟩

/-- A break ends an empty line. -/
theorem lineLengths_of_break (h : breaksAt (c :: rest) 0 = true) :
    lineLengths (c :: rest) = 0 :: lineLengths rest := by
  have hTerminator : Text.isLineTerminator c = true := (Bool.and_eq_true_iff.mp h).1
  have hFirst : lineLength (c :: rest) 1 = 0 := by
    rw [lineLength_cons, if_pos h, hTerminator]
    refine Nat.add_eq_zero_iff.mpr ⟨List.countP_eq_zero.mpr fun offset _ => ?_, rfl⟩
    obtain ⟨n, hLine⟩ := Position.exists_line_within rest offset
    simp [hLine]
  have hLater (n : Nat) : lineLength (c :: rest) (n + 2) = lineLength rest (n + 1) := by
    rw [lineLength_cons, if_pos h, hTerminator, lineLength]
    simp
  rw [lineLengths, lineLengths, List.length_cons, Position.line_within_cons, if_pos h,
    List.range_succ_eq_map, List.map_cons, List.map_map, hFirst]
  exact congrArg (0 :: ·) (List.map_congr_left fun n _ => hLater n)

/-- A character that breaks no line makes the first one longer, unless it is part of a break. -/
theorem lineLengths_of_not_break (h : breaksAt (c :: rest) 0 = false) :
    lineLengths (c :: rest) =
      (lineLengths rest).modifyHead (· + if Text.isLineTerminator c = false then 1 else 0) := by
  have hLength (line : Nat) : lineLength (c :: rest) line =
      lineLength rest line + if 1 = line ∧ Text.isLineTerminator c = false then 1 else 0 := by
    rw [lineLength_cons, h, lineLength]
    rfl
  obtain ⟨n, hLine⟩ := Position.exists_line_within rest rest.length
  rw [lineLengths, lineLengths, List.length_cons, Position.line_within_cons, hLine, h,
    if_neg Bool.false_ne_true,
    Nat.add_zero, List.range_succ_eq_map, List.map_cons, List.map_cons, List.modifyHead_cons,
    List.map_map, List.map_map, hLength]
  have hLater : ((fun n => lineLength (c :: rest) (n + 1)) ∘ Nat.succ) =
      (fun n => lineLength rest (n + 1)) ∘ Nat.succ := by
    funext n
    simp [hLength]
  simp [hLater]

end

/-! ## Measured lines -/

/-- The lengths between line feeds, without carriage returns at their ends. -/
def feedLengths (text : List Char) : List Nat :=
  (text.splitOnP (· == '\n')).map fun line => (line.reverse.dropWhile (· == '\r')).length

/-- A line feed ends a line. -/
theorem feedLengths_feed (rest : List Char) :
    feedLengths ('\n' :: rest) = 0 :: feedLengths rest := by
  rw [feedLengths, List.splitOnP_cons_eq_if_modifyHead]
  rfl

/-- A carriage return before a line feed belongs to the end of the line. -/
theorem feedLengths_return_feed (rest : List Char) :
    feedLengths ('\r' :: '\n' :: rest) = feedLengths ('\n' :: rest) := by
  rw [feedLengths_feed, feedLengths, List.splitOnP_cons_eq_if_modifyHead,
    List.splitOnP_cons_eq_if_modifyHead]
  rfl

/-- Any other character makes its line longer by one. -/
theorem feedLengths_ordinary {c : Char} (rest : List Char) (hFeed : c ≠ '\n') (hReturn : c ≠ '\r') :
    feedLengths (c :: rest) = (feedLengths rest).modifyHead (· + 1) := by
  have hLine (line : List Char) : ((c :: line).reverse.dropWhile (· == '\r')).length =
      (line.reverse.dropWhile (· == '\r')).length + 1 := by
    rw [List.reverse_cons, List.dropWhile_append]
    split
    · next hEmpty => simp [List.isEmpty_iff.mp hEmpty, hReturn]
    · simp
  have hOther : ¬(c == '\n') = true := by simpa using hFeed
  rw [feedLengths, feedLengths, List.splitOnP_cons_eq_if_modifyHead, if_neg hOther]
  cases rest.splitOnP (· == '\n') with
  | nil => rfl
  | cons line others => exact congrArg (· :: _) (hLine line)

/-- By induction on the text. -/
theorem feedLengths_eq_lineLengths {text : List Char} (h : BreaksAtFeeds text) :
    feedLengths text = lineLengths text := by
  -- by induction on the text: both notions add a line, or a character, at the same places
  induction text with
  | nil => rfl
  | cons c rest ih =>
    have hRest := ih h.tail
    cases hTerminator : Text.isLineTerminator c with
    | true =>
      obtain rfl | ⟨rfl, hNext⟩ := h 0 c rfl hTerminator
      · rw [feedLengths_feed, hRest, lineLengths_of_break rfl]
      · -- the carriage return belongs to the break behind it
        obtain ⟨rest, rfl⟩ : ∃ others, rest = '\n' :: others := by
          cases rest with
          | nil => cases hNext
          | cons next others => exact ⟨others, congrArg (· :: others) (Option.some.inj hNext)⟩
        have hBreak : breaksAt ('\r' :: '\n' :: rest) 0 = false := rfl
        rw [feedLengths_return_feed, hRest, lineLengths_of_not_break hBreak, hTerminator]
        cases lineLengths ('\n' :: rest) <;> rfl
    | false =>
      have hFeed : c ≠ '\n' := by
        rintro rfl
        cases hTerminator
      have hReturn : c ≠ '\r' := by
        rintro rfl
        cases hTerminator
      have hBreak : breaksAt (c :: rest) 0 = false := by
        show (Text.isLineTerminator c && _) = false
        rw [hTerminator, Bool.false_and]
      rw [feedLengths_ordinary rest hFeed hReturn, hRest, lineLengths_of_not_break hBreak,
        if_pos hTerminator]

/-- Only line feeds make lines. -/
theorem length_feedLengths_of_ne {c : Char} (rest : List Char) (h : c ≠ '\n') :
    (feedLengths (c :: rest)).length = (feedLengths rest).length := by
  have hOther : ¬(c == '\n') = true := by simpa using h
  rw [feedLengths, feedLengths, List.splitOnP_cons_eq_if_modifyHead, if_neg hOther, List.length_map,
    List.length_modifyHead, List.length_map]

/-- A break makes one more line. -/
theorem length_lineLengths_cons (c : Char) (rest : List Char) :
    (lineLengths (c :: rest)).length = (lineLengths rest).length + if breaksAt (c :: rest) 0 then
    1 else 0 := by
  cases h : breaksAt (c :: rest) 0 with
  | true => rw [lineLengths_of_break h, List.length_cons, if_pos rfl]
  | false =>
    rw [lineLengths_of_not_break h, List.length_modifyHead, if_neg Bool.false_ne_true, Nat.add_zero]

/-- A line feed always breaks a line. By induction on the text. -/
theorem length_feedLengths_le (text : List Char) :
    (feedLengths text).length ≤ (lineLengths text).length := by
  induction text with
  | nil => exact Nat.le_refl _
  | cons c rest ih =>
    rw [length_lineLengths_cons]
    by_cases hFeed : c = '\n'
    · obtain rfl := hFeed
      rw [feedLengths_feed]
      exact Nat.succ_le_succ ih
    · rw [length_feedLengths_of_ne rest hFeed]
      exact Nat.le_trans ih (Nat.le_add_right _ _)

/-- If there are no more lines than line feeds make, nothing else breaks a line. By induction on the
text. -/
theorem breaksAtFeeds_of_length {text : List Char}
    (h : (feedLengths text).length = (lineLengths text).length) : BreaksAtFeeds text := by
  -- by induction on the text: the lexer has as many breaks as feeds, and never fewer on the way
  induction text with
  | nil =>
    intro _ _ hNone
    cases hNone
  | cons c rest ih =>
    rw [length_lineLengths_cons] at h
    have hLe := length_feedLengths_le rest
    have hHere : (feedLengths rest).length = (lineLengths rest).length ∧
        (Text.isLineTerminator c → c = '\n' ∨ c = '\r' ∧ rest[0]? = some '\n') := by
      -- if the first character is not a feed, the lexer must not break there either
      by_cases hFeed : c = '\n'
      · obtain rfl := hFeed
        rw [feedLengths_feed] at h
        exact ⟨Nat.succ.inj h, fun _ => .inl rfl⟩
      · rw [length_feedLengths_of_ne rest hFeed] at h
        have hNone : breaksAt (c :: rest) 0 = false := by
          cases hBreak : breaksAt (c :: rest) 0 with
          | false => rfl
          | true =>
            rw [hBreak, if_pos rfl] at h
            omega
        rw [hNone] at h
        refine ⟨h, fun hTerminator => .inr ?_⟩
        change (Text.isLineTerminator c && !(c == '\r' && rest[0]? == some '\n')) = false at hNone
        rw [hTerminator] at hNone
        simpa using hNone
    intro offset d hd hTerminator
    cases offset with
    | zero =>
      obtain rfl := Option.some.inj hd
      exact hHere.2 hTerminator
    | succ offset => exact ih hHere.1 offset d hd hTerminator

/-- The lines that are measured are those that the lexer counts exactly if they break at line feeds
only. -/
theorem measureLines_eq_lineLengths_iff (source : String) :
    measureLines source = lineLengths source.toList ↔ BreaksAtFeeds source.toList :=
  ⟨fun h => breaksAtFeeds_of_length (congrArg List.length h), feedLengths_eq_lineLengths⟩

/-! ## Checked lines -/

/-- What is reported for the lines of the lengths under a limit, the first of them being `line`. -/
def longLines (limit : Option Nat) (line : Nat) (lengths : List Nat) : List Diagnostic :=
  ((lengths.zipIdx line).filter fun entry => limit.any (· < entry.1)).map fun entry =>
    Finding.lineTooLong.diagnostic entry.2 entry.1

/-- Without a limit no line is too long. -/
theorem longLines_none (line : Nat) (lengths : List Nat) : longLines none line lengths = [] := by
  simp [longLines]

theorem longLines_nil (limit : Option Nat) (line : Nat) : longLines limit line [] = [] := rfl

/-- The first line is reported if it is longer than the limit. -/
theorem longLines_cons (limit line length : Nat) (rest : List Nat) :
    longLines (some limit) line (length :: rest) =
    if limit < length then
      Finding.lineTooLong.diagnostic line length :: longLines (some limit) (line + 1) rest
    else longLines (some limit) (line + 1) rest := by
  rw [longLines, List.zipIdx_cons, List.filter_cons]
  simp only [Option.any_some, decide_eq_true_eq]
  split <;> rfl

namespace Parse

variable {s t : Session}

/-- A diagnostic that does not stop the run is recorded, and that is all. -/
theorem emit_ok {d : Diagnostic} (h : emit d s = .ok () t) :
    t = { s with journal := s.journal.record d } := by
  unfold emit at h
  dsimp only at h
  split at h
  · cases h
  · exact (EStateM.Result.ok.inj h).2.symm

/-- By induction on the lines. -/
theorem warnLongLines_ok {limit line : Nat} {lengths : List Nat}
    (h : warnLongLines limit line lengths s = .ok () t) :
    t = { s with journal := (longLines (some limit) line lengths).foldl .record s.journal } := by
  induction lengths generalizing line s with
  | nil => exact (EStateM.Result.ok.inj h).2.symm
  | cons length rest ih =>
    rw [longLines_cons]
    change (if limit < length then _ else _ : Parse Unit) s = _ at h
    split at h
    · next hLong =>
      obtain ⟨_, u, hWarn, hRest⟩ := exists_of_bind h
      rw [if_pos hLong, ih hRest, emit_ok hWarn]
      rfl
    · next hShort =>
      rw [if_neg hShort]
      exact ih h

/-- The lines before a place are checked in the settings of the session, and nothing else
changes. -/
theorem checkLinesBefore_ok {line : Nat} (h : checkLinesBefore line s = .ok () t) :
    let lengths := s.uncheckedLines.take (line - 1 - s.checkedLines)
    t = { s with
      checkedLines := s.checkedLines + lengths.length
      uncheckedLines := s.uncheckedLines.drop (line - 1 - s.checkedLines)
      journal :=
        (longLines (s.layers.limit? .maxlen) (s.checkedLines + 1) lengths).foldl .record
          s.journal } := by
  intro lengths
  rw [checkLinesBefore_apply, List.splitAt_eq] at h
  dsimp only at h
  cases hLimit : s.layers.limit? .maxlen with
  | none =>
    rw [hLimit] at h
    rw [longLines_none]
    exact (EStateM.Result.ok.inj h).2.symm
  | some limit =>
    rw [hLimit] at h
    exact warnLongLines_ok h

end Parse

namespace Session

/-- The lines before the one where the current token starts are checked, and the others are not. -/
structure Measured (source : String) (s : Session) : Prop where
  checked : s.checkedLines = min (s.token.line - 1) (measureLines source).length
  unchecked : s.uncheckedLines = (measureLines source).drop (s.token.line - 1)

/-- The lengths of the lines from the one of the current token up to another one. -/
def linesUpTo (source : String) (s : Session) (line : Nat) : List Nat :=
  ((measureLines source).drop (s.token.line - 1)).take (line - s.token.line)

variable {source : String} {options : Options} {globals : Option Predefined.Globals}
  {s t m : Session}

/-- What leaves the counts of the lines and the token alone keeps the measure. -/
theorem Measured.same (hs : s.Measured source) (hToken : t.token = s.token)
    (hChecked : t.checkedLines = s.checkedLines)
    (hUnchecked : t.uncheckedLines = s.uncheckedLines) : t.Measured source := by
  refine ⟨?_, ?_⟩
  · rw [hChecked, hToken, hs.checked]
  · rw [hUnchecked, hToken, hs.unchecked]

/-- Every line is checked or is not. -/
theorem Measured.total (hs : s.Measured source) :
    s.checkedLines + s.uncheckedLines.length = (measureLines source).length := by
  rw [hs.checked, hs.unchecked, List.length_drop]
  omega

/-- The lines that are checked before another one go on from the one of the current token. -/
theorem Measured.longLines_eq (hs : s.Measured source) (hLine : 0 < s.token.line)
    (limit : Option Nat) (line : Nat) :
    longLines limit (s.checkedLines + 1) (s.uncheckedLines.take (line - 1 - s.checkedLines)) =
      longLines limit s.token.line (s.linesUpTo source line) := by
  rw [hs.unchecked, linesUpTo]
  by_cases hLeft : s.token.line - 1 ≤ (measureLines source).length
  · rw [hs.checked, Nat.min_eq_left hLeft, Nat.sub_add_cancel hLine,
      Nat.sub_sub_sub_cancel_right hLine]
  · rw [List.drop_eq_nil_of_le (Nat.le_of_not_le hLeft), List.take_nil, longLines_nil,
      List.take_nil, longLines_nil]

/-- At the end of the run, all lines that are left are checked. -/
theorem Measured.finish (hs : s.Measured source) (hLine : 0 < s.token.line)
    (h : checkLinesBefore (s.checkedLines + s.uncheckedLines.length + 1) s = .ok () t) :
    t = { s with
      checkedLines := (measureLines source).length
      uncheckedLines := []
      journal := (longLines (s.layers.limit? .maxlen) s.token.line
        (s.linesUpTo source ((measureLines source).length + 1))).foldl .record s.journal } := by
  rw [hs.total] at h
  have hAfter := checkLinesBefore_ok h
  have hLeft : (measureLines source).length + 1 - 1 - s.checkedLines = s.uncheckedLines.length := by
    rw [← hs.total]
    omega
  dsimp only at hAfter
  rw [hs.longLines_eq hLine, hLeft, List.take_length, List.drop_length, hs.total] at hAfter
  exact hAfter

/-- So it is when the run ends, before what the scopes found last is forwarded. -/
theorem Measured.lastChecks (hs : s.Measured source) (hLine : 0 < s.token.line)
    (h : Parse.lastChecks s { s with scopes := (s.scopes.finish s.layers).2 } = .ok () t) :
    flushScopes { s with
      scopes := (s.scopes.finish s.layers).2
      checkedLines := (measureLines source).length
      uncheckedLines := []
      journal := (longLines (s.layers.limit? .maxlen) s.token.line
        (s.linesUpTo source ((measureLines source).length + 1))).foldl .record s.journal } =
          .ok () t := by
  obtain ⟨_, u, hCheck, hFlush⟩ := exists_of_bind h
  have hSettled : ({ s with scopes := (s.scopes.finish s.layers).2 } : Session).Measured source :=
    hs.same rfl rfl rfl
  rw [hSettled.finish hLine hCheck] at hFlush
  exact hFlush

/-- Where the lines before the next token are checked, all lines before it are. -/
theorem Measured.advance (hs : s.Measured source) (hChecked : m.checkedLines = s.checkedLines)
    (hUnchecked : m.uncheckedLines = s.uncheckedLines) (hLater : s.token.line ≤ m.token.line)
    (h : checkLinesBefore m.token.line m = .ok () t) : t.Measured source := by
  have hAfter := checkLinesBefore_ok h
  have hToken : t.token = m.token := by rw [hAfter]
  rw [hChecked, hUnchecked, hs.checked, hs.unchecked] at hAfter
  constructor
  · rw [hToken, hAfter]
    show _ + (((measureLines source).drop _).take _).length = _
    rw [List.length_take, List.length_drop]
    omega
  · rw [hToken, hAfter]
    show ((measureLines source).drop _).drop _ = _
    rw [List.drop_drop]
    by_cases hLeft : s.token.line - 1 ≤ (measureLines source).length
    · congr 1
      omega
    · rw [List.drop_eq_nil_of_le (by omega), List.drop_eq_nil_of_le (by omega)]

/-- What the move to the next token reports for the lines before it. -/
theorem Measured.checks {stream : TokenStream} (hs : s.Measured source) (hLine : 0 < s.token.line)
    (hTakes : ({ s with stream } : Session).Takes source.toList m)
    (h : checkLinesBefore m.token.line m = .ok () t) :
    t = { m with
      checkedLines := t.checkedLines
      uncheckedLines := t.uncheckedLines
      journal := (longLines (m.layers.limit? .maxlen) s.token.line
        (s.linesUpTo source m.token.line)).foldl .record m.journal } := by
  have hAfter := checkLinesBefore_ok h
  dsimp only at hAfter
  rw [hTakes.checkedLines, hTakes.uncheckedLines, hs.longLines_eq hLine] at hAfter
  rw [hAfter]

/-- By induction on the changes that lead to the session. -/
theorem InRun.measured (h : s.InRun source options globals) : s.Measured source := by
  refine (h.induction (fun t ht => ?_) fun m t hQuotes hm hStrides => ?_).2
  · have hStart : (start source options globals).Measured source := ⟨(Nat.zero_min _).symm, rfl⟩
    exact hStart.same ht.token ht.checkedLines ht.uncheckedLines
  · cases hStrides with
    | stays ht => exact hm.same ht.token ht.checkedLines ht.uncheckedLines
    | advances _ hTakes hCheck =>
      exact hm.advance hTakes.checkedLines hTakes.uncheckedLines
        (hTakes.line_le hQuotes.token) hCheck

end Session

/-- Which lines are checked, and when. A change of a run stays at the current token, checks no line
and reports none as too long, or it consumes that token, carries out the directives up to the next
one, and then checks the lines from that of the one token up to that of the other, all of them under
the limit which the directives leave. The lines that are left are checked at the end of the run.
What is checked are the lines between line feeds; these are the lines that the lexer counts exactly
if no line breaks otherwise. -/
theorem long_lines_checked {source : String} {options : Options}
    {globals : Option Predefined.Globals}
    {s t : Session} (h : s.InRun source options globals) (hMove : s.Moves t) :
    let count := (measureLines source).length
    let settled := { s with scopes := (s.scopes.finish s.layers).2 }
    s.Measured source ∧
      (s.Stays t ∨ ∃ stream m, (stream = s.stream ∨ stream = s.stream.allowRegex) ∧
        ({ s with stream } : Session).Takes source.toList m ∧ s.token.line ≤ m.token.line ∧
        t = { m with
          checkedLines := t.checkedLines
          uncheckedLines := t.uncheckedLines
          journal := (longLines (m.layers.limit? .maxlen) s.token.line
            (s.linesUpTo source m.token.line)).foldl .record m.journal }) ∧
      (∀ u, lastChecks s settled = .ok () u → flushScopes { settled with
          checkedLines := count
          uncheckedLines := []
          journal := (longLines (s.layers.limit? .maxlen) s.token.line
            (s.linesUpTo source (count + 1))).foldl .record s.journal } = .ok () u) ∧
      (measureLines source = lineLengths source.toList ↔ BreaksAtFeeds source.toList) := by
  intro count settled
  have hMeasured := h.measured
  have hQuotes := h.quotes
  have hLine := hQuotes.token.line_pos
  refine ⟨hMeasured, ?_, fun u => hMeasured.lastChecks hLine,
    measureLines_eq_lineLengths_iff source⟩
  -- the change stays at the token, or goes on to the next and checks the lines before it
  · cases hMove.strides hQuotes.reads h.calm with
    | stays ht => exact .inl ht
    | @advances stream m hStream hTakes hCheck =>
      have hLater := hTakes.line_le hQuotes.token
      exact .inr ⟨stream, m, hStream, hTakes, hLater, hMeasured.checks hLine hTakes hCheck⟩

/-- A line that is over when a directive limits the length of lines is reported nevertheless, as it
is checked behind the directive. -/
theorem long_lines_checked_directive :
    let source := "abcdefghij;\n/*jshint maxlen:5*/ x;"
    ∃ s t : Session, s.InRun source {} none ∧ s.Moves t ∧ s.layers.limit? .maxlen = none ∧
      s.Measured source ∧ s.checkedLines = 0 ∧ t.journal.kept =
        [Finding.lineTooLong.diagnostic 1 11] := by
  intro source
  let first := Session.start source {} none
  let toSemicolon : Parse Unit := do advance; advance
  have hThere :
      leadsTo toSemicolon (fun s => s.layers.limit? .maxlen = none && s.checkedLines = 0 &&
      leadsTo advance (fun t => t.journal.kept = [Finding.lineTooLong.diagnostic 1 11]) s)
        first := by
    decide +kernel
  obtain ⟨_, s, hr, hThere⟩ := exists_of_leadsTo hThere
  simp only [Bool.and_eq_true, decide_eq_true_eq] at hThere
  obtain ⟨⟨hLimit, hChecked⟩, hNext⟩ := hThere
  obtain ⟨_, t, ht, hKept⟩ := exists_of_leadsTo hNext
  obtain ⟨_, m, h₁, h₂⟩ := exists_of_bind hr
  have hFirst : first.InRun source {} none := ⟨first, rfl, .refl⟩
  have hRun : s.InRun source {} none := (hFirst.advance h₁).advance h₂
  have hMove : s.Moves t := .step .advance ht
  exact ⟨s, t, hRun, hMove, hLimit, (long_lines_checked hRun hMove).1, hChecked,
    of_decide_eq_true hKept⟩

/-! ## Reported lines -/

/-- The length of a line, and the limit to which the line is held. -/
structure HeldLine where
  limit : Option Nat
  length : Nat

/-- The line is longer than its limit allows. -/
def HeldLine.isLong (line : HeldLine) : Bool := line.limit.any (· < line.length)

/-- What is reported for the lines, the first of them having the number. -/
def heldLines (first : Nat) (lines : List HeldLine) : List Diagnostic :=
  ((lines.zipIdx first).filter (·.1.isLong)).map fun entry =>
    Finding.lineTooLong.diagnostic entry.2 entry.1.length

section

variable (first : Nat) (lines rest : List HeldLine)

/-- Lines are numbered on from those before them. -/
theorem heldLines_append :
    heldLines first (lines ++ rest) =
      heldLines first lines ++ heldLines (first + lines.length) rest := by
  simp [heldLines, List.zipIdx_append]

/-- Lines under one limit. -/
theorem heldLines_map (limit : Option Nat) (lengths : List Nat) :
    heldLines first (lengths.map (.mk limit)) = longLines limit first lengths := by
  simp [heldLines, longLines, HeldLine.isLong, List.zipIdx_map, List.filter_map, Function.comp_def]

/-- Only long lines are told of. -/
theorem code_of_mem_heldLines : ∀ d ∈ heldLines first lines, d.code = "W101" := by
  intro d hd
  obtain ⟨_, -, rfl⟩ := List.mem_map.mp hd
  rfl

/-- No two reports are about the same line. -/
theorem nodup_heldLines : (heldLines first lines).Nodup := by
  have hNumbers : ((lines.zipIdx first).map Prod.snd).Nodup := by
    rw [List.zipIdx_map_snd]
    exact List.nodup_range'
  have hHeld : ((heldLines first lines).map Diagnostic.line).Nodup := by
    rw [heldLines, List.map_map]
    exact hNumbers.sublist (List.filter_sublist.map Prod.snd)
  exact List.Pairwise.of_map Diagnostic.line (fun _ _ hNe hSame => hNe (congrArg _ hSame)) hHeld

end

namespace Session

variable {source : String} {options : Options} {globals : Option Predefined.Globals} {s t : Session}
  {lines : List HeldLine}

/-- The lines that a run has checked when it comes to a session, each with the limit in force at the
time. -/
inductive Gauged (source : String) (options : Options) (globals : Option Predefined.Globals) :
    List HeldLine → Session → Prop
  | first {t : Session} (h : reportProblems (Setting.Layers.ofOptions options).2 0 0
      (.start source options globals) = .ok () t) : Gauged source options globals [] t
  | stays {lines : List HeldLine} {s t : Session} (hs : Gauged source options globals lines s)
    (hMove : s.Moves t) (hStays : s.Stays t) : Gauged source options globals lines t
  | advances {lines : List HeldLine} {s m t : Session} {stream : TokenStream}
    (hs : Gauged source options globals lines s) (hMove : s.Moves t)
    (hStream : stream = s.stream ∨ stream = s.stream.allowRegex)
    (hTakes : ({ s with stream } : Session).Takes source.toList m)
    (hCheck : checkLinesBefore m.token.line m = .ok () t) :
    Gauged source options globals
      (lines ++ (s.linesUpTo source m.token.line).map (.mk (m.layers.limit? .maxlen))) t

/-- By induction on the changes that lead to the session. -/
theorem InRun.exists_gauged (h : s.InRun source options globals) :
    ∃ lines, Gauged source options globals lines s := by
  obtain ⟨first, hFirst, hReaches⟩ := h
  induction hReaches with
  | refl => exact ⟨[], .first hFirst⟩
  | @tail m t hm hMove ih =>
    obtain ⟨lines, hLines⟩ := ih
    have hRun : m.InRun source options globals := ⟨first, hFirst, hm⟩
    cases hMove.strides hRun.quotes.reads hRun.calm with
    | stays h => exact ⟨lines, .stays hLines hMove h⟩
    | advances hStream hTakes hCheck => exact ⟨_, .advances hLines hMove hStream hTakes hCheck⟩

/-- A session whose lines are gauged is one of the run. -/
theorem Gauged.inRun (h : Gauged source options globals lines s) :
    s.InRun source options globals := by
  induction h with
  | first h => exact ⟨_, h, .refl⟩
  | stays _ hMove _ ih | advances _ hMove _ _ _ ih =>
    obtain ⟨first, hFirst, hReaches⟩ := ih
    exact ⟨first, hFirst, hReaches.tail hMove⟩

/-- The lines before that of the current token are checked. By induction on the changes of the
run. -/
theorem Gauged.lengths (h : Gauged source options globals lines s) :
    lines.map (·.length) = (measureLines source).take (s.token.line - 1) := by
  induction h with
  | first h =>
    rw [(stays_of_reportProblems h).token]
    rfl
  | stays _ _ hStays ih => rw [hStays.token, ih]
  | @advances lines s m t stream hs hMove hStream hTakes hCheck ih =>
    have hToken : t.token = m.token := by rw [checkLinesBefore_ok hCheck]
    have hQuotes := hs.inRun.quotes
    have hLine := hQuotes.token.line_pos
    have hLater : s.token.line ≤ m.token.line := hTakes.line_le hQuotes.token
    have hSplit : m.token.line - 1 = s.token.line - 1 + (m.token.line - s.token.line) := by omega
    rw [List.map_append, List.map_map, ih, hToken, hSplit, List.take_add]
    exact congrArg _ (List.map_id _)

/-- What is left is numbered on. -/
theorem Gauged.longLines_eq (h : Gauged source options globals lines s) (limit : Option Nat)
    (line : Nat) : heldLines (1 + lines.length) ((s.linesUpTo source line).map (.mk limit)) =
      longLines limit s.token.line (s.linesUpTo source line) := by
  have hLine := h.inRun.quotes.token.line_pos
  have hLength : lines.length = min (s.token.line - 1) (measureLines source).length := by
    rw [← List.length_map (·.length), h.lengths, List.length_take]
  rw [heldLines_map]
  by_cases hLeft : s.token.line - 1 ≤ (measureLines source).length
  · rw [hLength, Nat.min_eq_left hLeft, Nat.add_sub_cancel' hLine]
  · have hNone : s.linesUpTo source line = [] := by
      rw [linesUpTo, List.drop_eq_nil_of_le (Nat.le_of_not_le hLeft), List.take_nil]
    rw [hNone, longLines_nil, longLines_nil]

/-- By induction on the changes of the run: the journal is handed the long lines, and no other. -/
theorem Gauged.journal (h : Gauged source options globals lines s) :
    Journal.Receives "W101" (heldLines 1 lines) { ignoredCodes := options.ignoredCodes }
      s.journal := by
  induction h with
  | first h => exact (stays_of_reportProblems h).journal
  | stays _ _ hStays ih =>
    have hBoth := ih.trans hStays.journal
    rwa [List.append_nil] at hBoth
  | @advances lines s m t stream hs hMove hStream hTakes hCheck ih =>
    have hLine := hs.inRun.quotes.token.line_pos
    have hAfter := congrArg Session.journal (hs.inRun.measured.checks hLine hTakes hCheck)
    rw [← hs.longLines_eq] at hAfter
    have hReports := Journal.Receives.foldl_record (code_of_mem_heldLines (1 + lines.length)
      ((s.linesUpTo source m.token.line).map (.mk (m.layers.limit? .maxlen)))) m.journal
    have hAll := (ih.trans hTakes.journal).trans hReports
    rw [List.append_nil, ← heldLines_append] at hAll
    rw [hAfter]
    exact hAll

/-- The end of a run hands the journal the long lines among those that are left. -/
theorem InRun.finish_receives (h : s.InRun source options globals)
    (hGoesOn : (left (finish s)).journal.halted = false) :
    Journal.Receives "W101" (longLines (s.layers.limit? .maxlen) s.token.line
      (s.linesUpTo source ((measureLines source).length + 1))) s.journal
        (left (finish s)).journal := by
  generalize hLong : longLines (s.layers.limit? .maxlen) s.token.line
    (s.linesUpTo source ((measureLines source).length + 1)) = long
  let settled : Session := { s with scopes := (s.scopes.finish s.layers).2 }
  have hFinish : left (finish s) = left (lastChecks s settled) := by
    rw [finish_eq]
    rfl
  rw [hFinish] at hGoesOn ⊢
  -- the last check either goes through, or stops the run and halts the journal
  cases hLast : lastChecks s settled with
  | ok a t =>
    have hFlush := h.measured.lastChecks h.quotes.token.line_pos hLast
    rw [hLong] at hFlush
    have hCalm : settled.scopes.Calm := h.calm.finish s.layers
    have hFlushed := staying_flushScopes { settled with
      checkedLines := (measureLines source).length
      uncheckedLines := []
      journal := long.foldl .record s.journal }
    rw [hFlush] at hFlushed
    have hCodes : ∀ d ∈ long, d.code = "W101" := by
      rw [← hLong, ← heldLines_map]
      exact code_of_mem_heldLines _ _
    have hAll := (Journal.Receives.foldl_record hCodes s.journal).trans (hFlushed hCalm).1.journal
    rwa [List.append_nil] at hAll
  | error e t =>
    have hPlaced := placed_lastChecks s settled
    have hHalting : halting.Keeps (lastChecks s) :=
      halting.bind (halting_steps.checkLinesBefore _) fun _ => halting_steps.flushScopes
    have hHalted := hHalting settled
    rw [hLast] at hPlaced hHalted hGoesOn
    cases e with
    | halt => exact absurd hHalted (ne_true_of_eq_false hGoesOn)
    | badSyntax => exact hPlaced.elim

end Session

/-- What a run reports about long lines, unless it stops. Every line of the source is held to the
limit in force when it is checked, at the end of the run if not before. The journal is handed a
report for each line that is longer, in ascending order, and for no other; so these are the reports
of the run, but for those that directives and options suppress. -/
theorem long_lines_reported (source : String) (options : Options)
    (globals : Option Predefined.Globals) :
    let last := left (program (Setting.Layers.ofOptions options).2 (.start source options globals))
    let final := Session.final source options globals
    let rest :=
      (last.linesUpTo source ((measureLines source).length + 1)).map
        (.mk (last.layers.limit? .maxlen))
    let reported := (lint source options globals).diagnostics.filter (·.code == "W101")
    final.journal.halted = false →
      (∃ lines, Session.Gauged source options globals lines last) ∧
      ∀ lines, Session.Gauged source options globals lines last →
        (lines ++ rest).map (·.length) = measureLines source ∧
        Journal.Receives "W101" (heldLines 1 (lines ++ rest))
          { ignoredCodes := options.ignoredCodes } final.journal ∧
        reported.Sublist (heldLines 1 (lines ++ rest)) ∧
        ((∀ d ∈ heldLines 1 (lines ++ rest), d ∈ reported) →
          reported = heldLines 1 (lines ++ rest)) := by
  intro last final rest reported hGoesOn
  have hFinal : final = left (finish last) := final_eq source options globals
  have hLast : last.journal.halted = false := by
    obtain ⟨names, t, hFinish, hSame, -⟩ := finish_run last
    cases hHalted : last.journal.halted with
    | false => rfl
    | true =>
      rw [hFinal, hFinish] at hGoesOn
      rw [← hSame hHalted] at hHalted
      exact absurd hHalted (ne_true_of_eq_false hGoesOn)
  have hRun : last.InRun source options globals :=
    (program_accounted rfl).resolve_right fun h => absurd h.1 (ne_true_of_eq_false hLast)
  refine ⟨hRun.exists_gauged, fun lines hLines => ?_⟩
  have hRest :
      heldLines (1 + lines.length) rest = longLines (last.layers.limit? .maxlen) last.token.line
      (last.linesUpTo source ((measureLines source).length + 1)) := hLines.longLines_eq _ _
  have hFinish := hRun.finish_receives (hFinal ▸ hGoesOn)
  rw [← hRest, ← hFinal] at hFinish
  have hReceives := hLines.journal.trans hFinish
  rw [← heldLines_append] at hReceives
  have hSublist : reported.Sublist (heldLines 1 (lines ++ rest)) := by
    show ((lint source options globals).diagnostics.filter _).Sublist _
    rw [lint_diagnostics_eq]
    exact hReceives.reported
  refine ⟨?_, hReceives, hSublist, fun hAll => ?_⟩
  · have hLine := hRun.quotes.token.line_pos
    have hLeft : (last.linesUpTo source ((measureLines source).length + 1)) =
        (measureLines source).drop (last.token.line - 1) := by
      refine List.take_of_length_le ?_
      rw [List.length_drop]
      omega
    have hLengths : rest.map (·.length) = (measureLines source).drop (last.token.line - 1) := by
      rw [List.map_map, hLeft]
      exact List.map_id _
    rw [List.map_append, hLines.lengths, hLengths, List.take_append_drop]
  · -- the reports are about different lines, so that none can be missing
    exact hSublist.eq_of_length_le (List.Nodup.length_le_of_subset (nodup_heldLines _ _) hAll)

end ScriptLint
