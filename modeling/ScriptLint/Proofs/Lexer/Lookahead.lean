import ScriptLint.Proofs.Lexer.Stream

/-!
# Looking ahead

The reader of a stream pulls results, looks ahead, and lets the next slash start a regular
expression. Looking ahead reads under a guess what a slash is, and the guess may turn out wrong. A
stream that has looked ahead is therefore compared with one that never does, which is a lexer and
nothing else.

- `TokenStream.Operation`, `TokenStream.performAll`: what a reader does to a stream.
- `TokenStream.Shadows`: a stream that has looked ahead, and the lexer of one that has not.
- `TokenStream.overlooksSlash`: the one place where looking ahead can be noticed. A slash behind an
  error for which there is no token has been read as a division, and it is not read again.
- `TokenStream.lookahead_transparent`: everywhere else, looking ahead makes no difference.
-/

namespace ScriptLint

namespace Lexer

/-! ## Slashes that may start a regular expression -/

/-- Operators that divide begin with a slash. -/
theorem slash_of_longestPunctuator {c : Char} {rest : List Char} {p : Punctuator}
    (h : longestPunctuator? (c :: rest) = some p) (hp : p = .divide ∨ p = .divideAssign) :
    c = '/' := by
  have hFound : Punctuator.all.find? (·.spelling.toList.isPrefixOf (c :: rest)) = some p := by
    unfold longestPunctuator? at h
    split at h
    · rcases hp with rfl | rfl <;> split at h <;> cases h
    · exact h
  have hHead := head_spelling_of_find hFound
  rcases hp with rfl | rfl
  · exact (Option.some.inj hHead).symm
  · exact (Option.some.inj hHead).symm

/-- What is read as a division is a slash that may not start a regular expression. -/
theorem scan_divides {regexAllowed : Bool} {templates : List Nat} {c : Char} {rest : List Char}
    {p : Punctuator} (h : (scan regexAllowed templates c rest).significant? = some (.punctuator p))
    (hp : p = .divide ∨ p = .divideAssign) : regexAllowed = false := by
  have hKind : (scan regexAllowed templates c rest).isPunctuator := by
    rw [Scan.isPunctuator, h]
  obtain ⟨hScan, hSlash⟩ := scan_of_isPunctuator _ _ hKind
  rw [hScan, scanPunctuator] at h
  cases hFound : longestPunctuator? (c :: rest) with
  | none =>
    rw [hFound] at h
    cases h
  | some q =>
    rw [hFound] at h
    cases h
    obtain rfl := slash_of_longestPunctuator hFound hp
    exact hSlash

/-- A test for an operator is about the kind of the token. -/
theorem kind_of_isPunctuator {t : Token} {p : Punctuator} (h : t.isPunctuator p) :
    t.kind = .punctuator p := by
  unfold Token.isPunctuator at h
  split at h
  · next hKind => rw [hKind, of_decide_eq_true h]
  · cases h

/-- What a scan finds is the kind of the token that is read. -/
theorem kind_read (l : Lexer) (s : Scan) :
    (significant? (l.read s).1).map (·.kind) = s.significant? := by
  unfold read Scan.significant?
  cases s.scanned with
  | token kind =>
    have hKind : ((l.consume s).finish l.cursor kind).1.kind = kind := kind_finish ..
    dsimp only
    cases hTrivia : kind.isTrivia with
    | true =>
      have hPassed : significant? (.ok ((l.consume s).finish l.cursor kind).1) = none := by
        refine if_pos ?_
        rw [Token.isTrivia, hKind, hTrivia]
      rw [hPassed]
      rfl
    | false =>
      rw [significant_finish hTrivia, Option.map_some, hKind]
      rfl
  | failure problem offset recovered =>
    cases recovered with
    | none => rfl
    | some kind =>
      dsimp only [significant?]
      rw [Option.map_some, kind_finish]

/-- What is passed over leaves the question of regular expressions open. -/
theorem regexAllowed_of_passed {l : Lexer} (h : significant? l.next.1 = none) :
    l.next.2.regexAllowed = l.regexAllowed := by
  cases hRest : l.skipBlank.cursor.rest with
  | nil =>
    rw [next_of_nil hRest] at h
    cases (significant_finish rfl _ _).symm.trans h
  | cons c rest =>
    rw [next_of_cons hRest] at h ⊢
    generalize scan l.skipBlank.regexAllowed l.skipBlank.templates c rest = s at h ⊢
    have hKind := kind_read l.skipBlank s
    rw [h, Scan.significant?] at hKind
    unfold read
    cases hScanned : s.scanned with
    | token kind =>
      rw [hScanned] at hKind
      cases hTrivia : kind.isTrivia with
      | true =>
        dsimp only
        rw [finish, if_pos hTrivia]
        rfl
      | false =>
        dsimp only at hKind
        rw [hTrivia] at hKind
        cases hKind
    | failure problem offset recovered =>
      rw [hScanned] at hKind
      obtain rfl : none = recovered := hKind
      rfl

/-- Where a slash may start a regular expression, the next token is no division. -/
theorem next_not_divides {l : Lexer} {t : Token} (hRegex : l.regexAllowed)
    (ht : significant? l.next.1 = some t) : divides (.ok t) = false := by
  refine Bool.eq_false_iff.mpr fun hDivides => ?_
  obtain ⟨p, hKind, hp⟩ : ∃ p, t.kind = .punctuator p ∧ (p = .divide ∨ p = .divideAssign) := by
    rw [divides, Bool.or_eq_true] at hDivides
    rcases hDivides with h | h
    · exact ⟨_, kind_of_isPunctuator h, .inl rfl⟩
    · exact ⟨_, kind_of_isPunctuator h, .inr rfl⟩
  cases hRest : l.skipBlank.cursor.rest with
  | nil =>
    rw [next_of_nil hRest, significant_finish rfl] at ht
    obtain rfl := Option.some.inj ht
    rw [kind_finish] at hKind
    cases hKind
  | cons c rest =>
    have hRead := kind_read l.skipBlank (scan l.skipBlank.regexAllowed l.skipBlank.templates c rest)
    rw [← next_of_cons hRest, ht, Option.map_some, hKind] at hRead
    have hForbidden : l.regexAllowed = false := scan_divides hRead.symm hp
    rw [hRegex] at hForbidden
    cases hForbidden

/-- Where a regular expression is allowed no slash divides. -/
theorem Leads.not_divides {l l' : Lexer} {rs : List Result} {t : Token} (h : Leads l rs t l')
    (hRegex : l.regexAllowed) : divides (.ok t) = false := by
  induction h with
  | here ht => exact next_not_divides hRegex ht
  | pass hr _ ih =>
    refine ih ?_
    rw [regexAllowed_of_passed hr, hRegex]

/-- What takes the place of malformed text is no division either. -/
theorem not_divides_of_next {l : Lexer} {t : Token} (h : divides l.next.1 = false)
    (ht : significant? l.next.1 = some t) : divides (.ok t) = false := by
  have hAllowed : significant? l.allowRegex.next.1 = some t := by
    rw [(next_allowRegex l h).1, ht]
  exact next_not_divides rfl hAllowed

/-- If the first result other than a comment counts and is no division, neither is the next
token. -/
theorem PassesTo.not_divides {l l' : Lexer} {n : Nat} {r : Result} {rs : List Result} {t u : Token}
    (h : PassesTo l n r) (hr : divides r = false) (hu : significant? r = some u)
    (hLeads : Leads l rs t l') : divides (.ok t) = false := by
  induction h generalizing rs with
  | here _ =>
    cases hLeads with
    | here ht => exact not_divides_of_next hr ht
    | pass hNone _ => cases hu.symm.trans hNone
  | pass hPassed _ ih =>
    cases hLeads with
    | here ht => cases (significant_of_passesOver hPassed).symm.trans ht
    | pass _ hRest => exact ih hr hu hRest

end Lexer

namespace TokenStream

open Lexer

/-! ## Readers -/

/-- What the reader of a stream can do. -/
inductive Operation where
  | pull
  | allowRegex
  | peek (n : Nat)
  deriving DecidableEq

/-- Whether the operation only looks ahead. -/
def Operation.isPeek : Operation → Bool
  | .peek _ => true
  | _ => false

/-- What an operation hands out, and the stream after it. -/
def perform (s : TokenStream) : Operation → List Result × TokenStream
  | .pull => ([s.pull.1], s.pull.2)
  | .allowRegex => ([], s.allowRegex)
  | .peek n => ([], (s.peek n).2)

/-- What the operations hand out, and the stream after them. -/
def performAll (s : TokenStream) : List Operation → List Result × TokenStream
  | [] => ([], s)
  | op :: ops =>
    let (results, s) := s.perform op
    let (more, s) := s.performAll ops
    (results ++ more, s)

/-- The next result other than a comment was read ahead, is an error for which there is no token,
and the next token is a division. -/
def overlooksSlash (s : TokenStream) : Bool :=
  (s.ahead.dropWhile Lookahead.isTrivia).head?.any (·.significant?.isNone) &&
    (s.peek 0).1.any fun t => divides (.ok t)

/-- Whether no slash is overlooked where the operations let one start a regular expression. -/
def heeds (s : TokenStream) : List Operation → Bool
  | [] => true
  | op :: ops => !(op == .allowRegex && s.overlooksSlash) && (s.perform op).2.heeds ops

/-! ## A stream that looks ahead and one that does not -/

/-- The stream hands out what the lexer reads, although only the lexer may have been told that the
next slash may start a regular expression. -/
def Shadows (s : TokenStream) (k : Lexer) : Prop :=
  ∃ l, s.From l ∧
    (k = l ∨ k = l.allowRegex ∧ ∀ rs t l', Leads l rs t l' → divides (.ok t) = false)

theorem shadows_ofSource (source : String) : (ofSource source).Shadows (.ofSource source) :=
  ⟨_, from_ofSource source, .inl rfl⟩

variable {s : TokenStream} {k l : Lexer}

/-- Both streams give the same result. -/
theorem Shadows.pull (h : s.Shadows k) : s.pull.1 = k.next.1 ∧ s.pull.2.Shadows k.next.2 := by
  -- the lexers are the same, or they differ in the flag and no slash is next
  obtain ⟨l, hFrom, rfl | ⟨rfl, hOther⟩⟩ := h
  · obtain ⟨hResult, hAfter, -⟩ := pull_spec hFrom
    exact ⟨hResult, _, hAfter, .inl rfl⟩
  · obtain ⟨hResult, hAfter, -⟩ := pull_spec hFrom
    have hNext : divides l.next.1 = false := by
      refine Bool.eq_false_iff.mpr fun hDivides => ?_
      cases hRead : l.next.1 with
      | error e =>
        rw [hRead] at hDivides
        cases hDivides
      | ok t =>
        have hCounts : significant? l.next.1 = some t := by
          rw [hRead, significant?, if_neg]
          intro hTrivia
          have hComment : passesOver l.next.1 := by
            rw [hRead]
            exact hTrivia
          rw [divides_of_passesOver hComment] at hDivides
          cases hDivides
        have hNot := hOther _ _ _ (.here hCounts)
        rw [hRead, hNot] at hDivides
        cases hDivides
    obtain ⟨hSame, hGoesOn⟩ := next_allowRegex l hNext
    refine ⟨hResult.trans hSame.symm, _, hAfter, ?_⟩
    rw [hGoesOn]
    cases hCounts : significant? l.next.1 with
    | some t => exact .inl rfl
    | none => exact .inr ⟨rfl, fun rs t l' hLeads => hOther _ _ _ (.pass hCounts hLeads)⟩

/-- Both streams give the same results. -/
theorem Shadows.pulls (h : s.Shadows k) (n : Nat) :
    (s.pulls n).1 = (TokenStream.pulls ⟨k, []⟩ n).1 := by
  induction n generalizing s k with
  | zero => rfl
  | succ n ih =>
    obtain ⟨hResult, hAfter⟩ := h.pull
    show s.pull.1 :: (s.pull.2.pulls n).1 = k.next.1 :: (TokenStream.pulls ⟨k.next.2, []⟩ n).1
    rw [hResult, ih hAfter]

/-- Looking ahead changes nothing. -/
theorem Shadows.peek (h : s.Shadows k) (n : Nat) : (s.peek n).2.Shadows k := by
  obtain ⟨l, hFrom, hLexer⟩ := h
  exact ⟨l, from_peek n hFrom, hLexer⟩

/-- A peek finds the next token. -/
theorem peek_of_leads {rs : List Result} {t : Token} {l' : Lexer} (h : s.From l)
    (hLeads : Leads l rs t l') : (s.peek 0).1 = some t :=
  (peek_spec h (hLeads.visits rfl)).1

/-- Only a slash that is overlooked is not read as the lexer reads it. -/
theorem Shadows.allowRegex (h : s.Shadows k) (hHeeds : s.overlooksSlash = false) :
    s.allowRegex.Shadows k.allowRegex := by
  obtain ⟨l, hFrom, hLexer⟩ := h
  have hAllowed : k.allowRegex = l.allowRegex := by
    rcases hLexer with rfl | ⟨rfl, -⟩ <;> rfl
  rw [hAllowed]
  obtain ⟨n, r, hPasses⟩ := exists_passesTo l
  obtain ⟨hAgain, hSame⟩ := allowRegex_spec hFrom hPasses
  by_cases hRead : s.ahead.length ≤ n ∨ divides r
  · exact ⟨_, (hAgain hRead).1, .inl rfl⟩
  · rw [not_or, Nat.not_le, Bool.not_eq_true] at hRead
    obtain ⟨hQueued, hOther⟩ := hRead
    rw [hSame hQueued hOther]
    refine ⟨l, hFrom, .inr ⟨rfl, fun rs t l' hLeads => ?_⟩⟩
    cases hCounts : significant? r with
    | some u => exact hPasses.not_divides hOther hCounts hLeads
    | none =>
      -- the first result is an error, so the token behind it must be looked at
      obtain ⟨entry, rest, hDrop, rfl, -⟩ := (Reads.passesTo hFrom hPasses).2 hQueued
      rw [overlooksSlash, hDrop, peek_of_leads hFrom hLeads, List.head?_cons, Option.any_some,
        Option.any_some, Lookahead.significant?, hCounts] at hHeeds
      exact hHeeds

/-- By induction on the operations: what is handed out is what is handed out without the peeks. -/
theorem Shadows.performAll (h : s.Shadows k) {ops : List Operation} (hHeeds : s.heeds ops) :
    ∃ k', (s.performAll ops).2.Shadows k' ∧
      TokenStream.performAll ⟨k, []⟩ (ops.filter (!·.isPeek)) =
        ((s.performAll ops).1, ⟨k', []⟩) := by
  induction ops generalizing s k with
  | nil => exact ⟨k, h, rfl⟩
  | cons op ops ih =>
    rw [heeds, Bool.and_eq_true] at hHeeds
    obtain ⟨hHere, hLater⟩ := hHeeds
    cases op with
    | pull =>
      obtain ⟨hResult, hAfter⟩ := h.pull
      obtain ⟨k', hShadows, hPlain⟩ := ih hAfter hLater
      refine ⟨k', hShadows, ?_⟩
      show ([k.next.1] ++ (TokenStream.performAll ⟨k.next.2, []⟩ _).1,
        (TokenStream.performAll ⟨k.next.2, []⟩ _).2) = ([s.pull.1] ++ _, _)
      rw [hPlain, hResult]
    | allowRegex =>
      have hHeed : s.overlooksSlash = false := by
        rw [beq_self_eq_true, Bool.true_and, Bool.not_eq_true'] at hHere
        exact hHere
      obtain ⟨k', hShadows, hPlain⟩ := ih (h.allowRegex hHeed) hLater
      refine ⟨k', hShadows, ?_⟩
      show ([] ++ (TokenStream.performAll ⟨k.allowRegex, []⟩ _).1,
        (TokenStream.performAll ⟨k.allowRegex, []⟩ _).2) = _
      rw [hPlain]
      rfl
    | peek n => exact ih (h.peek n) hLater

/-! ## Slashes that are overlooked -/

/-- Results that lead to a token lead to it wherever they are pulled. -/
theorem leads_of_pulls {k l' : Lexer} {rs : List Result} {t : Token} {s : TokenStream}
    (h : s.From k)
    (hLeads : Leads l rs t l') (hPulls : (s.pulls rs.length).1 = rs) : ∃ k', Leads k rs t k' := by
  induction hLeads generalizing s k with
  | @here l t ht =>
    obtain ⟨hResult, -, -⟩ := pull_spec h
    have hSame : k.next.1 = l.next.1 := hResult.symm.trans (List.cons.inj hPulls).1
    rw [← hSame] at ht ⊢
    exact ⟨_, .here ht⟩
  | @pass l l' rs t hr _ ih =>
    obtain ⟨hResult, hAfter, -⟩ := pull_spec h
    have hSame : k.next.1 = l.next.1 := hResult.symm.trans (List.cons.inj hPulls).1
    obtain ⟨k', hRest⟩ := ih hAfter (List.cons.inj hPulls).2
    rw [← hSame] at hr ⊢
    exact ⟨k', .pass hr hRest⟩

/-- A slash that is overlooked stays a division, which the lexer would not read. -/
theorem Shadows.overlooked (h : s.Shadows k) (hSlash : s.overlooksSlash) :
    ∃ n, (s.allowRegex.pulls n).1 ≠ (TokenStream.pulls ⟨k.allowRegex, []⟩ n).1 := by
  obtain ⟨l, hFrom, hLexer⟩ := h
  obtain ⟨rs, t, l', hLeads⟩ := exists_leads l
  rw [overlooksSlash, peek_of_leads hFrom hLeads, Option.any_some, Bool.and_eq_true] at hSlash
  obtain ⟨hError, hDivides⟩ := hSlash
  -- an overlooked slash is division in front of both lexers
  obtain rfl : k = l := by
    rcases hLexer with rfl | ⟨-, hOther⟩
    · rfl
    · rw [hOther _ _ _ hLeads] at hDivides
      cases hDivides
  have hKept : s.allowRegex = s := by
    unfold TokenStream.allowRegex
    cases hDrop : s.ahead.dropWhile Lookahead.isTrivia with
    | nil =>
      rw [hDrop] at hError
      cases hError
    | cons entry rest =>
      rw [hDrop, List.head?_cons, Option.any_some, Lookahead.significant?] at hError
      refine if_neg fun hDivision => ?_
      -- a division counts
      have hPassed : passesOver entry.result := by
        unfold Lookahead.isDivision at hDivision
        generalize entry.result = r at hError hDivision ⊢
        cases r with
        | error e => cases hDivision
        | ok t =>
          cases hTrivia : t.isTrivia with
          | true => exact hTrivia
          | false =>
            have hCounts : significant? (.ok t) = some t := by
              rw [significant?, hTrivia]
              rfl
            rw [hCounts] at hError
            cases hError
      have hNot := divides_of_passesOver hPassed
      cases hDivision.symm.trans hNot
  -- the stream that forgot nothing reads a regular expression there
  refine ⟨rs.length, fun hSame => ?_⟩
  rw [hKept, (pulls_spec hFrom hLeads).1] at hSame
  have hPlain : From ⟨k.allowRegex, []⟩ k.allowRegex := .nil _
  obtain ⟨k', hRegexp⟩ := leads_of_pulls hPlain hLeads hSame.symm
  rw [hRegexp.not_divides rfl] at hDivides
  cases hDivides

/-- Looking ahead, however far and whenever, makes no difference to what is pulled as long as no
slash is overlooked where it may start a regular expression. Where one is overlooked, what is pulled
next is not what it would be without looking ahead. -/
theorem lookahead_transparent (source : String) (ops : List Operation)
    (hHeeds : (ofSource source).heeds ops) :
    let looking := (ofSource source).performAll ops
    let plain := (ofSource source).performAll (ops.filter (!·.isPeek))
    looking.1 = plain.1 ∧
      ((∀ n, (looking.2.allowRegex.pulls n).1 = (plain.2.allowRegex.pulls n).1) ↔
        looking.2.overlooksSlash = false) := by
  obtain ⟨k, hShadows, hPlain⟩ := (shadows_ofSource source).performAll hHeeds
  intro looking plain
  have hEnd : plain = (looking.1, ⟨k, []⟩) := hPlain
  rw [hEnd]
  refine ⟨rfl, fun hSame => ?_, fun hHeeds n => (hShadows.allowRegex hHeeds).pulls n⟩
  refine Bool.eq_false_iff.mpr fun hSlash => ?_
  obtain ⟨n, hDiffers⟩ := hShadows.overlooked hSlash
  exact hDiffers (hSame n)

/-- Behind a comment, the slash that was read ahead as a division is read again; behind a character
that starts no token it is not. -/
theorem lookahead_transparent_slashes :
    let ops : List Operation := [.pull, .pull, .peek 1, .allowRegex, .peek 2, .pull, .pull]
    ((ofSource "x)//\n/y/").performAll ops).1 =
        ((ofSource "x)//\n/y/").performAll (ops.filter (!·.isPeek))).1 ∧
      ¬∀ n, (((ofSource "x)@/y/").performAll [.pull, .pull, .peek 0]).2.allowRegex.pulls n).1 =
        (((ofSource "x)@/y/").performAll [.pull, .pull]).2.allowRegex.pulls n).1 := by
  intro ops
  have hHeeds : (ofSource "x)//\n/y/").heeds ops := by decide +kernel
  have hStray : (ofSource "x)@/y/").heeds [.pull, .pull, .peek 0] := by decide +kernel
  have hSlash : ((ofSource "x)@/y/").performAll [.pull, .pull, .peek 0]).2.overlooksSlash := by
    decide +kernel
  refine ⟨(lookahead_transparent _ ops hHeeds).1, fun hSame => ?_⟩
  cases hSlash.symm.trans ((lookahead_transparent _ _ hStray).2.mp hSame)

end TokenStream

end ScriptLint
