import ScriptLint.Proofs.Lexer.Stream

/-!
# Streams that looked ahead differently

A check that one of two runs leaves out may be one that looks at the next token. The two streams
then hand out the same, but one of them has read more of it already. That matters only where a slash
is read again, and where a slash may start a regular expression anyway, it is not.

- `TokenStream.Akin`: the streams of two runs at the same place.
- `TokenStream.Akin.survey`, `TokenStream.Akin.pulled`, `TokenStream.Akin.allowRegex`: what both
  runs do keeps the streams akin and gives the same.
- `TokenStream.Akin.peekRight`: what only one of the runs does.
-/

namespace ScriptLint

namespace Lexer

/-- A token that counts decides how a slash after it is read. -/
theorem regexAllowed_finish (lexer : Lexer) (start : Cursor) {kind : TokenKind}
    (h : kind.isTrivia = false) : (lexer.finish start kind).2.regexAllowed = !kind.endsValue := by
  rw [finish, h]
  rfl

/-- Whether a regular expression may follow depends on the token that was read. -/
theorem regexAllowed_read (lexer : Lexer) {s : Scan} {t : Token}
    (hCounts : ∀ kind, s.significant? = some kind → kind.isTrivia = false)
    (ht : significant? (lexer.read s).1 = some t) :
    (lexer.read s).2.regexAllowed = !t.kind.endsValue := by
  unfold Scan.significant? at hCounts
  unfold read at ht ⊢
  cases hScanned : s.scanned with
  | token kind =>
    rw [hScanned] at ht
    obtain ⟨hTrivia, hToken⟩ := Option.ite_none_left_eq_some.mp ht
    obtain rfl := Option.some.inj hToken
    rw [Token.isTrivia, kind_finish, Bool.not_eq_true] at hTrivia
    dsimp only
    rw [kind_finish]
    exact regexAllowed_finish _ _ hTrivia
  | failure problem offset recovered =>
    rw [hScanned] at ht hCounts
    cases recovered with
    | none => cases ht
    | some kind =>
      obtain rfl := Option.some.inj ht
      dsimp only
      rw [kind_finish]
      exact regexAllowed_finish _ _ (hCounts kind rfl)

/-- So it does for the next result. -/
theorem regexAllowed_next {l : Lexer} {t : Token} (ht : significant? l.next.1 = some t) :
    l.next.2.regexAllowed = !t.kind.endsValue := by
  cases hRest : l.skipBlank.cursor.rest with
  | nil =>
    rw [next_of_nil hRest] at ht ⊢
    dsimp only at ht ⊢
    rw [@significant_finish .endOfInput rfl] at ht
    obtain rfl := Option.some.inj ht
    rw [kind_finish]
    exact regexAllowed_finish _ _ rfl
  | cons c rest =>
    rw [next_of_cons hRest] at ht ⊢
    exact regexAllowed_read _ (scan_notices _ _ (unbroken_of_skipBlank hRest) rest).counts ht

/-- What was passed on the way to the token makes no difference. -/
theorem Leads.regexAllowed {l l' : Lexer} {rs : List Result} {t : Token} (h : Leads l rs t l') :
    l'.regexAllowed = !t.kind.endsValue := by
  induction h with
  | here ht => exact regexAllowed_next ht
  | pass _ _ ih => exact ih

/-- A visit that answers was shown the next significant token. -/
theorem Visits.length_le {σ β : Type} {visit : σ → Token → σ ⊕ β} {l l' : Lexer} {state : σ} {b : β}
    {n : Nat} {rs : List Result} {t : Token} (h : Visits visit l state b n)
    (hLeads : Leads l rs t l') : rs.length ≤ n := by
  induction h generalizing rs with
  | @answer l state b hShown =>
    cases hLeads with
    | here => exact Nat.le_refl _
    | pass hNone _ =>
      rw [shown, hNone] at hShown
      cases hShown
  | goOn _ _ ih =>
    cases hLeads with
    | here => exact Nat.succ_le_succ (Nat.zero_le _)
    | pass _ hRest => exact Nat.succ_le_succ (ih hRest)

end Lexer

namespace TokenStream

open Lexer

/-- Streams of two runs at the same place: both have read as far ahead, or both have read no further
than to the next significant token, and a slash there may start a regular expression. -/
structure Akin (l : Lexer) (s s' : TokenStream) : Prop where
  front : s.From l
  front' : s'.From l
  queues : s'.ahead.length = s.ahead.length ∨ l.regexAllowed ∧
    ∀ rs t after, Leads l rs t after → s.ahead.length ≤ rs.length ∧ s'.ahead.length ≤ rs.length

namespace Akin

variable {l : Lexer} {s s' : TokenStream}

theorem refl (h : s.From l) : Akin l s s := ⟨h, h, .inl rfl⟩

/-- Being akin is symmetric. -/
theorem symm (h : Akin l s s') : Akin l s' s :=
  ⟨h.front', h.front, h.queues.imp Eq.symm fun ⟨hRegex, hShort⟩ =>
    ⟨hRegex, fun rs t after hLeads => (hShort rs t after hLeads).symm⟩⟩

/-! ## What both runs do -/

/-- Looking ahead gives the same answer and reads as far in both. -/
theorem survey {σ β : Type} {visit : σ → Token → σ ⊕ β} (hEnd : AnswersAtEnd visit) (state : σ)
    (h : Akin l s s') :
    (s'.survey visit state).1 = (s.survey visit state).1 ∧
      Akin l (s.survey visit state).2 (s'.survey visit state).2 := by
  obtain ⟨b, n, hVisit⟩ := exists_visits hEnd l state
  obtain ⟨hAnswer, hFrom, hLength⟩ := survey_spec hEnd h.front hVisit
  obtain ⟨hAnswer', hFrom', hLength'⟩ := survey_spec hEnd h.front' hVisit
  refine ⟨hAnswer'.trans hAnswer.symm, hFrom, hFrom', .inl ?_⟩
  rw [hLength, hLength']
  rcases h.queues with hSame | ⟨-, hShort⟩
  · rw [hSame]
  · obtain ⟨rs, t, after, hLeads⟩ := exists_leads l
    have hQueues := hShort rs t after hLeads
    have hReached := hVisit.length_le hLeads
    omega

/-- Both streams show the same tokens ahead. -/
theorem peek (n : Nat) (h : Akin l s s') :
    (s'.peek n).1 = (s.peek n).1 ∧ Akin l (s.peek n).2 (s'.peek n).2 :=
  h.survey answersAtEnd_passing n

/-- Both streams see the same arrow. -/
theorem closesBeforeArrow (h : Akin l s s') :
    s'.closesBeforeArrow.1 = s.closesBeforeArrow.1 ∧
      Akin l s.closesBeforeArrow.2 s'.closesBeforeArrow.2 := by
  obtain ⟨hSame, hAkin⟩ := h.survey answersAtEnd_closing 1
  exact ⟨congrArg (Option.getD · false) hSame, hAkin⟩

/-- After the next significant token was pulled from both, the queues have the same length. -/
theorem pulled {rs : List Result} {t : Token} {after : Lexer} {u u' : TokenStream} (h : Akin l s s')
    (hLeads : Leads l rs t after) (hu : u.From after) (hu' : u'.From after)
    (hQueue : u.ahead.length = s.ahead.length - rs.length)
    (hQueue' : u'.ahead.length = s'.ahead.length - rs.length) : Akin after u u' := by
  refine ⟨hu, hu', .inl ?_⟩
  rw [hQueue, hQueue']
  rcases h.queues with hSame | ⟨-, hShort⟩
  · rw [hSame]
  · have hQueues := hShort rs t after hLeads
    omega

/-- A lexer that already allows a regular expression stays as it is. -/
theorem allowRegex_eq (h : l.regexAllowed) : l.allowRegex = l := by
  unfold Lexer.allowRegex
  rw [← h]

/-- Where a slash may start a regular expression, letting it do so changes nothing that is handed
out. -/
theorem allowRegex_allowed (hRegex : l.regexAllowed) (h : s.From l) :
    s.allowRegex.From l ∧ s.allowRegex.ahead.length ≤ s.ahead.length := by
  obtain ⟨n, r, hPasses⟩ := exists_passesTo l
  obtain ⟨hAgain, hSame⟩ := allowRegex_spec h hPasses
  by_cases hRead : s.ahead.length ≤ n ∨ divides r
  · obtain ⟨hFrom, hLength⟩ := hAgain hRead
    rw [allowRegex_eq hRegex] at hFrom
    exact ⟨hFrom, hLength ▸ Nat.min_le_left _ _⟩
  · rw [not_or, Nat.not_le, Bool.not_eq_true] at hRead
    rw [hSame hRead.1 hRead.2]
    exact ⟨h, Nat.le_refl _⟩

/-- A slash is read again in both streams or in neither. -/
theorem allowRegex (h : Akin l s s') :
    ∃ l', Akin l' s.allowRegex s'.allowRegex ∧ (l.regexAllowed → l'.regexAllowed) := by
  rcases h.queues with hLengths | ⟨hRegex, hShort⟩
  · obtain ⟨n, r, hPasses⟩ := exists_passesTo l
    obtain ⟨hAgain, hSame⟩ := allowRegex_spec h.front hPasses
    obtain ⟨hAgain', hSame'⟩ := allowRegex_spec h.front' hPasses
    rw [hLengths] at hAgain' hSame'
    by_cases hRead : s.ahead.length ≤ n ∨ divides r
    · obtain ⟨hFrom, hLength⟩ := hAgain hRead
      obtain ⟨hFrom', hLength'⟩ := hAgain' hRead
      exact ⟨l.allowRegex, ⟨hFrom, hFrom', .inl (hLength'.trans hLength.symm)⟩, fun _ => rfl⟩
    · rw [not_or, Nat.not_le, Bool.not_eq_true] at hRead
      rw [hSame hRead.1 hRead.2, hSame' hRead.1 hRead.2]
      exact ⟨l, h, id⟩
  · obtain ⟨hFrom, hLength⟩ := allowRegex_allowed hRegex h.front
    obtain ⟨hFrom', hLength'⟩ := allowRegex_allowed hRegex h.front'
    refine ⟨l, ⟨hFrom, hFrom', .inr ⟨hRegex, fun rs t after hLeads => ?_⟩⟩, id⟩
    have hQueues := hShort rs t after hLeads
    omega

/-! ## What only one of the runs does -/

/-- Only the second run looks at the next token. -/
theorem peekRight (hRegex : l.regexAllowed) (h : Akin l s s') : Akin l s (s'.peek 0).2 := by
  obtain ⟨rs, t, after, hLeads⟩ := exists_leads l
  have hVisit {rs : List Result} {t : Token} {after : Lexer} (hLeads : Leads l rs t after) :
      Visits passing l 0 t rs.length := hLeads.visits rfl
  obtain ⟨-, hFrom, hLength⟩ := peek_spec h.front' (hVisit hLeads)
  refine ⟨h.front, hFrom, ?_⟩
  have hUnique {rs' : List Result} {t' : Token} {after' : Lexer} (hLeads' : Leads l rs' t' after') :
      rs'.length = rs.length :=
    Nat.le_antisymm ((hVisit hLeads).length_le hLeads') ((hVisit hLeads').length_le hLeads)
  rcases h.queues with hSame | ⟨-, hShort⟩
  · by_cases hReached : rs.length ≤ s'.ahead.length
    · exact .inl (by omega)
    · refine .inr ⟨hRegex, fun rs' t' after' hLeads' => ?_⟩
      rw [hUnique hLeads']
      omega
  · refine .inr ⟨hRegex, fun rs' t' after' hLeads' => ?_⟩
    have hQueues := hShort rs t after hLeads
    rw [hUnique hLeads']
    omega

end Akin

end TokenStream

end ScriptLint
