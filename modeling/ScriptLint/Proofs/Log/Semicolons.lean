import ScriptLint.Proofs.Log.Strides

/-!
# Where a semicolon is missing

A statement that is not ended by a semicolon is reported behind the token before. The place is put
together from two ends of that token: the line where it starts, and the column where it ends.

- `Session.unended?`: what is reported where no semicolon ends a statement.
- `Parse.finishStatement_apply`: what ending a statement comes to.
- `Position.line_within_eq_iff`: two offsets lie on one line exactly if no line breaks between them.
- `missing_semicolon_place`: the place in the source where a missing semicolon is reported.
-/

namespace ScriptLint

open Parse Lexer

/-- What is reported where no semicolon ends a statement. One may be inserted before a line break, a
closing brace or the end of input, or anywhere if `always` says so. -/
def Session.unended? (always : Bool) (s : Session) : Option Finding :=
  let closesBlock := s.token.isPunctuator .rightBrace
  if always || s.token.newlineBefore || s.token.isEnd || closesBlock then
    let tolerated := closesBlock && !s.token.newlineBefore && s.layers.enabled .lastsemic
    if tolerated || s.layers.enabled .asi then none else some .missingSemicolon
  else some .uninsertableSemicolon

/-- A missing semicolon is what is reported, and nothing else. -/
theorem Session.code_of_unended? {always : Bool} {s : Session} {f : Finding}
    (h : s.unended? always = some f) : f.code = "W033" ∨ f.code = "E058" := by
  unfold unended? at h
  dsimp only at h
  split at h
  · split at h
    · cases h
    · exact .inl (Option.some.inj h ▸ rfl)
  · exact .inr (Option.some.inj h ▸ rfl)

namespace Parse

variable {s : Session}

/-- A punctuator that is there is advanced over. -/
theorem eat_of_isPunctuator {p : Punctuator} (h : s.token.isPunctuator p) {α : Type}
    (f : Bool → Parse α) : (eat p >>= f) s = (advance >>= fun _ => f true) s := by
  have hEat : eat p s = (advance >>= fun _ => pure true) s := by
    show (if s.token.isPunctuator p then _ else _ : Parse Bool) s = _
    rw [if_pos h]
  cases hr : advance s with
  | ok u t =>
    rw [bind_of_ok hr] at hEat ⊢
    exact bind_of_ok hEat
  | error e t =>
    rw [bind_of_error hr] at hEat ⊢
    exact bind_of_error hEat

/-- One that is not there leaves the session as it is. -/
theorem eat_of_not_isPunctuator {p : Punctuator} (h : s.token.isPunctuator p = false) :
    eat p s = .ok false s := by
  show (if s.token.isPunctuator p then _ else _ : Parse Bool) s = _
  rw [if_neg (Bool.eq_false_iff.mp h)]
  rfl

/-- A semicolon is consumed. Otherwise a missing one is reported, if it is, on the line where the
token before starts and in the column where it ends. -/
theorem finishStatement_apply (always : Bool) (s : Session) :
    finishStatement always s =
      if s.token.isPunctuator .semicolon then advance s
      else match s.unended? always with
        | none => .ok () s
        | some f => emit (f.diagnostic s.previous.line s.previous.endColumn) s := by
  split
  · next h =>
    rw [finishStatement, eat_of_isPunctuator h]
    cases hr : advance s with
    | ok u t => exact bind_of_ok hr
    | error e t => exact bind_of_error hr
  · next h =>
    rw [finishStatement, bind_of_ok (eat_of_not_isPunctuator (Bool.eq_false_iff.mpr h)),
      Bool.not_false, if_pos rfl, get_bind_apply]
    unfold Session.unended?
    dsimp only
    split
    · cases s.token.isPunctuator .rightBrace && !s.token.newlineBefore &&
        s.layers.enabled .lastsemic with
      | true => rfl
      | false =>
        show (if (!s.layers.enabled .asi) = true then _ else _ : Parse Unit) s = _
        cases s.layers.enabled .asi with
        | true => rfl
        | false => rfl
    · rfl

end Parse

/-! ## Places on one line -/

namespace Position

variable (text : List Char) (start count : Nat)

/-- A line more for each break on the way. -/
theorem line_within_add : (within text (start + count)).line =
    (within text start).line + (List.range count).countP fun n => breaksAt text (start + n) := by
  have hSplit : (List.range (start + count)).countP (breaksAt text) =
      (List.range start).countP (breaksAt text) + (List.range count).countP fun n =>
        breaksAt text (start + n) := by
    rw [List.range_add, List.countP_append, List.countP_map]
    rfl
  show 1 + _ = 1 + _ + _
  rw [hSplit, Nat.add_assoc]

/-- Two offsets lie on one line exactly if no line breaks between them. -/
theorem line_within_eq_iff : (within text start).line = (within text (start + count)).line ↔
    ∀ n < count, breaksAt text (start + n) = false := by
  have hNone : (List.range count).countP (fun n => breaksAt text (start + n)) = 0 ↔
      ∀ n < count, breaksAt text (start + n) = false := by
    simp [List.countP_eq_zero]
  rw [line_within_add, ← hNone]
  omega

end Position

/-! ## Runs -/

/-- The place where a missing semicolon is reported, at every session of a run. The column is the
one right behind the last character of the token before, the line is the one where that token
starts. This is the place behind the token exactly if no line breaks within it. -/
theorem missing_semicolon_place {source : String} {options : Options}
    {globals : Option Predefined.Globals}
    {s : Session} (h : s.InRun source options globals) (always : Bool) :
    let begun := Position.within source.toList s.previous.offset
    let ended := Position.within source.toList s.previous.ending
    s.previous.raw.toList = slice source.toList s.previous.offset s.previous.ending ∧
      finishStatement always s =
        (if s.token.isPunctuator .semicolon then advance s
        else match s.unended? always with
          | none => .ok () s
          | some f => emit (f.diagnostic begun.line ended.column) s) ∧
      (∀ f, s.unended? always = some f → f.code = "W033" ∨ f.code = "E058") ∧
      (begun.line = ended.line ↔
        ∀ offset, s.previous.offset ≤ offset → offset < s.previous.ending →
          breaksAt source.toList offset = false) := by
  intro begun ended
  have hLies := h.quotes.previous
  refine ⟨hLies.raw, ?_, fun _ => Session.code_of_unended?, ?_⟩
  · have hLine : s.previous.line = begun.line := congrArg Position.line hLies.place
    rw [finishStatement_apply, hLine, hLies.ending]
  · rw [show begun.line = ended.line ↔ _ from Position.line_within_eq_iff ..]
    constructor
    · intro hNone offset hFirst hLast
      have hOffset := hNone (offset - s.previous.offset) (by rw [Token.ending] at hLast; omega)
      rwa [Nat.add_sub_cancel' hFirst] at hOffset
    · exact fun hNone n hn => hNone _ (Nat.le_add_right _ n) (Nat.add_lt_add_left hn _)

/-- Behind a template that goes on in the next line, the line above is reported. -/
theorem missing_semicolon_place_template :
    let source := "x = \x60a\nb\x60 y"
    ∃ s : Session, s.InRun source {} none ∧ s.unended? false = some .uninsertableSemicolon ∧
      finishStatement false s = emit (Finding.uninsertableSemicolon.diagnostic 1 3) s ∧
      Position.within source.toList s.previous.ending = ⟨2, 3, 9⟩ := by
  intro source
  let first := Session.start source {} none
  let toTemplate : Parse Unit := do advance; advance; advance; advance
  have hThere : leadsTo toTemplate (fun t => t.token.isPunctuator .semicolon = false &&
      t.unended? false = some .uninsertableSemicolon && t.previous.offset = 4 && t.previous.ending =
        9) first := by
    decide +kernel
  obtain ⟨_, t, hr, hThere⟩ := exists_of_leadsTo hThere
  obtain ⟨_, s₁, h₁, hr⟩ := exists_of_bind hr
  obtain ⟨_, s₂, h₂, hr⟩ := exists_of_bind hr
  obtain ⟨_, s₃, h₃, hr⟩ := exists_of_bind hr
  have hFirst : first.InRun source {} none := ⟨first, rfl, .refl⟩
  have hRun : t.InRun source {} none := (((hFirst.advance h₁).advance h₂).advance h₃).advance hr
  simp only [Bool.and_eq_true, decide_eq_true_eq] at hThere
  obtain ⟨⟨⟨hOther, hUnended⟩, hOffset⟩, hEnding⟩ := hThere
  obtain ⟨-, hFinish, -⟩ := missing_semicolon_place hRun false
  rw [hOther, hUnended, hOffset, hEnding] at hFinish
  refine ⟨t, hRun, hUnended, hFinish.trans ?_, ?_⟩
  · exact congrArg (emit · t) (by decide)
  · rw [hEnding]
    decide

end ScriptLint
