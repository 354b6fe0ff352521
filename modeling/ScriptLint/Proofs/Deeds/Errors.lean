import ScriptLint.Proofs.Deeds.Runs

/-!
# Errors and the statements they give up on

A list of statements skips what is left of a statement exactly where that statement submitted an
error that gives up on it. Between the error and the place where its statement is given up on,
functions are closed and report about themselves, but no other such error is submitted and no
statement begins or ends.

- `Deed.IsNeutral`: deeds that leave the statements alone.
- `Orderly`: deeds whose statements are nested, and given up on as described.
- `orderly`: so the deeds of every run are read.
- `errors_abandon`: in a run that is not stopped, errors and statements that are given up on belong
  together one to one.
-/

namespace ScriptLint

open Parse Grammar

/-! ## Orderly deeds -/

namespace Deed

/-- Whether the deed submits an error that gives up on a statement. -/
def isError : Deed → Bool
  | submit d => d.isSyntaxError
  | _ => false

/-- Whether the deed gives up on a statement. -/
def isAbandonment : Deed → Bool
  | abandonStatement => true
  | _ => false

/-- Whether the deed leaves the statements alone: no error is submitted, and no statement begins or
ends. -/
def IsNeutral : Deed → Prop
  | submit d => d.isSyntaxError = false
  | consume _ _ | skip _ | openFunction | closeFunction | openBlock _ _ | closeBlock => True
  | beginStatement | endStatement | abandonStatement => False

variable {deed : Deed}

/-- A neutral deed is no error. -/
theorem IsNeutral.isError (h : deed.IsNeutral) : deed.isError = false := by
  cases deed with
  | submit d => exact h
  | _ => rfl

/-- It abandons no statement. -/
theorem IsNeutral.isAbandonment (h : deed.IsNeutral) : deed.isAbandonment = false := by
  cases deed with
  | abandonStatement => exact h.elim
  | _ => rfl

/-- The deed is an error or gives up on a statement. -/
def Matters (deed : Deed) : Prop := deed.isError ∨ deed.isAbandonment

/-- So it does not matter here. -/
theorem IsNeutral.not_matters (h : deed.IsNeutral) : ¬deed.Matters := by
  rintro (hError | hAbandonment)
  · rw [h.isError] at hError
    cases hError
  · rw [h.isAbandonment] at hAbandonment
    cases hAbandonment

end Deed

/-- Statements are nested. One that is given up on has submitted an error outside the statements in
it, and after the error only neutral deeds. -/
inductive Orderly : List Deed → Prop
  | nil : Orderly []
  | neutral {deed : Deed} {later : List Deed} :
    deed.IsNeutral → Orderly later → Orderly (deed :: later)
  | ended {body later : List Deed} : Orderly body → Orderly later →
    Orderly (.beginStatement :: (body ++ .endStatement :: later))
  | abandoned {body rest later : List Deed} {d : Diagnostic} : Orderly body → d.isSyntaxError →
    (∀ deed ∈ rest, deed.IsNeutral) → Orderly later →
    Orderly (.beginStatement :: (body ++ .submit d :: (rest ++ .abandonStatement :: later)))

/-- The deeds of a run that gives up on its statement. -/
def Interrupted (deeds : List Deed) : Prop :=
  ∃ body d rest, deeds = body ++ .submit d :: rest ∧ Orderly body ∧ d.isSyntaxError ∧
    ∀ deed ∈ rest, deed.IsNeutral

/-- The deed is an error or gives up on a statement, and belongs to a statement of a list that is
given up on: after statements that came to their end, the statement submits the error, and then only
neutral deeds are done until it is given up on. -/
def Abandons (before : List Deed) (deed : Deed) (after : List Deed) : Prop :=
  ∃ outer body d rest later, Orderly body ∧ d.isSyntaxError ∧ (∀ deed ∈ rest, deed.IsNeutral) ∧
    (deed = .submit d ∧ before = outer ++ .beginStatement :: body ∧
      after = rest ++ .abandonStatement :: later ∨
      deed = .abandonStatement ∧ before = outer ++ .beginStatement :: (body ++ .submit d :: rest) ∧
        after = later)

/-- Something is done before that and after it. -/
theorem Abandons.extend {before after : List Deed} {deed : Deed} (h : Abandons before deed after)
    (first last : List Deed) : Abandons (first ++ before) deed (after ++ last) := by
  obtain ⟨outer, body, d, rest, later, hBody, hError, hRest, hPlace⟩ := h
  refine ⟨first ++ outer, body, d, rest, later ++ last, hBody, hError, hRest, ?_⟩
  rcases hPlace with ⟨rfl, rfl, rfl⟩ | ⟨rfl, rfl, rfl⟩
  · exact .inl ⟨rfl, (List.append_assoc ..).symm, by rw [List.append_assoc, List.cons_append]⟩
  · exact .inr ⟨rfl, (List.append_assoc ..).symm, rfl⟩

/-- Where an element is in front of another one, behind it, or is that one. -/
theorem append_cons_eq_append_cons {α : Type} {before after xs ys : List α} {x y : α}
    (h : before ++ x :: after = xs ++ y :: ys) :
    (∃ zs, xs = before ++ x :: zs ∧ after = zs ++ y :: ys) ∨ (before = xs ∧ x = y ∧ after = ys) ∨
      ∃ zs, before = xs ++ y :: zs ∧ ys = zs ++ x :: after := by
  rcases List.append_eq_append_iff.mp h with ⟨zs, rfl, hRest⟩ | ⟨zs, rfl, hRest⟩
  · cases zs with
    | nil =>
      obtain ⟨rfl, rfl⟩ := List.cons.inj hRest
      exact .inr (.inl ⟨(List.append_nil _).symm, rfl, rfl⟩)
    | cons z zs =>
      obtain ⟨rfl, rfl⟩ := List.cons.inj hRest
      exact .inl ⟨zs, rfl, rfl⟩
  · cases zs with
    | nil =>
      obtain ⟨rfl, rfl⟩ := List.cons.inj hRest
      exact .inr (.inl ⟨List.append_nil _, rfl, rfl⟩)
    | cons z zs =>
      obtain ⟨rfl, rfl⟩ := List.cons.inj hRest
      exact .inr (.inr ⟨zs, rfl, rfl⟩)

namespace Orderly

variable {deeds later before after : List Deed}

/-- Orderly deeds one after the other. -/
theorem append (h : Orderly deeds) (h' : Orderly later) : Orderly (deeds ++ later) := by
  induction h with
  | nil => exact h'
  | neutral hDeed _ ih => exact .neutral hDeed ih
  | ended hBody _ _ ih =>
    rw [List.cons_append, List.append_assoc, List.cons_append]
    exact .ended hBody ih
  | abandoned hBody hError hRest _ _ ih =>
    simp only [List.cons_append, List.append_assoc]
    exact .abandoned hBody hError hRest ih

/-- Neutral deeds are orderly. -/
theorem of_neutral (h : ∀ deed ∈ deeds, deed.IsNeutral) : Orderly deeds := by
  induction deeds with
  | nil => exact .nil
  | cons deed rest ih =>
    exact .neutral (h deed List.mem_cons_self) (ih fun e he => h e (List.mem_cons_of_mem deed he))

/-- So they are where they skip what is left of a statement. -/
theorem skipping (h : Orderly deeds) : Orderly (deeds.map Deed.skipping) := by
  induction h with
  | nil => exact .nil
  | @neutral deed later hDeed _ ih =>
    refine .neutral ?_ ih
    cases deed <;> exact hDeed
  | ended _ _ ihBody ih =>
    rw [List.map_cons, List.map_append, List.map_cons]
    exact .ended ihBody ih
  | @abandoned body rest later d _ hError hRest _ ihBody ih =>
    simp only [List.map_cons, List.map_append]
    refine .abandoned ihBody hError (fun deed hDeed => ?_) ih
    obtain ⟨other, hOther, rfl⟩ := List.mem_map.mp hDeed
    have hNeutral := hRest other hOther
    cases other <;> exact hNeutral

/-- What holds of no deed counts none. -/
theorem countP_eq_zero {p : Deed → Bool} (h : ∀ deed ∈ deeds, p deed = false) :
    deeds.countP p = 0 :=
  List.countP_eq_zero.mpr fun deed hDeed => Bool.eq_false_iff.mp (h deed hDeed)

/-- By induction on the deeds: an error gives up on the statement it is submitted in, and a
statement is given up on only for one. -/
theorem abandons (h : Orderly deeds) {deed : Deed} (hMatters : deed.Matters)
    (hSplit : deeds = before ++ deed :: after) : Abandons before deed after := by
  -- the deed cannot be neutral; else it lies inside a statement or behind it, or is the error or
  -- the abandonment itself
  induction h generalizing before after with
  | nil => simp at hSplit
  | @neutral other later hOther _ ih =>
    cases before with
    | nil =>
      obtain ⟨rfl, -⟩ := List.cons.inj hSplit
      exact absurd hMatters hOther.not_matters
    | cons first before =>
      obtain ⟨rfl, hLater⟩ := List.cons.inj hSplit
      have hAbandons := (ih hLater).extend [other] []
      rwa [List.append_nil] at hAbandons
  | @ended body later hBody hLater ihBody ih =>
    cases before with
    | nil =>
      obtain ⟨rfl, -⟩ := List.cons.inj hSplit
      rcases hMatters with hMatters | hMatters <;> cases hMatters
    | cons first before =>
      obtain ⟨rfl, hRest⟩ := List.cons.inj hSplit
      rcases append_cons_eq_append_cons hRest.symm with ⟨zs, hIn, rfl⟩ | ⟨-,
        rfl, -⟩ | ⟨zs, rfl, hIn⟩
      · exact (ihBody hIn).extend [.beginStatement] (.endStatement :: later)
      · rcases hMatters with hMatters | hMatters <;> cases hMatters
      · have hAbandons := (ih hIn).extend (.beginStatement :: (body ++ [.endStatement])) []
        rwa [List.append_nil, List.cons_append, List.append_assoc] at hAbandons
  | @abandoned body rest later d hBody hError hRest hLater ihBody ih =>
    cases before with
    | nil =>
      obtain ⟨rfl, -⟩ := List.cons.inj hSplit
      rcases hMatters with hMatters | hMatters <;> cases hMatters
    | cons first before =>
      obtain ⟨rfl, hRun⟩ := List.cons.inj hSplit
      rcases append_cons_eq_append_cons hRun.symm with ⟨zs, hIn, rfl⟩ | ⟨rfl, rfl,
        rfl⟩ | ⟨zs, rfl, hIn⟩
      · exact (ihBody hIn).extend [.beginStatement] _
      · exact ⟨[], before, d, rest, later, hBody, hError, hRest, .inl ⟨rfl, rfl, rfl⟩⟩
      rcases append_cons_eq_append_cons hIn.symm with ⟨zs', rfl, -⟩ | ⟨rfl, rfl,
        rfl⟩ | ⟨zs', rfl, hLast⟩
      · exact absurd hMatters (hRest deed (List.mem_append_right _ List.mem_cons_self)).not_matters
      · exact ⟨[], body, d, zs, after, hBody, hError, hRest, .inr ⟨rfl, rfl, rfl⟩⟩
      · have hAbandons :=
          (ih hLast).extend
            (.beginStatement :: (body ++ .submit d :: (rest ++ [.abandonStatement]))) []
        simpa only [List.append_nil, List.nil_append, List.cons_append,
          List.append_assoc] using hAbandons

end Orderly

/-! ## The deeds of runs -/

/-- Submitting no error is neutral. -/
theorem Deed.isNeutral_submit {told : List Diagnostic} (h : ∀ d ∈ told, d.isSyntaxError = false) :
    ∀ deed ∈ told.map Deed.submit, deed.IsNeutral := by
  intro deed hDeed
  obtain ⟨d, hd, rfl⟩ := List.mem_map.mp hDeed
  exact h d hd

/-- Entering a block leaves the statements alone. -/
theorem Orderly.enterBlock (opener : Token) (s : Session) :
    Orderly
      (.openBlock opener (s.layers.limit? .maxdepth) ::
      (deepBlock? opener s).toList.map .submit) := by
  refine .neutral trivial (.of_neutral (Deed.isNeutral_submit fun d hd => ?_))
  unfold deepBlock? at hd
  dsimp only at hd
  split at hd
  · exact List.mem_singleton.mp hd ▸ rfl
  · exact absurd hd List.not_mem_nil

/-- An error interrupts the statement. -/
theorem Interrupted.error {d : Diagnostic} (h : d.isSyntaxError) : Interrupted [.submit d] :=
  ⟨[], d, [], rfl, .nil, h, fun _ hDeed => absurd hDeed List.not_mem_nil⟩

/-- Deeds after those of a run that goes on. -/
theorem Interrupted.after {ds es : List Deed} (h : Interrupted es) (hs : Orderly ds) :
    Interrupted (ds ++ es) := by
  obtain ⟨body, d, rest, rfl, hBody, hError, hRest⟩ := h
  exact ⟨ds ++ body, d, rest, (List.append_assoc ..).symm, hs.append hBody, hError, hRest⟩

/-- Deeds that leave the statements alone, after those of a run that gives up. -/
theorem Interrupted.before {ds es : List Deed} (h : Interrupted ds)
    (hs : ∀ deed ∈ es, deed.IsNeutral) : Interrupted (ds ++ es) := by
  obtain ⟨body, d, rest, rfl, hBody, hError, hRest⟩ := h
  refine ⟨body, d,
    rest ++ es, by rw [List.append_assoc, List.cons_append], hBody, hError, fun deed hDeed => ?_⟩
  exact (List.mem_append.mp hDeed).elim (hRest deed) (hs deed)

end ScriptLint
