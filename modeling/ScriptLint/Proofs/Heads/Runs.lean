import ScriptLint.Proofs.Balance
import ScriptLint.Proofs.Heads.Sessions
import ScriptLint.Proofs.Lexer.Lookahead
import ScriptLint.Proofs.Unwinding

/-!
# One run follows the other

Where a parser succeeds on the expression in a statement, and finishes no function there, it
succeeds on the same expression in the head of a loop and leaves the two sessions abreast again.

- `Remembers`: what a parser leaves listed of the finished functions; `Finishes`: it lists one more.
- `Portable`: values that may differ between the two runs, in places and columns.
- `Tracks`: one run follows the other from one relation of sessions to another.
- The lemmas after it are the rules: in general, then for sessions at the same token.
-/

namespace ScriptLint.Heads

open Parse Grammar

/-! ## Finished functions -/

/-- The contract to finish no function. -/
def listing : Contract where
  Goes s t := t.metrics.finished = s.metrics.finished
  Stops _ _ := True
  refl _ := rfl
  trans h h' := h'.trans h
  stop _ _ := trivial

/-- A report finishes no function. -/
theorem listing_emit (d : Diagnostic) : Resolves listing (emit d) :=
  fun s => (staying_emit d s).imp (fun _ => Session.finished_of_bearing) fun _ _ => trivial

/-- The steps of the grammar finish no function. -/
theorem listing_steps : listing.Steppable where
  emit _ := (listing_emit _).keeps
  moved := by
    rintro s t ⟨_, _, _, _, _, _, _, rfl⟩
    rfl
  layers _ := rfl
  scopes _ := rfl
  ignores _ := rfl
  flushScopes :=
    (Resolves.read fun _ => .bind (.modify fun _ => rfl) fun _ => .forM fun _ _ =>
      listing_emit _).keeps
  count _ := listing.modify fun _ => rfl
  setHint _ := listing.modify fun _ => rfl
  makeStrict := listing.modify fun _ => rfl

section

variable {α β : Type} {p q : Parse α} {s t : Session}

/-- If no function is finished after the parser, none was before it. -/
def Remembers (p : Parse α) : Prop :=
  ∀ s a t, p s = .ok a t → t.metrics.finished = [] → s.metrics.finished = []

/-- A function is finished after the parser. -/
def Finishes (p : Parse α) : Prop := ∀ s a t, p s = .ok a t → t.metrics.finished ≠ []

namespace Remembers

theorem pure (a : α) : Remembers (pure a : Parse α) := by
  rintro s b t ⟨⟩ h
  exact h

/-- Finished functions stay finished. -/
theorem bind {f : α → Parse β} (hp : Remembers p) (hf : ∀ a, Remembers (f a)) :
    Remembers (p >>= f) := by
  intro s b u h hu
  obtain ⟨a, t, ht, hRest⟩ := exists_of_bind h
  exact hp s a t ht (hf a t b u hRest hu)

/-- What finishes no function remembers those finished. -/
theorem of_listing (h : listing.Keeps p) : Remembers p := by
  intro s a t ht hDone
  have hStep := h s
  rw [ht] at hStep
  exact hStep.symm.trans hDone

end Remembers

namespace Finishes

/-- What finishes a function remembers it. -/
theorem remembers (h : Finishes p) : Remembers p := fun s a t ht hNone => absurd hNone (h s a t ht)

/-- What is finished first stays finished. -/
theorem bind {f : α → Parse β} (hp : Finishes p) (hf : ∀ a, Remembers (f a)) :
    Finishes (p >>= f) := by
  intro s b u h hu
  obtain ⟨a, t, ht, hRest⟩ := exists_of_bind h
  exact hp s a t ht (hf a t b u hRest hu)

/-- A parser that finishes a function last finishes one. -/
theorem after {f : α → Parse β} (hf : ∀ a, Finishes (f a)) : Finishes (p >>= f) := by
  intro s b u h
  obtain ⟨a, t, -, hRest⟩ := exists_of_bind h
  exact hf a t b u hRest

end Finishes

end

/-! ### Functions -/

/-- Closing a function drops none. -/
theorem finished_closeFunction {m : Metrics} (h : m.closeFunction.finished = []) :
    m.finished = [] := by
  unfold Metrics.closeFunction at h
  split at h
  · exact h
  · cases (List.append_eq_nil_iff.mp h).2

/-- Closing a function closes it in the metrics, in any outcome. -/
theorem metrics_left_closeFunction (line column : Nat) (s : Session) :
    (left (closeFunction line column s)).metrics = s.metrics.closeFunction := by
  obtain ⟨_, _, _, hLeft, -⟩ := closeFunction_left line column s
  rw [hLeft]
  rfl

/-- No change of a run takes a finished function away. -/
theorem finished_of_moves {s t : Session} (h : s.Moves t) (ht : t.metrics.finished = []) :
    s.metrics.finished = [] := by
  cases h with
  | step h hRun => exact Remembers.of_listing (listing_steps.step h) _ _ _ hRun ht
  | peek => exact ht
  | fails h =>
    obtain ⟨_, p, h, hRun⟩ := h
    have hStep := listing_steps.step h s
    rw [hRun] at hStep
    exact hStep.symm.trans ht
  | enters h =>
    cases h with
    | block opener h =>
      have hBlock : Resolves listing (enterBlock opener) :=
        .bind (.modify fun _ => rfl) fun _ => .read fun _ => .ite _ (listing_emit _) (.pure ())
      exact Remembers.of_listing hBlock.keeps _ _ _ h ht
    | overlay h =>
      obtain ⟨-, rfl⟩ := EStateM.Result.ok.inj h
      exact ht
    | _ => exact ht
  | leaves h =>
    cases h with
    | function line column =>
      exact finished_closeFunction (metrics_left_closeFunction line column s ▸ ht)
    | _ => exact ht

/-- What runs its course forgets no function. -/
theorem Remembers.of_courses {α : Type} {p : Parse α} (h : Courses p) : Remembers p := by
  intro s a t ht hNone
  have hCourse := h s
  rw [ht] at hCourse
  have hRun : s.Reaches t := hCourse.reaches
  clear ht hCourse
  induction hRun using Relation.ReflTransGen.head_induction_on with
  | refl => exact hNone
  | head hMove _ ih => exact finished_of_moves hMove ih

/-- A function that is closed is finished. -/
theorem finishes_insideFunction {inner : Nested} (h : balanced.Nested inner inner)
    (kind : FunctionKind) (name : Option String) (line column : Nat) :
    Finishes
      (insideFunction kind name line column (functionParts inner kind name line column)) := by
  intro s braced u hRun hNone
  -- a function finished on the way would not be forgotten, so there was none
  cases hParts :
    functionParts inner kind name line column (withFunction s kind name line column) with
  | error e t =>
    rw [insideFunction_of_error hParts] at hRun
    cases hRun
  | ok b t =>
    rw [insideFunction_of_ok hParts] at hRun
    obtain ⟨⟨⟩, v, hClose, hLast⟩ := exists_of_bind hRun
    cases hLast
    have hStanding := h.functionParts kind name line column (withFunction s kind name line column)
    rw [hParts] at hStanding
    obtain ⟨o, ho⟩ := hStanding.1 rfl
    -- the function is open until it is closed
    have hOpen : t.metrics.opened.below = s.metrics.opened.toList := congrArg Standing.functions ho
    have hMetrics := metrics_left_closeFunction line column t
    rw [hClose] at hMetrics
    have hClosed : t.metrics.closeFunction.finished = [] := hMetrics ▸ hNone
    unfold Metrics.closeFunction Metrics.innermost? Stack.isBottom at hClosed
    rw [hOpen] at hClosed
    exact absurd hClosed (by simp [Stack.toList])

/-- So is a function with its closing brace. -/
theorem finishes_function {inner : Nested} (h : balanced.Nested inner inner) (kind : FunctionKind)
    (name : Option String) (line column : Nat) :
    Finishes (function inner kind name line column) := by
  -- the closing brace finishes nothing
  have hExpect : listing.Keeps (expect .rightBrace) := by
    refine listing.read fun s => listing.ite _ listing_steps.advance ?_
    exact listing.read fun _ => listing.read fun _ => listing_steps.failAt _ rfl
  have hBrace : Remembers (closingBrace kind) := by
    refine .of_listing (listing.read fun s => listing.ite _ ?_ hExpect)
    exact listing_steps.step .advanceToStatement
  have hRest : Finishes (do
      let braced ← insideFunction kind name line column (functionParts inner kind name line column)
      if braced then closingBrace kind) := by
    refine .bind (finishes_insideFunction h kind name line column) fun braced => ?_
    cases braced with
    | true => exact hBrace
    | false => exact .pure ()
  intro s u t hRun
  change (if _ then _ else _ : Parse Unit) s = _ at hRun
  split at hRun
  · exact Finishes.after (fun _ => hRest) s u t hRun
  · exact hRest s u t hRun

/-! ## Values -/

/-- Values of one run that stand for values of the other. -/
class Portable (α : Type) where
  Carried : α → α → Prop
  exists_carried (a : α) : ∃ a', Carried a a'

export Portable (Carried)

instance : Portable Unit := ⟨fun _ _ => True, fun _ => ⟨(), trivial⟩⟩

instance : Portable Bool := ⟨fun b b' => b' = b, fun b => ⟨b, rfl⟩⟩

/-- Nothing that follows depends on the texts of keys. -/
instance : Portable String := ⟨fun _ _ => True, fun name => ⟨name, trivial⟩⟩

instance : Portable Token where
  Carried := Token.Moved
  exists_carried t :=
    ⟨{ t with start := { t.start with offset := t.start.offset + headStart } }, rfl, rfl, rfl, rfl⟩

/-- Expressions of the same form; they start at other columns. -/
structure SameForm (e e' : Summary) : Prop where
  form : e'.form = e.form
  parenthesized : e'.parenthesized = e.parenthesized

instance : Portable Summary := ⟨SameForm, fun e => ⟨e, rfl, rfl⟩⟩

instance {α : Type} [Portable α] : Portable (Option α) where
  Carried := Option.Rel Carried
  exists_carried
    | none => ⟨none, .none⟩
    | some a => (Portable.exists_carried a).imp' some fun _ => .some

instance {α β : Type} [Portable α] [Portable β] : Portable (α × β) where
  Carried p p' := Carried p.1 p'.1 ∧ Carried p.2 p'.2
  exists_carried p := by
    obtain ⟨a, ha⟩ := Portable.exists_carried p.1
    obtain ⟨b, hb⟩ := Portable.exists_carried p.2
    exact ⟨(a, b), ha, hb⟩

/-- Both rounds are the last one, or neither is. -/
inductive SameRound {α : Type} [Portable α] : Round α → Round α → Prop
  | again {a a' : α} : Carried a a' → SameRound (.again a) (.again a')
  | done {a a' : α} : Carried a a' → SameRound (.done a) (.done a')

instance {α : Type} [Portable α] : Portable (Round α) where
  Carried := SameRound
  exists_carried
    | .again a => (Portable.exists_carried a).imp' .again fun _ => .again
    | .done a => (Portable.exists_carried a).imp' .done fun _ => .done

/-! ## Following -/

/-- Where the first parser succeeds and no function is finished, the second one succeeds too. -/
structure Tracks {α : Type} [Portable α] (P : Session → Session → Prop) (p p' : Parse α)
    (R : α → Session → Session → Prop) : Prop where
  remembers : Remembers p
  follows : ∀ s s' a t, P s s' → p s = .ok a t → t.metrics.finished = [] →
    ∃ a' t', p' s' = .ok a' t' ∧ Carried a a' ∧ R a t t'

/-- What holds after a round. -/
def Onward {α : Type} (I Q : α → Session → Session → Prop) : Round α → Session → Session → Prop
  | .again a => I a
  | .done a => Q a

namespace Tracks

variable {α β : Type} [Portable α] [Portable β] {P P' : Session → Session → Prop}
  {p p' q q' : Parse α} {Q R R' : α → Session → Session → Prop}

/-- The sessions before and after may be related more weakly. -/
theorem imp (h : Tracks P p p' R) (hP : ∀ s s', P' s s' → P s s')
    (hR : ∀ a s s', R a s s' → R' a s s') : Tracks P' p p' R' := by
  refine ⟨h.remembers, fun s s' a t hs ht hNone => ?_⟩
  obtain ⟨a', t', ht', ha, hThere⟩ := h.follows s s' a t (hP s s' hs) ht hNone
  exact ⟨a', t', ht', ha, hR a t t' hThere⟩

theorem before (h : Tracks P p p' R) (hP : ∀ s s', P' s s' → P s s') : Tracks P' p p' R :=
  h.imp hP fun _ _ _ => id

/-- What holds behind may be stated more weakly. -/
theorem after (h : Tracks P p p' R) (hR : ∀ a s s', R a s s' → R' a s s') : Tracks P p p' R' :=
  h.imp (fun _ _ => id) hR

theorem pure {a a' : α} (ha : Carried a a') (h : ∀ s s', P s s' → R a s s') :
    Tracks P (pure a) (pure a') R where
  remembers := .pure a
  follows := by
    rintro s s' b t hs ⟨⟩ -
    exact ⟨a', s', rfl, ha, h s s' hs⟩

/-- Both runs go on, with values that correspond. -/
theorem bind {f f' : α → Parse β} {R : β → Session → Session → Prop} (hp : Tracks P p p' Q)
    (hf : ∀ a a', Carried a a' → Tracks (Q a) (f a) (f' a') R) :
    Tracks P (p >>= f) (p' >>= f') R where
  remembers := hp.remembers.bind fun a => by
    obtain ⟨a', ha⟩ := Portable.exists_carried a
    exact (hf a a' ha).remembers
  follows := by
    intro s s' b u hs h hNone
    obtain ⟨a, t, ht, hu⟩ := exists_of_bind h
    obtain ⟨a₀, ha₀⟩ := Portable.exists_carried a
    -- no function is finished at the end, so none is in between
    have hBetween := (hf a a₀ ha₀).remembers t b u hu hNone
    obtain ⟨a', t', ht', ha, hThere⟩ := hp.follows s s' a t hs ht hBetween
    obtain ⟨b', u', hu', hb, hLast⟩ := (hf a a' ha).follows t t' b u hThere hu hNone
    exact ⟨b', u', (bind_of_ok ht').trans hu', hb, hLast⟩

theorem discard (h : Tracks P p p' fun _ => P') :
    Tracks P (discard p) (discard p') fun _ => P' := by
  rw [discard_eq_bind, discard_eq_bind]
  exact .bind h fun _ _ _ => .pure trivial fun _ _ => id

/-- A parser that does not succeed. -/
theorem never (h : ∀ s a t, p s ≠ .ok a t) : Tracks P p p' R where
  remembers s a t ht := absurd ht (h s a t)
  follows s _ a t _ ht := absurd ht (h s a t)

/-- A parser that finishes a function. -/
theorem sink (h : Finishes p) : Tracks P p p' R where
  remembers := h.remembers
  follows s _ a t _ ht hNone := absurd hNone (h s a t ht)

/-- A parser that is not reached. -/
theorem unreached (hp : Remembers p) (h : ∀ s s', ¬P s s') : Tracks P p p' R where
  remembers := hp
  follows s s' _ _ hs := absurd hs (h s s')

/-- The same branch is taken. -/
theorem ite {c c' : Prop} [Decidable c] [Decidable c'] (hc : c' ↔ c) (hp : Tracks P p p' R)
    (hq : Tracks P q q' R) : Tracks P (if c then p else q) (if c' then p' else q') R := by
  by_cases h : c
  · rw [if_pos h, if_pos (hc.mpr h)]
    exact hp
  · rw [if_neg h, if_neg (mt hc.mp h)]
    exact hq

/-- Only one of the branches does something before both go on in the same way. -/
theorem when {c c' : Prop} [Decidable c] [Decidable c'] (hc : c' ↔ c) {p p' : Parse Unit}
    {f f' : Unit → Parse α} (hp : Tracks P p p' fun _ => P) (hf : Tracks P (f ()) (f' ()) R) :
    Tracks P (if c then p >>= f else f ()) (if c' then p' >>= f' else f' ()) R :=
  .ite hc (.bind hp fun _ _ _ => hf) hf

/-- Something is asked about the session before the parsers go on. -/
theorem ask {γ : Type} (g g' : Session → γ) (V : γ → γ → Prop) (f f' : γ → Parse α)
    (hV : ∀ c, ∃ c', V c c') (hg : ∀ s s', P s s' → V (g s) (g' s'))
    (hf : ∀ c c', V c c' → Tracks (fun s s' => P s s' ∧ g s = c) (f c) (f' c') R) :
    Tracks P (get >>= fun s => f (g s)) (get >>= fun s => f' (g' s)) R where
  remembers s a t ht hNone := by
    obtain ⟨c', hc⟩ := hV (g s)
    exact (hf _ c' hc).remembers s a t ht hNone
  follows s s' a t hs ht hNone := (hf _ _ (hg s s' hs)).follows s s' a t ⟨hs, rfl⟩ ht hNone

/-- Both sessions are changed. -/
theorem change {f f' : Session → Session} (hListed : ∀ s,
    (f s).metrics.finished = s.metrics.finished)
    (h : ∀ s s', P s s' → P' (f s) (f' s')) : Tracks P (modify f) (modify f') fun _ => P' where
  remembers := by
    rintro s _ t ⟨⟩ hNone
    exact (hListed s).symm.trans hNone
  follows := by
    rintro s s' _ t hs ⟨⟩ -
    exact ⟨(), f' s', rfl, trivial, h s s' hs⟩

/-- What is ensured is done in both runs. -/
theorem ensuring {after after' : Session → Session} (h : Tracks P p p' Q)
    (hListed : ∀ s, (after s).metrics.finished = s.metrics.finished)
    (hAfter : ∀ a s s', Q a s s' → R a (after s) (after' s')) :
    Tracks P (p.ensuring after) (p'.ensuring after') R where
  remembers s a t ht hNone := by
    obtain ⟨m, hm, rfl⟩ := exists_of_ensuring ht
    exact h.remembers s a m hm ((hListed m).symm.trans hNone)
  follows s s' a t hs ht hNone := by
    obtain ⟨m, hm, rfl⟩ := exists_of_ensuring ht
    obtain ⟨a', m', hm', ha, hThere⟩ := h.follows s s' a m hs hm ((hListed m).symm.trans hNone)
    exact ⟨a', after' m', ensuring_of_ok hm', ha, hAfter a m m' hThere⟩

/-! ### Repetitions -/

variable {I : α → Session → Session → Prop} {f f' : α → Parse (Round α)}

/-- Another round in both runs. -/
theorem again {a a' : α} (ha : Carried a a') (h : ∀ s s', P s s' → I a s s') :
    Tracks P (return .again a) (return .again a') (Onward I Q) :=
  .pure (SameRound.again ha) h

/-- The last round in both runs. -/
theorem done {a a' : α} (ha : Carried a a') (h : ∀ s s', P s s' → Q a s s') :
    Tracks P (return .done a) (return .done a') (Onward I Q) :=
  .pure (SameRound.done ha) h

/-- By induction on the rounds of the first run; the second one has no fewer. -/
theorem rounds (h : ∀ a a', Carried a a' → Tracks (I a) (f a) (f' a') (Onward I Q)) {n n' : Nat}
    (hn : n ≤ n')
    {a a' : α} (ha : Carried a a') : Tracks (I a) (rounds f n a) (rounds f' n' a') Q := by
  induction n generalizing n' a a' with
  | zero => exact never fun _ _ _ ht => by cases ht
  | succ n ih =>
    obtain ⟨n', rfl⟩ : ∃ m, n' = m + 1 := ⟨n' - 1, by omega⟩
    refine .bind (h a a' ha) fun r r' hr => ?_
    cases hr with
    | again hb => exact ih (Nat.le_of_succ_le_succ hn) hb
    | done hb => exact .pure hb fun _ _ => id

theorem again_unit {Q : Unit → Session → Session → Prop} :
    Tracks P (return .again ()) (return .again ()) (Onward (fun _ => P) Q) :=
  again trivial fun _ _ => id

theorem done_unit {I : Unit → Session → Session → Prop} :
    Tracks P (return .done ()) (return .done ()) (Onward I fun _ => P) :=
  done trivial fun _ _ => id

/-- A loop whose rounds track tracks, if the second run has at least as many rounds left. -/
theorem loop (hBudget : ∀ a s s', I a s s' → s.budget ≤ s'.budget)
    (h : ∀ a a', Carried a a' → Tracks (I a) (f a) (f' a') (Onward I Q)) {a a' : α}
    (ha : Carried a a') : Tracks (I a) (loop f a) (loop f' a') Q where
  remembers s := (rounds h (Nat.le_refl s.budget) ha).remembers s
  follows s s' b t hs := (rounds h (hBudget a s s' hs) ha).follows s s' b t hs

/-- By induction on how often the first parser contains itself. -/
theorem unfolded {form form' : Parse α → Parse α}
    (h : ∀ p p', Remembers p → Tracks P (form p) (form' p') R)
    {n n' : Nat} (hn : n ≤ n') : Tracks P (unfolded form n) (unfolded form' n') R := by
  induction n generalizing n' with
  | zero => exact never fun _ _ _ ht => by cases ht
  | succ n ih =>
    obtain ⟨n', rfl⟩ : ∃ m, n' = m + 1 := ⟨n' - 1, by omega⟩
    exact h _ _ (ih (Nat.le_of_succ_le_succ hn)).remembers

/-- A recursion tracks if each level does, and the second run may go as deep. -/
theorem recursive (hBudget : ∀ s s', P s s' → s.budget ≤ s'.budget) {form form' : Parse α → Parse α}
    (h : ∀ p p', Remembers p → Tracks P (form p) (form' p') R) :
    Tracks P (recursive form) (recursive form') R where
  remembers s := (unfolded h (Nat.le_refl s.budget)).remembers s
  follows s s' a t hs := (unfolded h (hBudget s s' hs)).follows s s' a t hs

/-! ### At a token -/

variable {stop k j m : Nat} {K : TokenKind → Prop} {R : α → Session → Session → Prop}

/-- Whatever the token is. -/
theorem any (h : Tracks (Abreast stop k j Any) p p' R) : Tracks (Abreast stop k j K) p p' R :=
  h.before fun _ _ hs => hs.imp fun _ => trivial

/-- The kind of the token is known. -/
theorem known {t : Token} {κ : TokenKind} (hKind : t.kind = κ)
    (h : Tracks (Abreast stop k j (· = κ)) p p' R) :
    Tracks (Abreast stop k j (· = t.kind)) p p' R :=
  h.before fun _ _ hs => hs.imp fun h => h.trans hKind

/-- The current token is kept for later. -/
theorem opener {f f' : Token → Parse α} (hf : ∀ t t', t.Moved t' →
    Tracks (Abreast stop k j K) (f t) (f' t') R) :
    Tracks (Abreast stop k j K) (Parse.current >>= f) (Parse.current >>= f') R :=
  ask Session.token Session.token Token.Moved f f' Portable.exists_carried (fun _ _ hs => hs.token)
    fun t t' ht => (hf t t' ht).before fun _ _ => And.left

/-- The current tokens are counterparts. -/
theorem current {f f' : Token → Parse α}
    (hf : ∀ t t', t.Moved t' → Tracks (Abreast stop k j (· = t.kind)) (f t) (f' t') R) :
    Tracks (Abreast stop k j K) (current >>= f) (current >>= f') R := by
  refine ask Session.token Session.token Token.Moved f f' Portable.exists_carried
    (fun _ _ hs => hs.token) fun t t' ht => ?_
  refine (hf t t' ht).before fun s s' ⟨hs, hToken⟩ => ?_
  exact hs.imp fun _ => hToken ▸ rfl

/-- Both runs see the same punctuator. -/
theorem sees (p : Punctuator) {f f' : Bool → Parse α}
    (hf : ∀ b, Tracks (Abreast stop k j fun κ => b = true → κ = .punctuator p) (f b) (f' b) R) :
    Tracks (Abreast stop k j K) (sees p >>= f) (sees p >>= f') R := by
  refine ask (·.token.isPunctuator p) (·.token.isPunctuator p) Eq f f' (fun b => ⟨b, rfl⟩)
    (fun _ _ hs => (hs.token.isPunctuator p).symm) fun b b' hb => ?_
  subst hb
  refine (hf b).before fun s s' ⟨hs, hSees⟩ => hs.imp fun _ hTrue => ?_
  exact Lexer.kind_of_isPunctuator (hSees.trans hTrue)

/-- Both runs branch alike on the current token. -/
theorem ifSees (p : Punctuator) (hp : Tracks (Abreast stop k j (· = .punctuator p)) q q' R)
    {r r' : Parse α} (hr : Tracks (Abreast stop k j Any) r r' R) :
    Tracks (Abreast stop k j K)
      (do if ← Parse.sees p then q else r) (do if ← Parse.sees p then q' else r') R := by
  refine .sees p fun b => ?_
  cases b with
  | true => exact hp.before fun _ _ hs => hs.imp fun h => h rfl
  | false => exact hr.before fun _ _ hs => hs.imp fun _ => trivial

theorem seesWord (word : Keyword) {f f' : Bool → Parse α}
    (hf : ∀ b, Tracks (Abreast stop k j Any) (f b) (f' b) R) :
    Tracks (Abreast stop k j K) (seesWord word >>= f) (seesWord word >>= f') R := by
  refine ask (·.token.isKeyword word) (·.token.isKeyword word) Eq f f' (fun b => ⟨b, rfl⟩)
    (fun _ _ hs => (hs.token.isKeyword word).symm) fun b b' hb => ?_
  subst hb
  exact (hf b).before fun _ _ hs => hs.1.imp fun _ => trivial

end Tracks

/-- Both sessions are behind the same token. -/
structure Past (stop k j : Nat) (s s' : Session) : Prop extends Abreast stop k j Any s s' where
  previous : s'.previous.offset = s.previous.offset + headStart

namespace Tracks

variable {α β : Type} [Portable α] [Portable β] {P : Session → Session → Prop} {p p' q q' : Parse α}
  {R : α → Session → Session → Prop} {stop k j m : Nat} {K : TokenKind → Prop}

/-! ### Consuming tokens -/

/-- Consuming a token. -/
theorem pass (h : ∀ κ, K κ → κ ≠ .punctuator .semicolon ∧ κ.bracketed k = m) :
    Tracks (Abreast stop k j K) advance advance fun _ => Past stop m j where
  remembers := .of_listing listing_steps.advance
  follows s s' _ t hs ht _ := by
    obtain ⟨hKind, hDepth⟩ := h _ hs.kind
    obtain ⟨u, u', hu, hu', hStep⟩ := hs.advance hKind
    obtain ⟨-, rfl⟩ := EStateM.Result.ok.inj (hu.symm.trans ht)
    refine ⟨(), u', hu', trivial, hDepth ▸ hStep.toAbreast, ?_⟩
    rw [hStep.previous, hStep.previous', hs.token.offset]

/-- A token other than the semicolon is consumed in both runs. -/
theorem advance (h : ∀ κ, K κ → κ ≠ .punctuator .semicolon ∧ κ.bracketed k = m) :
    Tracks (Abreast stop k j K) advance advance fun _ => Abreast stop m j Any :=
  (pass h).after fun _ _ _ => Past.toAbreast

/-- Consuming a token of a known kind. -/
theorem take {κ : TokenKind} (hPlain : κ ≠ .punctuator .semicolon)
    (hDepth : κ.bracketed k = m) :
    Tracks (Abreast stop k j (· = κ)) Parse.advance Parse.advance fun _ => Past stop m j :=
  pass fun _ h => h ▸ ⟨hPlain, hDepth⟩

/-- Consuming the current token, whose kind is known. -/
theorem consume {κ : TokenKind} (hPlain : κ ≠ .punctuator .semicolon)
    (hDepth : κ.bracketed k = m) :
    Tracks (Abreast stop k j (· = κ)) Parse.advance Parse.advance fun _ => Abreast stop m j Any :=
  (take hPlain hDepth).after fun _ _ _ => Past.toAbreast

/-- A token that is a whole operand. -/
theorem literal {a a' : α} {t : Token} {κ : TokenKind} (hKind : t.kind = κ) (ha : Carried a a')
    (hPlain : κ ≠ .punctuator .semicolon) (hDepth : κ.bracketed k = m) :
    Tracks (Abreast stop k j (· = t.kind)) (do Parse.advance; return a)
      (do Parse.advance; return a') fun _ => Abreast stop m j Any :=
  .bind (.known hKind (consume hPlain hDepth)) fun _ _ _ => .pure ha fun _ _ => id

theorem failIdentifier : Tracks P failIdentifier p' R := never fun _ _ _ => failAt_ne_ok _ _

theorem failExpected (expected : String) : Tracks P (failExpected expected) p' R :=
  never fun _ _ _ => failAt_ne_ok _ _

/-- A punctuator that opens and closes nothing is consumed if it is there. -/
theorem eat (p : Punctuator) (hPlain : p ≠ .semicolon)
    (hDepth : (TokenKind.punctuator p).bracketed k = k) :
    Tracks (Abreast stop k j K) (eat p) (eat p) fun _ => Abreast stop k j Any := by
  have hConsume : Tracks (Abreast stop k j (· = .punctuator p)) Parse.advance Parse.advance
      fun _ => Abreast stop k j Any := by
    refine .advance fun κ hκ => ?_
    subst hκ
    exact ⟨fun hSame => hPlain (TokenKind.punctuator.inj hSame), hDepth⟩
  have hTrue : Tracks (Abreast stop k j (· = .punctuator p)) (do Parse.advance; return true)
      (do Parse.advance; return true) fun _ => Abreast stop k j Any :=
    .bind hConsume fun _ _ _ => .pure (rfl : Carried true true) fun _ _ => id
  have hFalse :
      Tracks (Abreast stop k j Any) (return false) (return false) fun _ => Abreast stop k j Any :=
    .pure (rfl : Carried false false) fun _ _ => id
  exact ifSees p hTrue hFalse

/-- Both runs consume the punctuator or neither does. -/
theorem ifEat (p : Punctuator) (hPlain : p ≠ .semicolon)
    (hDepth : (TokenKind.punctuator p).bracketed k = k)
    {r r' : Parse α} (hp : Tracks (Abreast stop k j Any) q q' R)
    (hr : Tracks (Abreast stop k j Any) r r' R) :
    Tracks (Abreast stop k j K)
      (do if ← Parse.eat p then q else r) (do if ← Parse.eat p then q' else r') R := by
  refine .bind (.eat p hPlain hDepth) fun b b' hb => ?_
  obtain rfl : b' = b := hb
  exact .ite Iff.rfl hp hr

/-- The end of a round that is the last one unless there is a comma. -/
theorem comma {a a' : α} (ha : Carried a a') :
    Tracks (Abreast stop k j Any)
      (do if ← Parse.eat .comma then return .again a else return .done a)
      (do if ← Parse.eat .comma then return .again a' else return .done a')
      (Onward (fun _ => Abreast stop k j Any) fun _ => Abreast stop k j Any) :=
  .ifEat .comma nofun rfl (.again ha fun _ _ => id) (.done ha fun _ _ => id)

/-- The expected token is consumed in both runs. -/
theorem expect (p : Punctuator) (hPlain : p ≠ .semicolon)
    (hDepth : (TokenKind.punctuator p).bracketed k = m) :
    Tracks (Abreast stop k j K) (expect p) (expect p) fun _ => Abreast stop m j Any := by
  refine .ifSees p (.advance fun κ hκ => ?_) (.failExpected _)
  subst hκ
  exact ⟨fun hSame => hPlain (TokenKind.punctuator.inj hSame), hDepth⟩

/-- Behind the bracket that closes another one. -/
theorem passClosing (p : Punctuator) (opener opener' : Token) (hPlain : p ≠ .semicolon)
    (hDepth : (TokenKind.punctuator p).bracketed k = m) :
    Tracks (Abreast stop k j K) (expectClosing p opener) (expectClosing p opener') fun _ =>
      Past stop m j := by
  refine .ifSees p (.pass fun κ hκ => ?_) (.never fun s a t ht => ?_)
  · subst hκ
    exact ⟨fun hSame => hPlain (TokenKind.punctuator.inj hSame), hDepth⟩
  · change (if s.token.isEnd then failAt _ _ else Parse.failExpected _ : Parse Unit) s = _ at ht
    split at ht
    · exact failAt_ne_ok _ _ ht
    · exact failAt_ne_ok _ _ ht

theorem expectClosing (p : Punctuator) (opener opener' : Token) (hPlain : p ≠ .semicolon)
    (hDepth : (TokenKind.punctuator p).bracketed k = m) :
    Tracks (Abreast stop k j K) (expectClosing p opener) (expectClosing p opener') fun _ =>
      Abreast stop m j Any :=
  (passClosing p opener opener' hPlain hDepth).after fun _ _ _ => Past.toAbreast

theorem expectIdentifier :
    Tracks (Abreast stop k j K) expectIdentifier expectIdentifier fun _ =>
      Abreast stop k j Any := by
  refine .current fun t t' ht => ?_
  rw [ht.identifier?]
  unfold Token.identifier?
  split
  · next name hName =>
    split at hName
    · next hKind => exact .literal hKind ⟨trivial, ht⟩ (by simp) rfl
    · cases hName
  · exact .failIdentifier

/-! ### Looking ahead -/

/-- A test of the next token comes out alike. -/
theorem peekIs {test : Token → Bool} (hTest : ∀ t t', t.Moved t' → test t' = test t)
    (hK : ∀ κ, K κ → κ ≠ .punctuator .semicolon) :
    Tracks (Abreast stop k j K) (peekIs test) (peekIs test) fun _ => Abreast stop k j K where
  remembers := .of_listing (listing_steps.peekIs test)
  follows s s' b t hs ht _ := by
    obtain ⟨c, u, u', hu, hu', hAt⟩ := hs.peekIs (hK _ hs.kind) hTest
    obtain ⟨rfl, rfl⟩ := EStateM.Result.ok.inj (hu.symm.trans ht)
    exact ⟨c, u', hu', rfl, hAt⟩

/-- Both runs branch alike on the next token. -/
theorem ifPeek {test : Token → Bool} (hTest : ∀ t t', t.Moved t' → test t' = test t)
    (hK : ∀ κ, K κ → κ ≠ .punctuator .semicolon) (hp : Tracks (Abreast stop k j K) q q' R)
    {r r' : Parse α} (hr : Tracks (Abreast stop k j K) r r' R) :
    Tracks (Abreast stop k j K)
      (do if ← Parse.peekIs test then q else r) (do if ← Parse.peekIs test then q' else r') R := by
  refine .bind (.peekIs hTest hK) fun b b' hb => ?_
  obtain rfl : b' = b := hb
  exact .ite Iff.rfl hp hr

theorem peekArrowAfterNext (hK : ∀ κ, K κ → κ ≠ .punctuator .semicolon) :
    Tracks (Abreast stop k j K) peekArrowAfterNext peekArrowAfterNext fun _ =>
      Abreast stop k j K where
  remembers := .of_listing (listing_steps.step .peekArrowAfterNext)
  follows s s' b t hs ht _ := by
    obtain ⟨c, u, u', hu, hu', hAt⟩ := hs.peekArrowAfterNext (hK _ hs.kind)
    obtain ⟨rfl, rfl⟩ := EStateM.Result.ok.inj (hu.symm.trans ht)
    exact ⟨c, u', hu', rfl, hAt⟩

/-- Both runs see alike whether an arrow function begins. -/
theorem startsArrow :
    Tracks (Abreast stop k j K) startsArrow startsArrow fun _ => Abreast stop k j K where
  remembers := .of_listing (listing_steps.step .startsArrow)
  follows s s' b t hs ht _ := by
    obtain ⟨c, u, u', hu, hu', hAt⟩ := hs.startsArrow
    obtain ⟨rfl, rfl⟩ := EStateM.Result.ok.inj (hu.symm.trans ht)
    exact ⟨c, u', hu', rfl, hAt⟩

/-! ### Remarks -/

/-- Both runs remark on something, each in its own way. -/
theorem gives {a a' : α} (ha : Carried a a') (h : Resolves quiet p) (hGives : Division.Gives a p)
    (h' : Resolves quiet p') (hGives' : Division.Gives a' p') :
    Tracks (Abreast stop k j K) p p' fun _ => Abreast stop k j K where
  remembers s b t ht hNone := by
    have hAside := h s
    rw [ht] at hAside
    exact (Session.finished_of_bearing hAside.bearing).symm.trans hNone
  follows s s' b t hs ht _ := by
    have hAside := h s
    rw [ht] at hAside
    obtain ⟨b', t', ht', hAside'⟩ := exists_of_quiet h' hs.lasting'
    obtain rfl := hGives s b t ht
    obtain rfl := hGives' s' b' t' ht'
    refine ⟨b', t', ht', ha, hs.stay hAside.bearing hAside'.bearing ?_⟩
    exact hs.toMatched.hushed hAside.hushed hAside'.hushed

theorem gives_unit (p : Parse Unit) : Division.Gives () p := fun _ _ _ _ => rfl

/-- Remarks of any kind may be made in either run. -/
theorem quietly {p p' : Parse Unit} (h : Resolves quiet p) (h' : Resolves quiet p') :
    Tracks (Abreast stop k j K) p p' fun _ => Abreast stop k j K :=
  gives trivial h (gives_unit p) h' (gives_unit p')

/-! ### Around parsers -/

/-- Inside brackets `in` is an operator in both runs. -/
theorem withNoIn (h : Tracks (Abreast stop k k Any) p p' fun _ => Abreast stop k k Any) :
    Tracks (Abreast stop k j K) (withNoIn false p) (withNoIn false p') fun _ =>
      Abreast stop k j Any := by
  refine ask Session.noIn Session.noIn (fun b b' => 0 < j → b' = b)
    (fun saved => do modify ({ · with noIn := false }); p.ensuring ({ · with noIn := saved }))
    (fun saved => do modify ({ · with noIn := false }); p'.ensuring ({ · with noIn := saved }))
    (fun b => ⟨b, fun _ => rfl⟩) (fun _ _ (hs : Abreast stop k j K _ _) => hs.noIn)
    fun b b' hb => ?_
  refine .bind (.change (fun _ => rfl) fun s s' ⟨hs, _⟩ => ?_) fun _ _ _ =>
    (h.ensuring (fun _ => rfl) fun _ s s' hs => ?_)
  · exact hs.shift ⟨_, _, rfl⟩ ⟨_, _, rfl⟩ hb hs.nesting
  · exact (hs.imp fun _ => trivial).shift ⟨_, _, rfl⟩ ⟨_, _, rfl⟩ (fun _ => rfl) hs.nesting

theorem clearingHint (h : Tracks P p p' fun _ => Abreast stop k j Any) :
    Tracks P p.clearingHint p'.clearingHint fun _ => Abreast stop k j Any := by
  refine h.ensuring (fun _ => rfl) fun _ s s' hs => ?_
  exact hs.stay rfl rfl (hs.toMatched.hushed (.silent rfl rfl id rfl) (.silent rfl rfl id rfl))

theorem tooDeep : Tracks P tooDeep p' R := never fun _ _ _ ht => by cases ht

/-- Both runs are as deep in the program. -/
theorem deeper (h : Tracks (Abreast stop k j K) p p' fun _ => Abreast stop k j Any) :
    Tracks (Abreast stop k j K) p.deeper p'.deeper fun _ => Abreast stop k j Any := by
  refine ask Session.nesting Session.nesting Eq
    (fun n => if n < maxNesting then p.below else Parse.tooDeep)
    (fun n => if n < maxNesting then p'.below else Parse.tooDeep) (fun n => ⟨n, rfl⟩)
    (fun _ _ hs => hs.nesting.symm) fun n n' hn => ?_
  subst hn
  refine .ite Iff.rfl (.bind (.change (fun _ => rfl) fun s s' ⟨hs, _⟩ => ?_) fun _ _ _ =>
    h.ensuring (fun _ => rfl) fun _ s s' hs => ?_) .tooDeep
  · exact hs.shift ⟨_, _, rfl⟩ ⟨_, _, rfl⟩ hs.noIn (congrArg (· - 1) hs.nesting)
  · exact hs.shift ⟨_, _, rfl⟩ ⟨_, _, rfl⟩ hs.noIn (congrArg (· + 1) hs.nesting)

/-- A loop at tokens of the text. -/
theorem cycle {f f' : α → Parse (Round α)}
    (h : ∀ a a', Carried a a' → Tracks (Abreast stop k j Any) (f a) (f' a')
      (Onward (fun _ => Abreast stop k j Any) fun _ => Abreast stop m j Any)) {a a' : α} (ha :
        Carried a a') :
    Tracks (Abreast stop k j Any) (Parse.loop f a) (Parse.loop f' a') fun _ =>
      Abreast stop m j Any :=
  .loop (fun _ _ _ hs => hs.budget_le) h ha

end Tracks

end ScriptLint.Heads
