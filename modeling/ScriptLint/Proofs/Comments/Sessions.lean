import ScriptLint.Proofs.Comments.Lexing
import ScriptLint.Proofs.Grammar.Blind

/-!
# Two runs that differ in comments

The parser passes over comments. In two runs over a source and over the source without its comments,
all but the streams of the sessions is the same after every step.

- `Lexer.Skips`, `TokenStream.Faces`: the lexers and the streams of the two runs.
- `Parse.Oblivious`: parsers that do not touch the stream.
- `Session.Matched`: sessions of the two runs, the same but for their streams.
- `Parse.Mirrors`: parsers that end alike in such sessions and leave such sessions.
-/

namespace ScriptLint

/-! ## What the lexers lead to -/

namespace Lexer

/-- The lexers of a source and of the source without its comments, between two results. -/
def Skips (source : String) (l l' : Lexer) : Prop := ∃ k, Trails source k l l'

variable {source : String} {l l' : Lexer}

namespace Skips

/-- The first lexer reads a comment, or both read the same. -/
theorem step (hSlash : NoBareSlash source) (h : Skips source l l') :
    isComment l.next.1 ∧ Skips source l.next.2 l' ∨
      isComment l.next.1 = false ∧ l'.next.1 = l.next.1 ∧ Skips source l.next.2 l'.next.2 := by
  obtain ⟨k, h⟩ := h
  cases hComment : isComment l.next.1 with
  | true => exact .inl ⟨rfl, k + 1, h.comment hSlash hComment⟩
  | false =>
    obtain ⟨hResult, hAfter⟩ := h.next hSlash hComment
    exact .inr ⟨rfl, hResult, k + 1, hAfter⟩

/-- Where a slash may start a regular expression in one lexer, nothing changes in a source without
bare slashes. -/
theorem allowLeft (h : Skips source l l') : Skips source l.allowRegex l' := by
  obtain ⟨k, h⟩ := h
  exact ⟨k, h.front, h.follows, h.tracks, h.templates, h.behind, h.blank⟩

/-- The same for the other lexer. -/
theorem allowRight (h : Skips source l l') : Skips source l l'.allowRegex := by
  obtain ⟨k, h⟩ := h
  have hTracks := h.tracks
  exact ⟨k, h.front, h.follows, ⟨hTracks.rest, hTracks.bound, hTracks.after, hTracks.pending⟩,
    h.templates, h.behind, h.blank⟩

/-- By induction on the results of the first lexer: the second one comes to the same token, past all
but the comments. -/
theorem leads (hSlash : NoBareSlash source) {rs : List Result} {t : Token} {m : Lexer}
    (h : Skips source l l') (hLeads : Leads l rs t m) :
    ∃ m', Leads l' (rs.filter (!isComment ·)) t m' ∧ Skips source m m' := by
  induction hLeads generalizing l' with
  | @here l t ht =>
    rcases h.step hSlash with ⟨hComment, -⟩ | ⟨hKept, hSame, hAfter⟩
    · rw [significant_of_isComment hComment] at ht
      cases ht
    · refine ⟨l'.next.2, ?_, hAfter⟩
      rw [List.filter_cons_of_pos (by rw [hKept]; rfl), List.filter_nil, ← hSame]
      exact .here (hSame ▸ ht)
  | @pass l m rs t hNone _ ih =>
    rcases h.step hSlash with ⟨hComment, hAfter⟩ | ⟨hKept, hSame, hAfter⟩
    · obtain ⟨m', hLeads', hSkips⟩ := ih hAfter
      refine ⟨m', ?_, hSkips⟩
      rwa [List.filter_cons_of_neg (by rw [hComment]; exact Bool.false_ne_true)]
    · obtain ⟨m', hLeads', hSkips⟩ := ih hAfter
      refine ⟨m', ?_, hSkips⟩
      rw [List.filter_cons_of_pos (by rw [hKept]; rfl), ← hSame]
      exact .pass (hSame ▸ hNone) hLeads'

/-- By induction on the visit of the first lexer's results. -/
theorem visits (hSlash : NoBareSlash source) {σ β : Type} {visit : σ → Token → σ ⊕ β}
    {state : σ} {b : β} {n : Nat} (h : Skips source l l') (hVisit : Visits visit l state b n) :
    ∃ n', Visits visit l' state b n' := by
  induction hVisit generalizing l' with
  | @answer l state b hShown =>
    rcases h.step hSlash with ⟨hComment, -⟩ | ⟨-, hSame, -⟩
    · rw [shown, significant_of_isComment hComment] at hShown
      cases hShown
    · exact ⟨1, .answer (hSame ▸ hShown)⟩
  | @goOn l state state' b n hShown _ ih =>
    rcases h.step hSlash with ⟨hComment, hAfter⟩ | ⟨-, hSame, hAfter⟩
    · rw [shown, significant_of_isComment hComment] at hShown
      obtain rfl := Sum.inl.inj hShown
      exact ih hAfter
    · obtain ⟨n', hVisit'⟩ := ih hAfter
      exact ⟨n' + 1, .goOn (hSame ▸ hShown) hVisit'⟩

end Skips

end Lexer

/-! ## Streams -/

namespace TokenStream

open Lexer

/-- The streams of the two runs hand out the same, comments apart. -/
def Faces (source : String) (s s' : TokenStream) : Prop :=
  ∃ l l', s.From l ∧ s'.From l' ∧ Skips source l l'

variable {source : String} {s s' : TokenStream}

namespace Faces

/-- Looking ahead gives the same answer. -/
theorem survey (hSlash : NoBareSlash source) {σ β : Type} {visit : σ → Token → σ ⊕ β}
    (hEnd : AnswersAtEnd visit) (state : σ) (h : Faces source s s') :
    (s'.survey visit state).1 = (s.survey visit state).1 ∧
      Faces source (s.survey visit state).2 (s'.survey visit state).2 := by
  obtain ⟨l, l', hFrom, hFrom', hSkips⟩ := h
  obtain ⟨b, n, hVisit⟩ := exists_visits hEnd l state
  obtain ⟨n', hVisit'⟩ := hSkips.visits hSlash hVisit
  obtain ⟨hAnswer, hAfter, -⟩ := survey_spec hEnd hFrom hVisit
  obtain ⟨hAnswer', hAfter', -⟩ := survey_spec hEnd hFrom' hVisit'
  exact ⟨hAnswer'.trans hAnswer.symm, l, l', hAfter, hAfter', hSkips⟩

/-- The next significant token is the same, and so is what is passed on the way, comments apart. -/
theorem pullSignificant (hSlash : NoBareSlash source) (h : Faces source s s') :
    s'.pullSignificant.1 = s.pullSignificant.1.filter (!isComment ·) ∧
      s'.pullSignificant.1.getLast?.bind significant? =
        s.pullSignificant.1.getLast?.bind significant? ∧
      Faces source s.pullSignificant.2 s'.pullSignificant.2 := by
  obtain ⟨l, l', hFrom, hFrom', hSkips⟩ := h
  obtain ⟨rs, t, m, hLeads⟩ := exists_leads l
  obtain ⟨m', hLeads', hAfter⟩ := hSkips.leads hSlash hLeads
  obtain ⟨hResults, hFront, -⟩ := pullSignificant_spec hFrom hLeads
  obtain ⟨hResults', hFront', -⟩ := pullSignificant_spec hFrom' hLeads'
  rw [hResults, hResults', hLeads.last, hLeads'.last]
  exact ⟨rfl, rfl, m, m', hFront, hFront', hAfter⟩

/-- What the lexer at the front is told about slashes makes no difference. -/
theorem allowRegex (h : Faces source s s') : Faces source s.allowRegex s'.allowRegex := by
  obtain ⟨l, l', hFrom, hFrom', hSkips⟩ := h
  rcases from_allowRegex hFrom with hFront | hFront
  · rcases from_allowRegex hFrom' with hFront' | hFront'
    · exact ⟨l, l', hFront, hFront', hSkips⟩
    · exact ⟨l, _, hFront, hFront', hSkips.allowRight⟩
  · rcases from_allowRegex hFrom' with hFront' | hFront'
    · exact ⟨_, l', hFront, hFront', hSkips.allowLeft⟩
    · exact ⟨_, _, hFront, hFront', hSkips.allowLeft.allowRight⟩

end Faces

end TokenStream

/-! ## Parsers that do not touch the stream -/

namespace Parse

variable {α β : Type} {p q : Parse α}

/-- The same result with another stream. -/
def onStream (stream : TokenStream) :
    EStateM.Result Abort Session α → EStateM.Result Abort Session α
  | .ok a s => .ok a { s with stream }
  | .error e s => .error e { s with stream }

/-- The parser neither looks at the stream nor changes it. -/
def Oblivious (p : Parse α) : Prop :=
  ∀ (s : Session) (stream : TokenStream), p { s with stream } = onStream stream (p s)

namespace Oblivious

theorem pure (a : α) : Oblivious (pure a) := fun _ _ => rfl

theorem throw (e : Abort) : Oblivious (throw e : Parse α) := fun _ _ => rfl

/-- Neither the first parser nor the second one looks at the stream. -/
theorem bind {f : α → Parse β} (hp : Oblivious p) (hf : ∀ a, Oblivious (f a)) :
    Oblivious (p >>= f) := by
  intro s stream
  have hRun := hp s stream
  cases hr : p s with
  | ok a t =>
    rw [hr] at hRun
    rw [bind_of_ok hr, bind_of_ok hRun]
    exact hf a t stream
  | error e t =>
    rw [hr] at hRun
    rw [bind_of_error hr, bind_of_error hRun]
    rfl

theorem ite (c : Prop) [Decidable c] (hp : Oblivious p) (hq : Oblivious q) :
    Oblivious (if c then p else q) := by
  split
  · exact hp
  · exact hq

/-- Only one of the branches does something before both go on in the same way. -/
theorem when (c : Prop) [Decidable c] {p q : Parse Unit} (hp : Oblivious p) (hq : Oblivious q) :
    Oblivious (if c then p >>= fun _ => q else q) :=
  ite c (bind hp fun _ => hq) hq

/-- What is done may depend on all but the stream. -/
theorem read {f : Session → Parse α} (h : ∀ s, Oblivious (f s))
    (hSame : ∀ (s : Session) stream, f { s with stream } = f s) : Oblivious (get >>= f) := by
  intro s stream
  show f { s with stream } { s with stream } = onStream stream (f s s)
  rw [hSame]
  exact h s s stream

/-- What is read off the session does not depend on its stream. -/
theorem observe {f : Session → α} (h : ∀ (s : Session) stream, f { s with stream } = f s) :
    Oblivious (do return f (← get)) :=
  read (fun s => pure (f s)) fun s stream => congrArg Pure.pure (h s stream)

/-- A change of other parts of the session. -/
theorem modify {f : Session → Session}
    (h : ∀ (s : Session) stream, f { s with stream } = { f s with stream }) :
    Oblivious (modify f) :=
  fun s stream => congrArg (EStateM.Result.ok PUnit.unit) (h s stream)

/-- Something is done for each element of a list. -/
theorem forM {l : List β} {f : β → Parse PUnit} (h : ∀ b, Oblivious (f b)) :
    Oblivious (l.forM f) := by
  induction l with
  | nil => exact pure _
  | cons b rest ih => exact bind (h b) fun _ => ih

/-- A diagnostic is kept or not, wherever the lexer is. -/
theorem emit (d : Diagnostic) : Oblivious (emit d) := by
  intro s stream
  unfold Parse.emit
  dsimp only
  split <;> rfl

theorem warnAt (f : Finding) (line column : Nat) : Oblivious (warnAt f line column) := emit _

theorem failAt (f : Finding) (t : Token) : Oblivious (failAt f t : Parse α) :=
  bind (emit _) fun _ => throw _

theorem tooDeep : Oblivious (tooDeep : Parse α) := fun _ _ => rfl

theorem warnUnless (setting : Setting) (f : Finding) (line column : Nat) :
    Oblivious (warnUnless setting f line column) :=
  read (fun _ => ite _ (warnAt f line column) (pure ())) fun _ _ => rfl

theorem reportProblems (problems : List Setting.Problem) (line column : Nat) :
    Oblivious (reportProblems problems line column) :=
  forM fun _ => emit _

theorem modifyScopes (f : Scope.Tracker → Setting.Layers → Scope.Tracker) :
    Oblivious (modifyScopes f) :=
  modify fun _ _ => rfl

theorem flushScopes : Oblivious flushScopes :=
  read (fun _ => bind (modifyScopes _) fun _ => forM fun _ => warnAt _ _ _) fun _ _ => rfl

/-! ### Consuming tokens -/

/-- Which quote was used first is kept by the session. -/
theorem checkQuote (quote : Char) (line column : Nat) :
    Oblivious (checkQuote quote line column) := by
  have hWarn (c : Prop) [Decidable c] (f : Finding) :
      Oblivious (if c then Parse.warnAt f line column else Pure.pure ()) :=
    ite c (warnAt f line column) (pure ())
  intro s stream
  unfold Parse.checkQuote
  rw [get_bind_apply, get_bind_apply]
  dsimp only
  cases s.layers.quotePolicy with
  | off => rfl
  | single => exact hWarn _ _ s stream
  | double => exact hWarn _ _ s stream
  | consistent =>
    cases hFirst : s.firstQuote with
    | none =>
      dsimp only
      rfl
    | some first =>
      have hRun := hWarn (first != quote) .mixedQuotes s stream
      rw [hFirst] at hRun
      exact hRun

/-- What is checked about a consumed token depends on that token. -/
theorem checkConsumed : Oblivious checkConsumed := by
  refine read (fun s => ?_) fun _ _ => rfl
  dsimp only
  split
  · refine bind (checkQuote _ _ _) fun _ => when _ (warnAt _ _ _) ?_
    exact when _ (warnUnless _ _ _ _) (ite _ (warnUnless _ _ _ _) (pure ()))
  · exact ite _ (warnAt _ _ _) (pure ())
  · exact pure ()

/-- By induction on the lines left. -/
theorem warnLongLines (limit line : Nat) (lengths : List Nat) :
    Oblivious (warnLongLines limit line lengths) := by
  induction lengths generalizing line with
  | nil => exact pure ()
  | cons length rest ih => exact when _ (warnAt _ _ _) (ih (line + 1))

/-- The lengths of the lines were measured at the start. -/
theorem checkLinesBefore (line : Nat) : Oblivious (checkLinesBefore line) := by
  have hLimit (start : Nat) (lengths : List Nat) (limit : Option Nat) :
      Oblivious (limitLines start lengths limit) := by
    cases limit with
    | none => exact pure ()
    | some limit => exact warnLongLines limit _ _
  intro s stream
  rw [checkLinesBefore_apply, checkLinesBefore_apply]
  exact hLimit _ _ _ { s with checkedLines := _, uncheckedLines := _ } stream

/-- An entry of a directive takes effect in the same way. -/
theorem applyEntry (entry : Directive.Entry) (atGlobal : Bool) (line column : Nat) :
    Oblivious (applyEntry entry atGlobal line column) := by
  cases entry with
  | setOption setting value =>
    intro s stream
    let s' : Session := { s with stream }
    cases hSet : s.layers.set setting value atGlobal with
    | ok layers =>
      rw [applyEntry_of_ok hSet, applyEntry_of_ok (s := s') hSet]
      have hRest : Oblivious (predefine setting value) := by
        refine ite _ ?_ (pure ())
        split
        · exact modifyScopes _
        · exact pure ()
      exact hRest { s with layers } stream
    | error problem =>
      rw [applyEntry_of_error hSet, applyEntry_of_error (s := s') hSet]
      exact emit _ s stream
  | ignoreCode code => exact modify fun _ _ => rfl
  | ignore change => cases change <;> exact modify fun _ _ => rfl
  | declareGlobal name writable =>
    exact modifyScopes fun t _ => t.declareGlobal name writable line column
  | removeGlobal name => exact modifyScopes fun t _ => t.removeGlobal name
  | exportName name => exact modifyScopes fun t _ => t.exportName name

/-- What stands between tokens is noted alike. -/
theorem note (result : Lexer.Result) : Oblivious (note result) := by
  unfold Parse.note
  split
  · split
    · refine bind (reportProblems _ _ _) fun _ => ?_
      exact read (fun s => forM fun entry => applyEntry entry _ _ _) fun _ _ => rfl
    · exact pure ()
  · exact emit _

/-! ### Blocks and functions -/

theorem enterBlock (opener : Token) : Oblivious (Grammar.enterBlock opener) := by
  refine bind (modify fun _ _ => rfl) fun _ => ?_
  exact read (fun _ => ite _ (warnAt _ _ _) (pure ())) fun _ _ => rfl

/-- The limits of a function are checked against its counts. -/
theorem closeFunction (line column : Nat) : Oblivious (Grammar.closeFunction line column) := by
  intro s stream
  have hReports : Oblivious (do
      (Grammar.metricFindings s.layers s.metrics.current).forM fun f => Parse.warnAt f line column
      Parse.flushScopes) :=
    bind (forM fun f => warnAt f line column) fun _ => flushScopes
  exact hReports (Grammar.withoutFunction s) stream

end Oblivious

end Parse

/-! ## Sessions of the two runs -/

/-- The sessions are the same but for their streams, which hand out the same, comments apart. -/
def Session.Matched (source : String) (s s' : Session) : Prop :=
  ∃ stream, s' = { s with stream } ∧ s.stream.Faces source stream

namespace Parse

variable {α β : Type} {source : String} {p q p' q' : Parse α}

/-- In sessions of the two runs the parsers end alike, and leave sessions of the two runs. -/
def Mirrors (source : String) (p q : Parse α) : Prop :=
  ∀ s s', Session.Matched source s s' → Agree (Session.Matched source) (p s) (q s')

/-- A parser that does not touch the stream. -/
theorem Oblivious.mirrors (h : Oblivious p) : Mirrors source p p := by
  rintro s _ ⟨stream, rfl, hFaces⟩
  have hSame : p s = onStream s.stream (p s) := h s s.stream
  rw [h s stream]
  cases hr : p s with
  | ok a t =>
    rw [hr] at hSame
    have hStream : t.stream = s.stream := congrArg (fun r => (left r).stream) hSame
    exact .ok ⟨stream, rfl, hStream ▸ hFaces⟩
  | error e t =>
    rw [hr] at hSame
    have hStream : t.stream = s.stream := congrArg (fun r => (left r).stream) hSame
    exact .error ⟨stream, rfl, hStream ▸ hFaces⟩

/-- A change of what is the same in both sessions. -/
structure Apart (change : Session → Session) : Prop where
  blind : ∀ (s : Session) stream, change { s with stream } = { change s with stream }

/-- A change apart from the streams keeps the sessions matched. -/
theorem Apart.matched {change : Session → Session} (h : Apart change) {s s' : Session}
    (hs : s.Matched source s') : (change s).Matched source (change s') := by
  obtain ⟨stream, rfl, hFaces⟩ := hs
  have hStream : (change { s with stream := s.stream }).stream = s.stream := by rw [h.blind]
  exact ⟨stream, h.blind s stream, hStream ▸ hFaces⟩

namespace Mirrors

theorem pure (a : α) : Mirrors source (pure a) (pure a) := (Oblivious.pure a).mirrors

theorem bind {f g : α → Parse β} (h : Mirrors source p q) (hf : ∀ a, Mirrors source (f a) (g a)) :
    Mirrors source (p >>= f) (q >>= g) :=
  fun s s' hs => (h s s' hs).bind hf fun _ _ => id

theorem ite (c : Prop) [Decidable c] (h : Mirrors source p q) (h' : Mirrors source p' q') :
    Mirrors source (if c then p else p') (if c then q else q') := by
  split
  · exact h
  · exact h'

/-- What is done may depend on all but the stream. -/
theorem read {f g : Session → Parse α}
    (h : ∀ s s', s.Resembles (fun _ => False) s' → Mirrors source (f s) (g s')) :
    Mirrors source (get >>= f) (get >>= g) := by
  rintro s _ ⟨stream, rfl, hFaces⟩
  have hSeen : s.Resembles (fun _ => False) { s with stream } :=
    ⟨⟨stream, _, _, _, _, _, _, _, _⟩, rfl, fun _ _ => rfl⟩
  exact h s _ hSeen s _ ⟨stream, rfl, hFaces⟩

/-- Both runs succeed or fail alike. -/
theorem outcome (h : Mirrors source p q) : Mirrors source p.outcome q.outcome := by
  intro s s' hs
  have hAgree := h s s' hs
  generalize hr : p s = r, hr' : q s' = r' at hAgree
  cases hAgree with
  | ok ht =>
    rw [outcome_of_ok hr, outcome_of_ok hr']
    exact .ok ht
  | error ht =>
    rw [outcome_of_error hr, outcome_of_error hr']
    exact .ok ht

/-- Both runs give up on the statement, or neither does. -/
theorem recover (h : Mirrors source p q) (h' : Mirrors source p' q') :
    Mirrors source (p.recover p') (q.recover q') := by
  intro s s' hs
  have hAgree := h s s' hs
  generalize hr : p s = r, hr' : q s' = r' at hAgree
  cases hAgree with
  | ok ht =>
    rw [recover_of_ok hr, recover_of_ok hr']
    exact .ok ht
  | @error e t t' ht =>
    cases e with
    | badSyntax =>
      rw [recover_of_badSyntax hr, recover_of_badSyntax hr']
      exact h' t t' ht
    | halt =>
      rw [recover_of_halt hr, recover_of_halt hr']
      exact .error ht

/-- A change apart from the streams. -/
theorem modify {change : Session → Session} (h : Apart change) :
    Mirrors source (modify change) (modify change) :=
  fun _ _ hs => .ok (h.matched hs)

/-- The change comes after both runs, whatever became of them. -/
theorem ensuring {change : Session → Session} (h : Mirrors source p q) (hChange : Apart change) :
    Mirrors source (p.ensuring change) (q.ensuring change) := by
  intro s s' hs
  have hAgree := h s s' hs
  generalize hr : p s = r, hr' : q s' = r' at hAgree
  cases hAgree with
  | ok ht =>
    rw [ensuring_of_ok hr, ensuring_of_ok hr']
    exact .ok (hChange.matched ht)
  | error ht =>
    rw [ensuring_of_error hr, ensuring_of_error hr']
    exact .error (hChange.matched ht)

/-- By induction on the rounds. -/
theorem rounds {f g : α → Parse (Round α)} (h : ∀ a, Mirrors source (f a) (g a)) (n : Nat) (a : α) :
    Mirrors source (rounds f n a) (rounds g n a) := by
  induction n generalizing a with
  | zero => exact (Oblivious.throw _).mirrors
  | succ n ih =>
    refine bind (h a) fun r => ?_
    cases r with
    | again a => exact ih a
    | done a => exact pure a

/-- Both runs go round equally often, since their budgets are equal. -/
theorem loop {f g : α → Parse (Round α)} (h : ∀ a, Mirrors source (f a) (g a)) (a : α) :
    Mirrors source (loop f a) (loop g a) := by
  rintro s _ ⟨stream, rfl, hFaces⟩
  exact rounds h s.budget a s _ ⟨stream, rfl, hFaces⟩

/-- By induction on how often the parser is unfolded. -/
theorem unfolded {f g : Parse α → Parse α}
    (h : ∀ p q, Mirrors source p q → Mirrors source (f p) (g q)) (n : Nat) :
    Mirrors source (unfolded f n) (unfolded g n) := by
  induction n with
  | zero => exact (Oblivious.throw _).mirrors
  | succ n ih => exact h _ _ ih

/-- By induction on how often the parser contains itself. -/
theorem recursive {f g : Parse α → Parse α}
    (h : ∀ p q, Mirrors source p q → Mirrors source (f p) (g q)) :
    Mirrors source (recursive f) (recursive g) := by
  rintro s _ ⟨stream, rfl, hFaces⟩
  exact unfolded h s.budget s _ ⟨stream, rfl, hFaces⟩

/-! ### Tokens -/

/-- Looking ahead gives the same answer. -/
theorem look {f : TokenStream → α × TokenStream}
    (h : ∀ s s' : TokenStream, s.Faces source s' → (f s').1 = (f s).1 ∧
    (f s).2.Faces source (f s').2) :
    Mirrors source (fun s => .ok (f s.stream).1 { s with stream := (f s.stream).2 })
      (fun s => .ok (f s.stream).1 { s with stream := (f s.stream).2 }) := by
  rintro s _ ⟨stream, rfl, hFaces⟩
  obtain ⟨hSame, hAfter⟩ := h _ _ hFaces
  dsimp only
  rw [hSame]
  exact .ok ⟨_, rfl, hAfter⟩

/-- The next tokens are the same in both streams. -/
theorem peek (hSlash : NoBareSlash source) (n : Nat) : Mirrors source (peek n) (peek n) :=
  look fun _ _ h => h.survey hSlash TokenStream.answersAtEnd_passing n

theorem startsArrow (hSlash : NoBareSlash source) : Mirrors source startsArrow startsArrow := by
  refine look (f := TokenStream.closesBeforeArrow) fun s s' h => ?_
  obtain ⟨hSame, hAfter⟩ := h.survey hSlash TokenStream.answersAtEnd_closing 1
  exact ⟨congrArg (Option.getD · false) hSame, hAfter⟩

theorem allowRegex : Mirrors source allowRegex allowRegex := by
  rintro s _ ⟨stream, rfl, hFaces⟩
  exact .ok ⟨_, rfl, hFaces.allowRegex⟩

/-- A comment that is no directive leaves nothing to note. -/
theorem note_of_isComment {r : Lexer.Result} (h : Lexer.isComment r) : note r = Pure.pure () := by
  cases r with
  | error e => cases h
  | ok t =>
    obtain ⟨text, hText⟩ := TokenKind.exists_of_isComment h
    unfold note
    dsimp only
    rw [hText]

/-- By induction on the results: of a comment no note is taken. -/
theorem forM_note_filter (rs : List Lexer.Result) :
    (rs.filter (!Lexer.isComment ·)).forM note = rs.forM note := by
  induction rs with
  | nil => rfl
  | cons r rs ih =>
    show _ = note r >>= fun _ => rs.forM note
    cases hComment : Lexer.isComment r with
    | true =>
      rw [List.filter_cons_of_neg (by rw [hComment]; exact Bool.false_ne_true), ih,
        note_of_isComment hComment, pure_bind]
    | false =>
      rw [List.filter_cons_of_pos (by rw [hComment]; rfl)]
      show note r >>= (fun _ => (rs.filter (!Lexer.isComment ·)).forM note) = _
      rw [ih]

/-- The comments that are passed over leave nothing to note. -/
theorem nextSignificant (hSlash : NoBareSlash source) :
    Mirrors source nextSignificant nextSignificant := by
  rintro s _ ⟨stream, rfl, hFaces⟩
  obtain ⟨hResults, hToken, hAfter⟩ := hFaces.pullSignificant hSlash
  have hNotes : Mirrors source
      (do s.stream.pullSignificant.1.forM note
          return (s.stream.pullSignificant.1.getLast?.bind Lexer.significant?).getD .origin)
      (do stream.pullSignificant.1.forM note
          return (stream.pullSignificant.1.getLast?.bind Lexer.significant?).getD .origin) := by
    rw [hToken, hResults, forM_note_filter]
    exact (Oblivious.bind (.forM Oblivious.note) fun _ => .pure _).mirrors
  exact hNotes { s with stream := s.stream.pullSignificant.2 } _ ⟨_, rfl, hAfter⟩

/-- Consuming a token leads from matched sessions to such sessions again. -/
theorem advance (hSlash : NoBareSlash source) : Mirrors source advance advance := by
  refine bind Oblivious.checkConsumed.mirrors fun _ => bind (modify ⟨fun _ _ => rfl⟩) fun _ => ?_
  refine bind (nextSignificant hSlash) fun t => bind (modify ⟨fun _ _ => rfl⟩) fun _ => ?_
  exact (Oblivious.checkLinesBefore t.line).mirrors

end Mirrors

end Parse

end ScriptLint
