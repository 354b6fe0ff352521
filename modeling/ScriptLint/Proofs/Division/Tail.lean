import ScriptLint.Proofs.Division.Lockstep

/-!
# Behind the end of the shorter source

Once the shorter source has come to the semicolon at its end, the longer one is at its division.
What the first run has left to do there moves no token. The second run does the same at the
division, until some loop over operators takes it, and after that at its own semicolon.

- `Held`, `Past`: sessions of the longer source at the division, or at the semicolon behind it.
- `Closing`: how the second run ends where the first one has come to its semicolon. The division
  waits for a later operator only if the parser binds more tightly than a division.
- `Trails`, `Rests`, `Closes`: parsers whose second run ends so if they start before the sources
  part, also if they start behind the end, or do not stay there.
-/

namespace ScriptLint

namespace Session

/-- Nothing harmful was found. -/
structure Unharmed (s : Session) : Prop where
  calm : s.scopes.Calm
  clean : s.journal.Clean

/-- Standing still does no harm. -/
theorem Unharmed.stands {s t : Session} (hs : s.Unharmed) (h : s.Stands True t) : t.Unharmed :=
  ⟨h.calm hs.calm, h.clean hs.calm hs.clean⟩

end Session

/-- Where nothing harmful is reported, the run stays where it is or stops. -/
theorem Parse.Resolves.unharmed {α : Type} {p : Parse α} {P : Session → Prop} {s : Session}
    (h : Resolves (standing True) p) (hs : s.Unharmed) (hP : ∀ t, s.Stands True t → P t) :
    Resolved P Session.Unharmed (p s) :=
  (h s).imp hP fun _ => hs.stands

namespace Division

open Lexer Parse

/-- All is well at a token of the kind given, after which so much of the source is left. -/
structure At (kind : TokenKind) (rest : List Char) (s : Session) : Prop extends s.Unharmed where
  token : s.token.kind = kind
  front : ∃ l, s.stream.From l ∧ l.cursor.rest = rest

/-- The longer source is at its division. -/
abbrev Held : Session → Prop := At (.punctuator .divide) [' ', 'y', ';']

/-- The longer source is at the semicolon behind its division. -/
abbrev Past : Session → Prop := At (.punctuator .semicolon) []

/-- Standing still stays at the token. -/
theorem At.stands {kind : TokenKind} {rest : List Char} {s t : Session} (hs : At kind rest s)
    (h : s.Stands True t) : At kind rest t where
  toUnharmed := hs.toUnharmed.stands h
  token := h.token ▸ hs.token
  front := h.stream ▸ hs.front

variable {α β : Type} {stop : Nat} {tight tight' : Prop} {p q : Parse α} {f g : α → Parse β}

/-! ## How the second run ends -/

/-- How the second run ends where the first one ends at its semicolon with a value: it waits at the
division with the same value, it is past the division, or it has stopped. -/
inductive Closing (tight : Prop) (a : α) : EStateM.Result Abort Session α → Prop
  | held {t : Session} : tight → Held t → Closing tight a (.ok a t)
  | past {b : α} {t : Session} : (tight → b = a) → Past t → Closing tight a (.ok b t)
  | stopped {t : Session} : t.Unharmed → Closing tight a (.error .halt t)

/-- From sessions related as described, if the first run ends at its semicolon. -/
def Follows (stop : Nat) (tight : Prop) (R : Session → Session → Prop) (p q : Parse α) : Prop :=
  ∀ s s', R s s' → ∀ a t, p s = .ok a t → Stopped stop t → Closing tight a (q s')

/-- The first session is at its semicolon. -/
def Behind (stop : Nat) (P : Session → Prop) (s s' : Session) : Prop := Stopped stop s ∧ P s'

/-- Parsers that run in lockstep and close if the first run ends at its semicolon. -/
structure Trails (stop : Nat) (tight : Prop) (p q : Parse α) : Prop extends Lockstep stop p q where
  trails : Follows stop tight (Abreast stop) p q

/-- Parsers that close if the first run starts at its semicolon. -/
structure Idles (stop : Nat) (tight : Prop) (p q : Parse α) : Prop where
  held : Follows stop tight (Behind stop Held) p q
  past : Follows stop tight (Behind stop Past) p q

/-- Parsers that close wherever the first run starts. -/
structure Rests (stop : Nat) (tight : Prop) (p q : Parse α) : Prop extends
  Trails stop tight p q, Idles stop tight p q

/-- A parser that moves on, or fails, if it starts at the semicolon. -/
def Stuck (stop : Nat) (p : Parse α) : Prop :=
  ∀ s, Stopped stop s → ∀ a t, p s = .ok a t → ¬Stopped stop t

/-- Besides, the first run does not stay at its semicolon. -/
structure Closes (stop : Nat) (tight : Prop) (p q : Parse α) :
    Prop extends Trails stop tight p q where
  stuck : Stuck stop p

/-- What closes the expression rests there. -/
theorem Closes.rests (h : Closes stop tight p q) : Rests stop tight p q where
  toTrails := h.toTrails
  held s _ hs a t ht hStopped := absurd hStopped (h.stuck s hs.1 a t ht)
  past s _ hs a t ht hStopped := absurd hStopped (h.stuck s hs.1 a t ht)

/-- Sessions abreast are not at the semicolon. -/
theorem Abreast.not_stopped {s s' : Session} (h : Abreast stop s s') : ¬Stopped stop s := by
  intro hStopped
  have hBefore := h.1
  rw [hStopped.offset] at hBefore
  exact Nat.lt_irrefl _ hBefore

/-! ## One thing after another -/

/-- A run that ends at the semicolon was there before, if its source was over. -/
theorem Stopped.before {s t : Session} {a : α} (ht : Stopped stop t) (h : p s = .ok a t)
    (hp : (onward stop).Keeps p) (hs : Over stop s) : Stopped stop s := by
  have hGoes := hp s
  rw [h] at hGoes
  exact (hGoes hs).2 ht

/-- A result of what never leads back is past the stop as well. -/
theorem Over.of_ok {s t : Session} {a : α} (hs : Over stop s) (h : p s = .ok a t)
    (hp : (onward stop).Keeps p) : Over stop t := by
  have hGoes := hp s
  rw [h] at hGoes
  exact (hGoes hs).1

/-- The second run goes on from where its first part ended. -/
theorem Closing.bind {s t u : Session} {a : α} {b : β} (h : Closing tight' a (q s))
    (ht : Stopped stop t) (hb : f a t = .ok b u) (hu : Stopped stop u)
    (hHeld : tight' → Follows stop tight (Behind stop Held) (f a) (g a))
    (hPast : ∀ c, (tight' → c = a) → Follows stop tight (Behind stop Past) (f a) (g c)) :
    Closing tight b ((q >>= g) s) := by
  generalize hr : q s = r at h
  cases h with
  | held hTight hm =>
    rw [bind_of_ok hr]
    exact hHeld hTight t _ ⟨ht, hm⟩ b u hb hu
  | @past c m hValue hm =>
    rw [bind_of_ok hr]
    exact hPast c hValue t m ⟨ht, hm⟩ b u hb hu
  | stopped hm =>
    rw [bind_of_error hr]
    exact .stopped hm

/-- The first part may end at the semicolon; the second then starts there. -/
theorem Trails.bindWith (h : Trails stop tight' p q) (hf : ∀ a, Trails stop tight (f a) (g a))
    (hHeld : tight' → ∀ a, Follows stop tight (Behind stop Held) (f a) (g a))
    (hPast : ∀ a c, (tight' → c = a) → Follows stop tight (Behind stop Past) (f a) (g c)) :
    Trails stop tight (p >>= f) (q >>= g) where
  toLockstep := h.toLockstep.bind fun a => (hf a).toLockstep
  trails s s' hs b u hb hu := by
    obtain ⟨a, t, ha, hb⟩ := exists_of_bind hb
    have hMeets := h.meets s s' hs
    have hClosing (ht : Stopped stop t) := h.trails s s' hs a t ha ht
    rw [ha] at hMeets
    generalize hr : q s' = r at hMeets
    cases hMeets with
    | ok hAbreast =>
      rw [bind_of_ok hr]
      exact (hf a).trails _ _ hAbreast b u hb hu
    | ended hOver =>
      have ht : Stopped stop t := hu.before hb (hf a).onward hOver
      exact (hClosing ht).bind ht hb hu (fun hTight => hHeld hTight a) (hPast a)

/-- What trails is gone on from by what rests. -/
theorem Trails.bind (h : Trails stop True p q) (hf : ∀ a, Rests stop tight (f a) (g a)) :
    Trails stop tight (p >>= f) (q >>= g) :=
  h.bindWith (fun a => (hf a).toTrails) (fun _ a => (hf a).held) fun a _ hc =>
    hc trivial ▸ (hf a).past

/-- From the semicolon on, part by part. -/
theorem Follows.bind {P : Session → Prop} (hp : Follows stop tight' (Behind stop P) p q)
    (hOnward : (onward stop).Keeps p) (hf : ∀ a, (onward stop).Keeps (f a))
    (hHeld : tight' → ∀ a, Follows stop tight (Behind stop Held) (f a) (g a))
    (hPast : ∀ a c, (tight' → c = a) → Follows stop tight (Behind stop Past) (f a) (g c)) :
    Follows stop tight (Behind stop P) (p >>= f) (q >>= g) := by
  intro s s' hs b u hb hu
  obtain ⟨a, t, ha, hb⟩ := exists_of_bind hb
  have ht : Stopped stop t := hu.before hb (hf a) (hs.1.ended.of_ok ha hOnward)
  exact (hp s s' hs a t ha ht).bind ht hb hu (fun hTight => hHeld hTight a) (hPast a)

/-- What rests is gone on from by what rests. -/
theorem Rests.bind (h : Rests stop True p q) (hf : ∀ a, Rests stop tight (f a) (g a)) :
    Rests stop tight (p >>= f) (q >>= g) where
  toTrails := h.toTrails.bind hf
  held := h.held.bind h.onward (fun a => (hf a).onward) (fun _ a => (hf a).held)
    fun a _ hc => hc trivial ▸ (hf a).past
  past := h.past.bind h.onward (fun a => (hf a).onward) (fun _ a => (hf a).held)
    fun a _ hc => hc trivial ▸ (hf a).past

/-- If the first part does not stay at the semicolon, nothing does. -/
theorem Stuck.bind (h : Stuck stop p) (hOnward : (onward stop).Keeps p)
    (hf : ∀ a, (onward stop).Keeps (f a)) : Stuck stop (p >>= f) := by
  intro s hs b u hb hu
  obtain ⟨a, t, ha, hb⟩ := exists_of_bind hb
  exact h s hs a t ha (hu.before hb (hf a) (hs.ended.of_ok ha hOnward))

/-- What closes is gone on from differently where the second run is held and where it is past. -/
theorem Closes.bindWith (h : Closes stop tight' p q) (hf : ∀ a, Trails stop tight (f a) (g a))
    (hHeld : tight' → ∀ a, Follows stop tight (Behind stop Held) (f a) (g a))
    (hPast : ∀ a c, (tight' → c = a) → Follows stop tight (Behind stop Past) (f a) (g c)) :
    Closes stop tight (p >>= f) (q >>= g) where
  toTrails := h.toTrails.bindWith hf hHeld hPast
  stuck := h.stuck.bind h.onward fun a => (hf a).onward

/-- What closes is gone on from by what rests. -/
theorem Closes.bind (h : Closes stop True p q) (hf : ∀ a, Rests stop tight (f a) (g a)) :
    Closes stop tight (p >>= f) (q >>= g) where
  toTrails := h.toTrails.bind hf
  stuck := h.stuck.bind h.onward fun a => (hf a).onward

/-- What comes before a parser that closes need only run in lockstep. -/
theorem Closes.prepend (h : Lockstep stop p q) (hf : ∀ a, Closes stop tight (f a) (g a)) :
    Closes stop tight (p >>= f) (q >>= g) where
  toLockstep := h.bind fun a => (hf a).toLockstep
  trails s s' hs b u hb hu := by
    obtain ⟨a, t, ha, hb⟩ := exists_of_bind hb
    have hMeets := h.meets s s' hs
    rw [ha] at hMeets
    generalize hr : q s' = r at hMeets
    cases hMeets with
    | ok hAbreast =>
      rw [bind_of_ok hr]
      exact (hf a).trails _ _ hAbreast b u hb hu
    | ended hOver =>
      have ht : Stopped stop t := hu.before hb (hf a).onward hOver
      exact absurd hu ((hf a).stuck t ht b u hb)
  stuck := by
    intro s hs b u hb hu
    obtain ⟨a, t, ha, hb⟩ := exists_of_bind hb
    have ht : Stopped stop t := hu.before hb (hf a).onward (hs.ended.of_ok ha h.onward)
    exact (hf a).stuck t ht b u hb hu

/-! ## Steps -/

/-- A result that is not noted makes no difference. -/
theorem forM_note_snoc (passed : List Result) {r : Result} (h : note r = Pure.pure ()) :
    (passed ++ [r]).forM note = passed.forM note := by
  induction passed with
  | nil =>
    show (note r >>= fun _ => Pure.pure ()) = _
    rw [h]
    rfl
  | cons first rest ih =>
    show (note first >>= fun _ => (rest ++ [r]).forM note) = _
    rw [ih]
    rfl

/-- Consuming the last token before the sources part leads to the semicolon on one side and to the
division on the other. -/
theorem held_of_advance {s s' t : Session} {count : Nat} {l l' after after' : Lexer}
    {next slash : Token} {passed : List Result} (hPaired : Paired stop count l l' s s')
    (hLeads : Leads l (passed ++ [.ok next]) next after)
    (hLeads' : Leads l' (passed ++ [.ok slash]) slash after')
    (hNext : next.kind = .punctuator .semicolon)
    (hSlash : slash.kind = .punctuator .divide) (hLine : slash.line = 1)
    (hRest : after'.cursor.rest = [' ', 'y', ';']) (ht : advance s = .ok () t)
    (hClean : t.journal.Clean) : ∃ t', advance s' = .ok () t' ∧ Held t' := by
  -- neither the semicolon nor the slash is noted
  have hNotes {last : Token} {p : Punctuator} (hLast : last.kind = .punctuator p) :
      (passed ++ [Except.ok last]).forM note = passed.forM note := by
    have hNone : note (.ok last) = Pure.pure () := by
      unfold note
      dsimp only
      rw [hLast]
    exact forM_note_snoc passed hNone
  have hArrives := advance_arrives hPaired.front' hLeads'
  have hSteady := steady_passable.advance s'
  have hCalm : s'.scopes.Calm := by
    obtain ⟨_, _, _, _, hs, -⟩ := hPaired.beside
    rw [hs]
    exact hPaired.calm
  -- the semicolon moves on from the same session as the slash, but for what is ahead
  rw [advance_eq hPaired.front hLeads, arrive, hNotes hNext] at ht
  rw [advance_eq hPaired.front' hLeads'] at hArrives hSteady ⊢
  obtain ⟨_, m, hm, ht⟩ := exists_of_bind ht
  let read : Session := { m with
    consumed := m.token.offset + m.token.raw.length, stream := s.stream.pullSignificant.2 }
  obtain ⟨_, n, hn, ht⟩ := exists_of_bind (show (passed.forM note >>= _) read = _ from ht)
  have hConsumed := blind_checkConsumed s s' hPaired.beside
  rw [hm] at hConsumed
  generalize hm' : checkConsumed s' = r at hConsumed
  cases hConsumed with
  | ok hBeside =>
    obtain ⟨_, sourceLength, uncheckedLines, journal, rfl, hj⟩ := hBeside
    let read' : Session := { read with
      stream := s'.stream.pullSignificant.2, sourceLength, uncheckedLines, journal }
    have hBlind : Blind (passed.forM note) := .forM fun r _ => blind_note r
    have hNoted := hBlind read read' ⟨_, _, _, _, rfl, hj⟩
    rw [hn] at hNoted
    generalize hn' : passed.forM note read' = r at hNoted
    cases hNoted with
    | @ok _ _ n' hBeside =>
      obtain ⟨_, _, _, _, hSame, hj⟩ := hBeside
      -- the slash is on the first line, so no line is checked before it
      have hRun : arrive s'.stream.pullSignificant.2 (passed ++ [.ok slash]) slash s' =
          .ok () { n' with previous := n'.token, token := slash } := by
        rw [arrive, hNotes hSlash, bind_of_ok hm']
        show (passed.forM note >>= _) read' = _
        rw [bind_of_ok hn']
        show checkLinesBefore slash.line { n' with previous := n'.token, token := slash } = _
        rw [hLine, checkLinesBefore_one]
      rw [hRun] at hArrives hSteady ⊢
      have hLines := standing_checkLinesBefore (c := True) next.line
        { n with previous := n.token, token := next }
      rw [show checkLinesBefore next.line { n with previous := n.token, token := next } =
        .ok () t from ht] at hLines
      have hKept : n.journal.Clean := fun d hd => hClean d (hLines.kept d hd)
      refine ⟨_, rfl, ⟨hCalm.evolves hSteady.scopes, ?_⟩, hSlash, after', hArrives.front, hRest⟩
      show n'.journal.Clean
      rw [hSame]
      exact hj.clean hKept

/-- A consumed token closes the expression, if the semicolon is next. -/
theorem closes_advance : Closes stop True advance advance where
  toLockstep := .advance
  trails s s' hs u t ht hStopped := by
    obtain ⟨hOffset, count, l, l', hPaired, hFlag⟩ := id hs
    obtain ⟨rs, next, after, hLeads⟩ := exists_leads l
    have hArrives := advance_arrives hPaired.front hLeads
    rw [ht] at hArrives
    -- a token both sources have is before the stop
    rcases hPaired.twins.leads hLeads with hNext | hLast
    · have hBefore := hNext.offset
      rw [← hArrives.token, hStopped.offset] at hBefore
      exact absurd hBefore (Nat.lt_irrefl _)
    · rcases Abreast.last hOffset hPaired.front hFlag hLeads hLast with hOver |
        ⟨hKind, -, -, passed, slash, after', rfl, hLeads', hSlash, -, hLine, hRest⟩
      · exact absurd (hStopped.before ht onward_advance hOver) hs.not_stopped
      · obtain ⟨t', ht', hHeld⟩ :=
          held_of_advance hPaired hLeads hLeads' hKind hSlash hLine hRest ht hStopped.clean
        rw [ht']
        exact .held trivial hHeld
  stuck s hs u t ht := by
    obtain ⟨l, rs, next, after, hFrom, hLeads, hRest, hOffset, -, -, hPlace⟩ := hs.ended
    have hOver := advance_over hFrom hLeads hRest hOffset hPlace
    rw [ht] at hOver
    exact hOver.2

/-- A parser that never succeeds. -/
theorem closes_of_error (h : Lockstep stop p q) (hp : ∀ s a t, p s ≠ .ok a t) :
    Closes stop tight p q where
  toLockstep := h
  trails _ _ _ a t ht := absurd ht (hp _ a t)
  stuck _ _ a t ht := absurd ht (hp _ a t)

/-- An error that gives up closes nothing. -/
theorem closes_failAt (f : Finding) (t : Token) (h : f.givesUp) :
    Closes stop tight (failAt f t : Parse α) (failAt f t) := by
  refine closes_of_error ((lockstep stop).failAt f t h) fun s a u hu => ?_
  obtain ⟨_, m, -, hThrow⟩ := exists_of_bind hu
  cases hThrow

theorem Closes.read {f g : Session → Parse α}
    (h : ∀ s s', s.SameView s' → Closes stop tight (f s) (g s')) :
    Closes stop tight (get >>= f) (get >>= g) where
  toLockstep := .read fun s s' hs => (h s s' hs).toLockstep
  trails s s' hs a t ht hStopped := by
    obtain ⟨-, _, _, _, hPaired, -⟩ := id hs
    exact (h s s' hPaired.beside.sameView).trails s s' hs a t ht hStopped
  stuck s hs a t ht := (h s s (.refl s)).stuck s hs a t ht

theorem closes_failHere (f : Finding) (h : f.givesUp) :
    Closes stop tight (failHere f : Parse α) (failHere f) := by
  refine .read fun s s' ⟨_, _, _, _, hs⟩ => ?_
  subst hs
  exact closes_failAt f s.token h

theorem closes_failExpected (expected : String) :
    Closes stop tight (failExpected expected : Parse α) (failExpected expected) := by
  refine .read fun s s' ⟨_, _, _, _, hs⟩ => ?_
  subst hs
  exact closes_failHere _ rfl

theorem closes_failIdentifier : Closes stop tight (failIdentifier : Parse α) failIdentifier := by
  refine .read fun s s' ⟨_, _, _, _, hs⟩ => ?_
  subst hs
  exact closes_failHere _ rfl

/-- A parser that stays in place comes to no semicolon. -/
theorem follows_of_placed (h : ∀ s a t, p s = .ok a t → s.Placed t) :
    Follows stop tight (Abreast stop) p q := by
  intro s s' hs a t ht hStopped
  have hBefore := hs.1
  rw [← (h s a t ht).token, hStopped.offset] at hBefore
  exact absurd hBefore (Nat.lt_irrefl _)

/-- A value returned where the second run is held. -/
theorem follows_pure_held (hTight : tight) (a : α) :
    Follows stop tight (Behind stop Held) (pure a) (pure a) := by
  intro s s' hs b t ht _
  cases ht
  exact .held hTight hs.2

/-- A value returned where the second run is past the division. -/
theorem follows_pure_past {a b : α} (h : tight → b = a) :
    Follows stop tight (Behind stop Past) (pure a) (pure b) := by
  intro s s' hs c t ht _
  cases ht
  exact .past h hs.2

theorem trails_pure (a : α) : Trails stop tight (pure a) (pure a) where
  toLockstep := .pure a
  trails := follows_of_placed fun s b t ht => by
    cases ht
    exact ⟨rfl, rfl, rfl, rfl, rfl⟩

theorem rests_pure (a : α) : Rests stop True (pure a) (pure a) where
  toTrails := trails_pure a
  held := follows_pure_held trivial a
  past := follows_pure_past fun _ => rfl

theorem idles_pure (a : α) : Idles stop True (pure a) (pure a) :=
  ⟨follows_pure_held trivial a, follows_pure_past fun _ => rfl⟩

/-- What comes before may stay in place, if it says the same on both sides. -/
theorem Trails.after (h : Lockstep stop p q) (hStay : ∀ s a t, p s = .ok a t → t.token = s.token)
    (hf : ∀ a, Trails stop tight (f a) (g a)) : Trails stop tight (p >>= f) (q >>= g) where
  toLockstep := h.bind fun a => (hf a).toLockstep
  trails s s' hs b u hb hu := by
    obtain ⟨a, t, ha, hb⟩ := exists_of_bind hb
    have hMeets := h.meets s s' hs
    rw [ha] at hMeets
    generalize hr : q s' = r at hMeets
    cases hMeets with
    | ok hAbreast =>
      rw [bind_of_ok hr]
      exact (hf a).trails _ _ hAbreast b u hb hu
    | ended hOver =>
      have hOffset := (hu.before hb (hf a).onward hOver).offset
      rw [hStay s a t ha] at hOffset
      exact absurd hOffset (Nat.ne_of_lt hs.1)

theorem Trails.current {f g : Token → Parse α} (h : ∀ t, Trails stop tight (f t) (g t)) :
    Trails stop tight (current >>= f) (current >>= g) :=
  .after (lockstep stop).current (fun _ _ _ ht => by cases ht; rfl) h

/-- What is done at the semicolon alone need not stay there. -/
theorem Closes.current {f g : Token → Parse α} (h : ∀ t, Trails stop tight (f t) (g t))
    (hStuck : ∀ t : Token, t.kind = .punctuator .semicolon → Stuck stop (f t)) :
    Closes stop tight (current >>= f) (current >>= g) where
  toTrails := .current h
  stuck s hs := hStuck s.token hs.token s hs

/-- What is done at the semicolon on one side, and at the division or the semicolon on the other, is
to stay there. -/
theorem Rests.current {f g : Token → Parse α} (h : ∀ t, Trails stop tight (f t) (g t))
    (hIdles : ∀ t t' : Token, t.kind = .punctuator .semicolon →
      t'.kind = .punctuator .semicolon ∨ t'.kind =
        .punctuator .divide → Idles stop tight (f t) (g t')) :
    Rests stop tight (current >>= f) (current >>= g) where
  toTrails := .current h
  held s s' hs := (hIdles s.token s'.token hs.1.token (.inr hs.2.token)).held s s' hs
  past s s' hs := (hIdles s.token s'.token hs.1.token (.inl hs.2.token)).past s s' hs

/-- A question about the current token that a semicolon and a division answer in the same way. -/
theorem rests_ask {f : Token → Bool} (h : ∀ t : Token,
    t.kind = .punctuator .semicolon ∨ t.kind = .punctuator .divide → f t = false) :
    Rests stop True (do return f (← get).token) (do return f (← get).token) := by
  show Rests stop True (Parse.current >>= fun t => pure (f t))
    (Parse.current >>= fun t => pure (f t))
  refine .current (fun t => trails_pure _) fun t t' ht ht' => ?_
  rw [h t (.inl ht), h t' ht']
  exact idles_pure false

/-- Neither run sees a token that is neither the semicolon nor the slash. -/
theorem rests_sees {p : Punctuator} (h : p ≠ .semicolon ∧ p ≠ .divide) :
    Rests stop True (sees p) (sees p) := by
  refine rests_ask (f := (·.isPunctuator p)) fun t ht => ?_
  unfold Token.isPunctuator
  rcases ht with ht | ht
  · rw [ht]
    exact decide_eq_false (Ne.symm h.1)
  · rw [ht]
    exact decide_eq_false (Ne.symm h.2)

/-! ## Checks -/

/-- Whatever else it does, the parser gives this value. -/
def Gives (a : α) (p : Parse α) : Prop := ∀ s b t, p s = .ok b t → b = a

theorem gives_pure (a : α) : Gives a (pure a) := by
  intro s b t ht
  cases ht
  rfl

/-- The value is given by what comes last. -/
theorem Gives.bind {b : β} (h : ∀ a, Gives b (f a)) : Gives b (p >>= f) := by
  intro s c u hu
  obtain ⟨a, t, -, hc⟩ := exists_of_bind hu
  exact h a t c u hc

theorem Gives.ite {a : α} (c : Prop) [Decidable c] (hp : Gives a p) (hq : Gives a q) :
    Gives a (if c then p else q) := by
  split
  · exact hp
  · exact hq

/-- A check where the second run is held leaves it there. -/
theorem closing_of_held {a : α} {s : Session} (h : Resolved Held Session.Unharmed (q s))
    (hTight : tight) (ha : Gives a q) : Closing tight a (q s) := by
  cases hr : q s with
  | ok b t =>
    rw [hr] at h
    rw [ha s b t hr]
    exact .held hTight h
  | error e t =>
    rw [hr] at h
    cases e with
    | badSyntax => exact h.elim
    | halt => exact .stopped h

/-- A check where the second run is past the division leaves it there. -/
theorem closing_of_past {a : α} {s : Session} (h : Resolved Past Session.Unharmed (q s))
    (ha : tight → Gives a q) : Closing tight a (q s) := by
  cases hr : q s with
  | ok b t =>
    rw [hr] at h
    exact .past (fun hTight => ha hTight s b t hr) h
  | error e t =>
    rw [hr] at h
    cases e with
    | badSyntax => exact h.elim
    | halt => exact .stopped h

/-- A check of both runs trails. -/
theorem trails_check (h : Lockstep stop p p) (hp : Resolves (standing True) p) :
    Trails stop tight p p where
  toLockstep := h
  trails := follows_of_placed fun s a t ht => by
    have hResolved := hp s
    rw [ht] at hResolved
    exact hResolved.toPlaced

/-- A check that may report something harmless and gives one value. -/
theorem rests_check {a : α} (h : Lockstep stop p p) (hp : Resolves (standing True) p)
    (ha : Gives a p) : Rests stop True p p where
  toTrails := trails_check h hp
  held s s' hs b t ht _ := by
    have hEnd := hp.unharmed hs.2.toUnharmed fun _ => hs.2.stands
    rw [ha s b t ht]
    exact closing_of_held hEnd trivial ha
  past s s' hs b t ht _ := by
    have hEnd := hp.unharmed hs.2.toUnharmed fun _ => hs.2.stands
    rw [ha s b t ht]
    exact closing_of_past hEnd fun _ => ha

/-- A check that may report something harmless. -/
theorem rests_remark {p : Parse Unit} (h : Lockstep stop p p) (hp : Resolves (standing True) p) :
    Rests stop True p p :=
  rests_check (a := ()) h hp fun _ _ _ _ => rfl

/-- Past the division, a check may be about another value and give another one. -/
theorem follows_loose (hTight : ¬tight) (h : Resolves (standing True) q) :
    Follows stop tight (Behind stop Past) p q := by
  intro s s' hs a t _ _
  have hEnd := h.unharmed hs.2.toUnharmed fun _ => hs.2.stands
  exact closing_of_past hEnd fun ht => absurd ht hTight

/-! ## Combinations -/

theorem Closing.congr {a : α} {r : EStateM.Result Abort Session α} (h : Closing tight a r)
    (hTight : tight ↔ tight') : Closing tight' a r := by
  cases h with
  | held ht h => exact .held (hTight.mp ht) h
  | past hValue h => exact .past (fun ht => hValue (hTight.mpr ht)) h
  | stopped h => exact .stopped h

theorem Closes.congr (h : Closes stop tight p q) (hTight : tight ↔ tight') :
    Closes stop tight' p q where
  toLockstep := h.toLockstep
  trails s s' hs a t ht hStopped := (h.trails s s' hs a t ht hStopped).congr hTight
  stuck := h.stuck

theorem Closes.ite {p' q' : Parse α} (c : Prop) [Decidable c] (h : Closes stop tight p q)
    (h' : Closes stop tight p' q') :
    Closes stop tight (if c then p else p') (if c then q else q') := by
  split
  · exact h
  · exact h'

/-- Both branches go on in the same way; only one of them does something before. -/
theorem Closes.when (c : Prop) [Decidable c] {p q : Parse Unit} {f g : Unit → Parse α}
    (h : Lockstep stop p q) (hf : ∀ u, Closes stop tight (f u) (g u)) :
    Closes stop tight (if c then p >>= f else f ()) (if c then q >>= g else g ()) :=
  .ite c (.prepend h hf) (hf ())

/-- The value does not matter. -/
theorem Closes.discard (h : Closes stop tight p q) (hTight : tight → tight') :
    Closes stop tight' (discard p) (discard q) := by
  rw [discard_eq_bind, discard_eq_bind]
  exact h.bindWith (fun _ => trails_pure ()) (fun ht _ => follows_pure_held (hTight ht) ())
    fun _ _ _ => follows_pure_past fun _ => rfl

/-- The value is that of a function of the value, whatever was found. -/
theorem Closes.map (h : Closes stop tight p q) (f : α → β) :
    Closes stop tight (do return f (← p)) (do return f (← q)) :=
  h.bindWith (fun _ => trails_pure _) (fun ht _ => follows_pure_held ht _)
    fun a c hc => follows_pure_past fun ht => by rw [hc ht]

/-- What is done in any outcome leaves the second run where it is. -/
theorem Closing.ensuring {change : Session → Session} {s : Session} {a : α}
    (h : Closing tight a (q s))
    (hChange : Still change) : Closing tight a (q.ensuring change s) := by
  generalize hr : q s = r at h
  cases h with
  | held ht h =>
    rw [ensuring_of_ok hr]
    exact .held ht (h.stands (hChange.stands _))
  | past hValue h =>
    rw [ensuring_of_ok hr]
    exact .past hValue (h.stands (hChange.stands _))
  | stopped h =>
    rw [ensuring_of_error hr]
    exact .stopped (h.stands (hChange.stands _))

theorem Closes.ensuring {change : Session → Session} (h : Closes stop tight p q)
    (hChange : Still change) : Closes stop tight (p.ensuring change) (q.ensuring change) where
  toLockstep := h.toLockstep.ensuring hChange
  trails s s' hs a t ht hStopped := by
    obtain ⟨m, hm, rfl⟩ := exists_of_ensuring ht
    have hBefore := hStopped.of_stands (hChange.stands (c := True) m)
    exact (h.trails s s' hs a m hm hBefore).ensuring hChange
  stuck s hs a t ht hStopped := by
    obtain ⟨m, hm, rfl⟩ := exists_of_ensuring ht
    exact h.stuck s hs a m hm (hStopped.of_stands (hChange.stands (c := True) m))

theorem Closes.withNoIn (noIn : Bool) (h : Closes stop tight p q) :
    Closes stop tight (withNoIn noIn p) (withNoIn noIn q) := by
  refine .read fun s s' ⟨_, _, _, _, hs⟩ => ?_
  subst hs
  exact .prepend (.modify (still_apart fun _ _ _ _ _ => rfl)) fun _ =>
    h.ensuring (still_apart fun _ _ _ _ _ => rfl)

/-- The hint on the expression is cleared in both runs. -/
theorem Closes.clearingHint (h : Closes stop tight p q) :
    Closes stop tight p.clearingHint q.clearingHint :=
  h.ensuring (still_apart fun _ _ _ _ _ => rfl)

theorem closes_tooDeep : Closes stop tight (tooDeep : Parse α) tooDeep := by
  refine closes_of_error ⟨fun _ => trivial, fun _ _ _ => .ended trivial⟩ fun s a t ht => ?_
  cases ht

theorem Closes.deeper (h : Closes stop tight p q) : Closes stop tight p.deeper q.deeper := by
  refine .read fun s s' ⟨_, _, _, _, hs⟩ => ?_
  subst hs
  dsimp only
  split
  · exact .prepend (.modify (still_apart fun _ _ _ _ _ => rfl)) fun _ =>
      h.ensuring (still_apart fun _ _ _ _ _ => rfl)
  · exact closes_tooDeep

/-- What is left of a loop after one of its rounds. -/
def roundsAfter (f : α → Parse (Round α)) (n : Nat) : Round α → Parse α
  | .again a => rounds f n a
  | .done a => Pure.pure a

theorem onward_roundsAfter {f : α → Parse (Round α)} (h : ∀ a, (onward stop).Keeps (f a)) (n : Nat)
    (r : Round α) : (onward stop).Keeps (roundsAfter f n r) := by
  cases r with
  | again a => exact (onward stop).rounds (fun _ => trivial) h n a
  | done a => exact (onward stop).pure a

/-- By induction on the rounds of the first run. The second may have fewer of them and stop. -/
theorem idles_rounds {f : α → Parse (Round α)} (h : ∀ a, Rests stop True (f a) (f a)) (n n' : Nat)
    (a : α) : Idles stop True (rounds f n a) (rounds f n' a) := by
  induction n generalizing n' a with
  | zero =>
    constructor
    · intro _ _ _ _ _ ht
      cases ht
    · intro _ _ _ _ _ ht
      cases ht
  | succ n ih =>
    cases n' with
    | zero =>
      constructor
      · exact fun _ _ hs _ _ _ _ => .stopped hs.2.toUnharmed
      · exact fun _ _ hs _ _ _ _ => .stopped hs.2.toUnharmed
    | succ n' =>
      have hNext (r : Round α) : Idles stop True (roundsAfter f n r) (roundsAfter f n' r) := by
        cases r with
        | again a => exact ih n' a
        | done a => exact ⟨follows_pure_held trivial a, follows_pure_past fun _ => rfl⟩
      have hOnward := onward_roundsAfter (fun a => (h a).onward) n
      have hPast (r r' : Round α) (hr : True → r' = r) :
          Follows stop True (Behind stop Past) (roundsAfter f n r) (roundsAfter f n' r') :=
        hr trivial ▸ (hNext r).past
      exact ⟨(h a).held.bind (h a).onward hOnward (fun _ r => (hNext r).held) hPast,
        (h a).past.bind (h a).onward hOnward (fun _ r => (hNext r).held) hPast⟩

/-- By induction on the rounds of the first run. -/
theorem trails_rounds {f : α → Parse (Round α)} (h : ∀ a, Rests stop True (f a) (f a)) {n n' : Nat}
    (a : α) (hn : n ≤ n') : Trails stop True (rounds f n a) (rounds f n' a) := by
  induction n generalizing n' a with
  | zero =>
    have hLockstep : Lockstep stop (rounds f 0 a) (rounds f n' a) :=
      .rounds (fun a => (h a).toLockstep) a hn
    exact (closes_of_error hLockstep fun _ _ _ ht => by cases ht).toTrails
  | succ n ih =>
    obtain ⟨m, rfl⟩ : ∃ m, n' = m + 1 := ⟨n' - 1, by omega⟩
    refine (h a).toTrails.bind fun r => ?_
    cases r with
    | again a => exact ⟨ih a (Nat.le_of_succ_le_succ hn), idles_rounds h n m a⟩
    | done a => exact rests_pure a

/-- A loop whose rounds rest rests. -/
theorem Rests.loop {f : α → Parse (Round α)} (h : ∀ a, Rests stop True (f a) (f a)) (a : α) :
    Rests stop True (loop f a) (loop f a) where
  toLockstep := .loop (fun a => (h a).toLockstep) a
  trails s s' hs := (trails_rounds h a (Lockstep.budget_le hs)).trails s s' hs
  held s s' := (idles_rounds h s.budget s'.budget a).held s s'
  past s s' := (idles_rounds h s.budget s'.budget a).past s s'

/-- A loop whose rounds do not stay at the semicolon does not stay there. -/
theorem Closes.loop {f : α → Parse (Round α)} (h : ∀ a, Closes stop True (f a) (f a)) (a : α) :
    Closes stop True (loop f a) (loop f a) where
  toTrails := (Rests.loop (fun a => (h a).rests) a).toTrails
  stuck s hs b t ht := by
    have hRun : rounds f s.budget a s = .ok b t := ht
    cases hn : s.budget with
    | zero =>
      rw [hn] at hRun
      cases hRun
    | succ n =>
      rw [hn] at hRun
      refine (h a).stuck.bind (h a).onward (fun r => ?_) s hs b t hRun
      cases r with
      | again a => exact (onward stop).rounds (fun _ => trivial) (fun a => (h a).onward) n a
      | done a => exact (onward stop).pure a

/-- Closing a function reports nothing harmful, whatever became of its parts. -/
theorem Closes.insideFunction (kind : Grammar.FunctionKind) (name : Option String)
    (line column : Nat)
    (h : Closes stop True p q) : Closes stop True (Grammar.insideFunction kind name line column p)
      (Grammar.insideFunction kind name line column q) := by
  have hOpened := Lockstep.still_withFunction kind name line column
  have hClose :
      Rests stop True (Grammar.closeFunction line column) (Grammar.closeFunction line column) :=
    rests_remark (.closeFunction line column) (standing_closeFunction line column)
  -- the parts of a function that ends at the semicolon end there
  have hParts {s t : Session} {a : α}
    (ht : Grammar.insideFunction kind name line column p s = .ok a t)
      (hStopped : Stopped stop t) :
      ∃ m, p (Grammar.withFunction s kind name line column) = .ok a m ∧ Stopped stop m ∧
        (do Grammar.closeFunction line column; return a : Parse α) m = .ok a t := by
    cases hr : p (Grammar.withFunction s kind name line column) with
    | error e m =>
      rw [insideFunction_of_error hr] at ht
      cases ht
    | ok b m =>
      rw [insideFunction_of_ok hr] at ht
      obtain ⟨_, m', hm, hb⟩ := exists_of_bind ht
      cases hb
      have hStands := standing_closeFunction (c := True) line column m
      rw [hm] at hStands
      exact ⟨m, rfl, hStopped.of_stands hStands, ht⟩
  refine ⟨⟨.insideFunction kind name line column h.toLockstep, ?_⟩, ?_⟩
  -- behind the parts the function is closed, in the first run at the semicolon
  · intro s s' hs a t ht hStopped
    obtain ⟨m, hm, hBefore, hClosed⟩ := hParts ht hStopped
    have hRest : Rests stop True (do Grammar.closeFunction line column; return a : Parse α)
        (do Grammar.closeFunction line column; return a) :=
      hClose.bind fun _ => rests_pure a
    have hClosing := h.trails _ _ (hOpened.abreast hs) a m hm hBefore
    generalize hr : q (Grammar.withFunction s' kind name line column) = r at hClosing
    cases hClosing with
    | held _ hHeld =>
      rw [insideFunction_of_ok hr]
      exact hRest.held m _ ⟨hBefore, hHeld⟩ a t hClosed hStopped
    | past hValue hPast =>
      obtain rfl := hValue trivial
      rw [insideFunction_of_ok hr]
      exact hRest.past m _ ⟨hBefore, hPast⟩ _ t hClosed hStopped
    | stopped hEnd =>
      rw [insideFunction_of_error hr]
      exact .stopped (hEnd.stands (standing_closeFunction line column _).settles.left)
  -- a function that ends at the semicolon would have parts that do
  · intro s hs a t ht hStopped
    obtain ⟨m, hm, hBefore, -⟩ := hParts ht hStopped
    have hOpenedStopped : Stopped stop (Grammar.withFunction s kind name line column) :=
      ⟨hs.ended.placed (hOpened.stands (c := True) s).toPlaced, hs.token, hs.offset,
        hs.previous, hs.clean⟩
    exact h.stuck _ hOpenedStopped a m hm hBefore

end Division

end ScriptLint
