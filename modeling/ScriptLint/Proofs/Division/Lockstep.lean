import ScriptLint.Proofs.Division.Twin
import ScriptLint.Proofs.Grammar.Blind

/-!
# Two runs side by side

The parser runs on two sources that part at the end. As long as the next token is the same in both,
the two runs do the same.

- `Abreast`: sessions of the two runs before the sources part.
- `Over`: a session of the shorter source whose next token is its last one or lies beyond, unless a
  value comes before the semicolon there.
- `Stopped`: a session of the shorter source at that semicolon after a value.
- `lockstep`: the congruence of parsers that keep sessions abreast until the first run is over.
-/

namespace ScriptLint

/-! ## Consuming a token -/

namespace Parse

open Lexer

variable {s : Session} {l after : Lexer} {rs : List Result} {t : Token}

/-- Before the first line there are no lines to check. -/
theorem checkLinesBefore_one (s : Session) : checkLinesBefore 1 s = .ok () s := by
  have hNone : s.uncheckedLines.splitAt (1 - 1 - s.checkedLines) = ([], s.uncheckedLines) := by
    rw [Nat.sub_self, Nat.zero_sub, List.splitAt_eq]
    rfl
  rw [checkLinesBefore_apply, hNone]
  cases s.layers.limit? .maxlen with
  | some limit => rfl
  | none => rfl

/-- Two runs consume a token alike if the same results were passed and the next token stands on the
first line. -/
theorem arrive_agree {s s' : Session} (h : s.Beside s') (stream stream' : TokenStream)
    (rs : List Result) {t : Token} (hLine : t.line = 1) :
    Agree Session.Beside (arrive stream rs t s) (arrive stream' rs t s') := by
  have hNotes : Blind (rs.forM note) := .forM fun r _ => blind_note r
  refine (blind_checkConsumed s s' h).bind (fun _ m m' hm => ?_) fun _ _ => id
  obtain ⟨_, sourceLength, uncheckedLines, journal, rfl, hj⟩ := hm
  let read : Session := { m with consumed := m.token.offset + m.token.raw.length, stream }
  show Agree _ ((rs.forM note >>= _) read)
    ((rs.forM note >>= _) { read with stream := stream', sourceLength, uncheckedLines, journal })
  refine (hNotes read _ ⟨_, _, _, _, rfl, hj⟩).bind (fun _ n n' hn => ?_) fun _ _ => id
  obtain ⟨stream, sourceLength, uncheckedLines, journal, rfl, hj⟩ := hn
  show Agree _ (checkLinesBefore t.line { n with previous := n.token, token := t })
    (checkLinesBefore t.line _)
  rw [hLine, checkLinesBefore_one, checkLinesBefore_one]
  exact .ok ⟨stream, sourceLength, uncheckedLines, journal, rfl, hj⟩

end Parse

namespace Division

open Lexer Parse

/-! ## The end of the shorter source -/

/-- The next token of the shorter source is its last one or lies beyond it; no value comes right
before its last semicolon, and nothing behind it. -/
def Over (stop : Nat) (s : Session) : Prop :=
  ∃ l rs t after, s.stream.From l ∧ Leads l rs t after ∧ after.cursor.rest = [] ∧
    stop < after.cursor.position.offset ∧ divides (.ok t) = false ∧
    (s.token.offset = stop → l.cursor.rest = []) ∧
    (t.offset = stop → s.token.kind.endsValue = false)

/-- The shorter source ends here with a semicolon after a value, and all was well so far. -/
structure Stopped (stop : Nat) (s : Session) : Prop where
  ended : Over stop s
  token : s.token.kind = .punctuator .semicolon
  offset : s.token.offset = stop
  previous : s.previous.kind.endsValue = true
  clean : s.journal.Clean

variable {stop : Nat} {s t : Session}

/-- A session at the same place is as far past the stop. -/
theorem Over.placed (h : Over stop s) (ht : s.Placed t) : Over stop t := by
  unfold Over at h ⊢
  rw [ht.stream, ht.token]
  exact h

/-- A session that stopped was stopped before it stood still. -/
theorem Stopped.of_stands {c : Prop} (ht : Stopped stop t) (h : s.Stands c t) : Stopped stop s where
  ended := ht.ended.placed
    ⟨h.token.symm, h.previous.symm, h.stream.symm, h.sourceLength.symm, h.consumed.symm⟩
  token := h.token ▸ ht.token
  offset := h.token ▸ ht.offset
  previous := h.previous ▸ ht.previous
  clean d hd := ht.clean d (h.kept d hd)

/-- At the end of the source nothing but the end of input follows. -/
theorem over_of_rest {l : Lexer} (hFrom : s.stream.From l) (hRest : l.cursor.rest = [])
    (hOffset : stop < l.cursor.position.offset) : Over stop s := by
  obtain ⟨rs, t, after, hLeads⟩ := exists_leads l
  obtain ⟨hEnd, hStart, hCursor⟩ := hLeads.of_end hRest
  refine ⟨l, rs, t, after, hFrom,
    hLeads, by rw [hCursor, hRest], by rw [hCursor]; exact hOffset, ?_,
    fun _ => hRest, fun hStop => ?_⟩
  · rw [divides, Token.isPunctuator, Token.isPunctuator, hEnd]
    rfl
  · rw [Token.offset, hStart] at hStop
    omega

/-- Consuming a token leads to the end of the shorter source, and not to its semicolon after a
value. -/
theorem advance_over {l after : Lexer} {rs : List Result} {t : Token} (hFrom : s.stream.From l)
    (hLeads : Leads l rs t after) (hRest : after.cursor.rest = [])
    (hOffset : stop < after.cursor.position.offset)
    (hPlace : t.offset = stop → s.token.kind.endsValue = false) :
    Resolved (fun u => Over stop u ∧ ¬Stopped stop u) (fun _ => True) (advance s) := by
  refine (advance_arrives hFrom hLeads).imp (fun u hu => ⟨?_, fun hStopped => ?_⟩) fun _ => id
  · exact over_of_rest hu.front hRest hOffset
  · have hValue := hStopped.previous
    rw [hu.previous, hPlace (hu.token ▸ hStopped.offset)] at hValue
    cases hValue

/-- Once the shorter source is over, it stays so, and a run does not come to the semicolon after a
value unless it was there. -/
def onward (stop : Nat) : Contract where
  Goes s t := Over stop s → Over stop t ∧ (Stopped stop t → Stopped stop s)
  Stops _ _ := True
  refl _ h := ⟨h, id⟩
  trans h h' hs := ⟨(h' (h hs).1).1, fun hu => (h hs).2 ((h' (h hs).1).2 hu)⟩
  stop _ _ := trivial

/-- Standing still does not lead back. -/
theorem onward_of_stands {c : Prop} (h : s.Stands c t) : (onward stop).Goes s t :=
  fun hs => ⟨hs.placed h.toPlaced, fun ht => ht.of_stands h⟩

variable {α β : Type} {p q : Parse α}

theorem onward_of_standing {c : Prop} (h : (standing c).Keeps p) : (onward stop).Keeps p :=
  fun s => (h s).imp (fun _ => onward_of_stands) fun _ _ => trivial

/-- Only sessions of a source that is over matter. -/
theorem onward_intro (h : ∀ s, Over stop s →
    Settles (fun t => Over stop t ∧ (Stopped stop t → Stopped stop s)) (fun _ => True) (p s)) :
    (onward stop).Keeps p := by
  intro s
  by_cases hs : Over stop s
  · exact (h s hs).imp (fun _ ht _ => ht) fun _ _ => trivial
  · cases p s with
    | ok a t => exact fun h => absurd h hs
    | error e t =>
      cases e with
      | badSyntax => exact fun h => absurd h hs
      | halt => exact trivial

/-- Consuming a token does not lead back. -/
theorem onward_advance : (onward stop).Keeps advance := by
  refine onward_intro fun s ⟨l, rs, t, after, hFrom, hLeads, hRest, hOffset, _, _, hPlace⟩ => ?_
  refine (advance_over hFrom hLeads hRest hOffset hPlace).settles.imp (fun u hu => ?_) fun _ => id
  exact ⟨hu.1, fun h => absurd h hu.2⟩

/-- Looking ahead changes the stream only. -/
theorem onward_look {f : Session → α} {g : TokenStream → TokenStream}
    (hFrom : ∀ (stream : TokenStream) l, stream.From l → (g stream).From l)
    (hp : ∀ s, p s = .ok (f s) { s with stream := g s.stream }) : (onward stop).Keeps p := by
  refine onward_intro fun s hs => ?_
  have hOver : Over stop { s with stream := g s.stream } := by
    obtain ⟨l, rs, t, after, hFront, hRest⟩ := hs
    exact ⟨l, rs, t, after, hFrom _ l hFront, hRest⟩
  rw [hp s]
  exact ⟨hOver, fun ht => ⟨hs, ht.token, ht.offset, ht.previous, ht.clean⟩⟩

theorem onward_peek (n : Nat) : (onward stop).Keeps (peek n) :=
  onward_look (f := fun s => (s.stream.peek n).1) (fun _ _ => TokenStream.from_peek n) fun _ => rfl

/-- A slash may be read again, but no other token. -/
theorem from_allowRegex {stream : TokenStream} {l after : Lexer} {rs : List Result} {t : Token}
    (hFrom : stream.From l) (hLeads : Leads l rs t after) (hDivides : divides (.ok t) = false) :
    ∃ l', stream.allowRegex.From l' ∧ Leads l' rs t after := by
  obtain ⟨n, r, hPasses⟩ := exists_passesTo l
  obtain ⟨hAgain, hSame⟩ := TokenStream.allowRegex_spec hFrom hPasses
  by_cases hRead : stream.ahead.length ≤ n ∨ divides r
  · exact ⟨l.allowRegex, (hAgain hRead).1, hLeads.allowRegex hDivides⟩
  · rw [not_or, Nat.not_le, Bool.not_eq_true] at hRead
    rw [hSame hRead.1 hRead.2]
    exact ⟨l, hFrom, hLeads⟩

/-- Neither does going on to a statement, where a slash is lexed again. -/
theorem onward_advanceToStatement : (onward stop).Keeps advanceToStatement := by
  refine onward_intro fun s ⟨l, rs, t, after, hFrom, hLeads, hRest, hOffset, hDivides, _, hPlace⟩ =>
    ?_
  obtain ⟨l', hFront, hLeads'⟩ := from_allowRegex hFrom hLeads hDivides
  let allowed : Session := { s with stream := s.stream.allowRegex }
  have hOver := advance_over (s := allowed) hFront hLeads' hRest hOffset hPlace
  exact hOver.settles.imp (fun u hu => ⟨hu.1, fun h => absurd h hu.2⟩) fun _ => id

/-! ## Looking ahead -/

theorem onward_startsArrow : (onward stop).Keeps startsArrow :=
  onward_look (f := fun s => s.stream.closesBeforeArrow.1)
    (fun _ _ => TokenStream.from_closesBeforeArrow) fun _ => rfl

/-- By induction on the visit: where the sources have parted, only plain tokens are visited. -/
theorem visits_trailing {σ : Type} {visit : σ → Token → σ ⊕ β} {P : β → Prop}
    (hVisit : ∀ state t b, (∀ p, t.kind = .punctuator p → p = .semicolon ∨ p = .divide) →
      visit state t = .inr b → P b)
    {l : Lexer} {state : σ} {b : β} {n : Nat} (h : Visits visit l state b n)
      (hPlain : Plain l.next.1)
    (hTrailing : Trailing l.next.2) : P b := by
  induction h with
  | @answer l state b hShown =>
    cases ht : significant? l.next.1 with
    | none =>
      rw [shown, ht] at hShown
      cases hShown
    | some t =>
      rw [shown, ht] at hShown
      exact hVisit state t b (fun p hp => hPlain t p ht hp) hShown
  | goOn _ _ ih => exact ih hTrailing.next.1 hTrailing.next.2

theorem isPunctuator_arrow_of_plain {t : Token}
    (h : ∀ p, t.kind = .punctuator p → p = .semicolon ∨ p = .divide) :
    t.isPunctuator .arrow = false := by
  unfold Token.isPunctuator
  split
  · next p hp =>
    rcases h p hp with rfl | rfl
    · rfl
    · rfl
  · rfl

/-- Plain tokens are no arrow. -/
theorem closing_of_plain {depth : Nat} {t : Token} {b : Bool}
    (h : ∀ p, t.kind = .punctuator p → p = .semicolon ∨ p = .divide)
    (hVisit : TokenStream.closing depth t = .inr b) : b = false := by
  unfold TokenStream.closing at hVisit
  split at hVisit
  · rw [← Sum.inr.inj hVisit]
    exact isPunctuator_arrow_of_plain h
  · split at hVisit
    · exact (Sum.inr.inj hVisit).symm
    · cases hVisit

/-- Behind the place where the sources part, the longer one has only the division left. -/
theorem trailing_of_part {l l' : Lexer} (h : Part stop l l') : Trailing l.next.2 := by
  rw [Trailing, h.rest]
  exact List.nil_suffix

/-! ## Sessions abreast -/

/-- The sessions differ only in what is ahead, where so many results are alike. Results read ahead
are as many, or reach beyond those. -/
structure Paired (stop count : Nat) (l l' : Lexer) (s s' : Session) : Prop where
  beside : s.Beside s'
  longer : s.sourceLength ≤ s'.sourceLength
  calm : s.scopes.Calm
  front : s.stream.From l
  front' : s'.stream.From l'
  twins : Twins stop count l l'
  queues : s'.stream.ahead.length = s.stream.ahead.length ∨
    count < s.stream.ahead.length ∧ count < s'.stream.ahead.length

/-- Sessions of the two runs before the sources part. -/
def Abreast (stop : Nat) (s s' : Session) : Prop :=
  s.token.offset < stop ∧ ∃ count l l', Paired stop count l l' s s' ∧
    l.regexAllowed = !s.token.kind.endsValue

variable {s' t' : Session} {count : Nat} {l l' : Lexer}

/-- What stays in place on both sides keeps the sessions abreast. -/
theorem Abreast.stay {c c' : Prop} (h : Abreast stop s s') (ht : s.Stands c t)
    (ht' : s'.Stands c' t') (hBeside : t.Beside t') : Abreast stop t t' := by
  obtain ⟨hOffset, count, l, l', hPaired, hFlag⟩ := h
  refine ⟨by rw [ht.token]; exact hOffset, count, l, l', ⟨hBeside, ?_, ht.calm hPaired.calm, ?_, ?_,
    hPaired.twins, ?_⟩, by rw [ht.token]; exact hFlag⟩
  · rw [ht.sourceLength, ht'.sourceLength]
    exact hPaired.longer
  · rw [ht.stream]
    exact hPaired.front
  · rw [ht'.stream]
    exact hPaired.front'
  · rw [ht.stream, ht'.stream]
    exact hPaired.queues

/-- Looking ahead keeps the sessions abreast: as many results are read ahead, or both go beyond the
place where the sources part. -/
theorem Paired.look {stream stream' : TokenStream} {n n' : Nat} (h : Paired stop count l l' s s')
    (hFront : stream.From l) (hFront' : stream'.From l')
    (hQueue : stream.ahead.length = max s.stream.ahead.length n)
    (hQueue' : stream'.ahead.length = max s'.stream.ahead.length n')
    (hCounts : n = n' ∨ count < n ∧ count < n') :
    Paired stop count l l' { s with stream } { s' with stream := stream' } := by
  obtain ⟨⟨_, _, _, _, rfl, hj⟩, hLonger, hCalm, -, -, hTwins, hQueues⟩ := h
  refine ⟨⟨_, _, _, _, rfl, hj⟩, hLonger, hCalm, hFront, hFront', hTwins, ?_⟩
  dsimp only at hQueues hQueue' ⊢
  omega

/-! ## Results of two runs -/

/-- How the results of two runs meet: the first run is over, or both end alike and abreast. Nothing
is asked of a run that stops. -/
inductive Meets (stop : Nat) :
    EStateM.Result Abort Session α → EStateM.Result Abort Session α → Prop
  | ended {r r' : EStateM.Result Abort Session α} :
    Settles (Over stop) (fun _ => True) r → Meets stop r r'
  | ok {a : α} {t t' : Session} : Abreast stop t t' → Meets stop (.ok a t) (.ok a t')
  | badSyntax {t t' : Session} : Abreast stop t t' →
    Meets stop (.error .badSyntax t) (.error .badSyntax t')

/-- From sessions abreast, the parsers end alike or the first run is over. -/
structure Lockstep (stop : Nat) (p q : Parse α) : Prop where
  onward : (onward stop).Keeps p
  meets : ∀ s s', Abreast stop s s' → Meets stop (p s) (q s')

/-- From a session that is over, the run stays over. -/
theorem Over.settles (hs : Over stop s) (h : (onward stop).Keeps p) :
    Settles (Over stop) (fun _ => True) (p s) :=
  (h s).imp (fun _ ht => (ht hs).1) fun _ => id

/-- Results that meet are gone on from alike. -/
theorem Meets.bind {f g : α → Parse β} (h : Meets stop (p s) (q s'))
    (hf : ∀ a, Lockstep stop (f a) (g a)) : Meets stop ((p >>= f) s) ((q >>= g) s') := by
  generalize hr : p s = r, hr' : q s' = r' at h
  cases h with
  | ended hOver =>
    rw [← hr] at hOver
    refine .ended (hOver.bind (fun a t ht => ht.settles (hf a).onward) (fun _ => id) fun _ => id)
  | ok hAbreast =>
    rw [bind_of_ok hr, bind_of_ok hr']
    exact (hf _).meets _ _ hAbreast
  | badSyntax hAbreast =>
    rw [bind_of_error hr, bind_of_error hr']
    exact .badSyntax hAbreast

/-- What is done in any outcome keeps two results together. -/
theorem Meets.ensuring {change : Session → Session} (h : Meets stop (p s) (q s'))
    (hOver : ∀ t, Over stop t → Over stop (change t))
    (hAbreast : ∀ t t', Abreast stop t t' → Abreast stop (change t) (change t')) :
    Meets stop (p.ensuring change s) (q.ensuring change s') := by
  generalize hr : p s = r, hr' : q s' = r' at h
  cases h with
  | ended hSettles =>
    rw [← hr] at hSettles
    exact .ended (hSettles.ensuring hOver fun _ => id)
  | ok h =>
    rw [ensuring_of_ok hr, ensuring_of_ok hr']
    exact .ok (hAbreast _ _ h)
  | badSyntax h =>
    rw [ensuring_of_error hr, ensuring_of_error hr']
    exact .badSyntax (hAbreast _ _ h)

/-- Changes that neither move nor look ahead. -/
structure Still (change : Session → Session) : Prop where
  stands : ∀ {c : Prop} (s : Session), s.Stands c (change s)
  beside : ∀ s s' : Session, s.Beside s' → (change s).Beside (change s')

/-- A change that moves nothing stays past the stop. -/
theorem Still.ended {change : Session → Session} (h : Still change) (hs : Over stop s) :
    Over stop (change s) :=
  hs.placed (h.stands (c := True) s).toPlaced

/-- A change that moves nothing keeps two sessions abreast. -/
theorem Still.abreast {change : Session → Session} (h : Still change) (hs : Abreast stop s s') :
    Abreast stop (change s) (change s') := by
  obtain ⟨-, _, _, _, hPaired, -⟩ := id hs
  exact hs.stay (h.stands (c := True) s) (h.stands (c := True) s') (h.beside s s' hPaired.beside)

/-- A change is still when it moves nothing, reports nothing and commutes with the difference. -/
theorem still {change : Session → Session}
    (hCalm : ∀ s, s.scopes.Calm → (change s).scopes.Calm)
    (hPlaced : ∀ s : Session, s.Placed (change s)) (hJournal : ∀ s, (change s).journal = s.journal)
    (hFacing : ∀ (s : Session) stream sourceLength uncheckedLines journal,
      change { s with stream, sourceLength, uncheckedLines, journal } =
        { change s with stream, sourceLength, uncheckedLines, journal }) :
    Still change where
  stands s := .quiet (hCalm s) (hPlaced s) (hJournal s)
  beside s s' := by
    rintro ⟨_, _, _, journal, rfl, hj⟩
    exact ⟨_, _, _, journal, hFacing _ _ _ _ _, (hJournal s).symm ▸ hj⟩

/-- A change that touches neither the place, the scopes nor what lies ahead. -/
theorem still_apart {change : Session → Session}
    (h : ∀ (s : Session) stream sourceLength uncheckedLines journal,
      (change { s with stream, sourceLength, uncheckedLines, journal },
          (change s).token, (change s).previous, (change s).stream, (change s).sourceLength,
          (change s).consumed, (change s).scopes.findings, (change s).journal) =
        ({ change s with stream, sourceLength, uncheckedLines, journal },
          s.token, s.previous, s.stream, s.sourceLength, s.consumed, s.scopes.findings,
          s.journal)) :
    Still change := by
  simp only [Prod.mk.injEq] at h
  have hKept (s : Session) := (h s s.stream s.sourceLength s.uncheckedLines s.journal).2
  refine still (fun s hs f hf => ?_) (fun s => ?_) (fun s => (hKept s).2.2.2.2.2.2)
    fun s _ _ _ _ => (h s _ _ _ _).1
  · exact hs f ((hKept s).2.2.2.2.2.1 ▸ hf)
  · exact ⟨(hKept s).1, (hKept s).2.1, (hKept s).2.2.1, (hKept s).2.2.2.1, (hKept s).2.2.2.2.1⟩

namespace Lockstep

theorem pure (a : α) : Lockstep stop (pure a) (pure a) :=
  ⟨(Division.onward stop).pure a, fun _ _ h => .ok h⟩

/-- Two runs in lockstep go on in lockstep. -/
theorem bind {f g : α → Parse β} (h : Lockstep stop p q) (hf : ∀ a, Lockstep stop (f a) (g a)) :
    Lockstep stop (p >>= f) (q >>= g) :=
  ⟨(Division.onward stop).bind h.onward fun a => (hf a).onward,
    fun s s' hs => (h.meets s s' hs).bind hf⟩

/-- Both runs see the same but for what is ahead of them. -/
theorem read {f g : Session → Parse α} (h : ∀ s s', s.SameView s' → Lockstep stop (f s) (g s')) :
    Lockstep stop (get >>= f) (get >>= g) := by
  refine ⟨(Division.onward stop).read fun s => (h s s (.refl s)).onward, fun s s' hs => ?_⟩
  obtain ⟨-, _, _, _, hPaired, -⟩ := id hs
  exact (h s s' hPaired.beside.sameView).meets s s' hs

/-- Steps that stay in place and do not look ahead. -/
theorem of_blind (hBlind : Blind p) (h : (standing False).Keeps p) : Lockstep stop p p := by
  refine ⟨onward_of_standing h, fun s s' hs => ?_⟩
  obtain ⟨-, _, _, _, hPaired, -⟩ := id hs
  have hAgree := hBlind s s' hPaired.beside
  have hHere := h s
  have hThere := h s'
  generalize p s = r, p s' = r' at hAgree hHere hThere
  cases hAgree with
  | ok hBeside => exact .ok (hs.stay hHere hThere hBeside)
  | @error e _ _ hBeside =>
    cases e with
    | badSyntax => exact .badSyntax (hs.stay hHere hThere hBeside)
    | halt => exact .ended trivial

theorem modify {change : Session → Session} (h : Still change) :
    Lockstep stop (modify change) (modify change) :=
  ⟨(Division.onward stop).modify fun s => onward_of_stands (h.stands (c := True) s),
    fun _ _ hs => .ok (h.abreast hs)⟩

/-- What is done in any outcome is done in both runs. -/
theorem ensuring {change : Session → Session} (h : Lockstep stop p q) (hChange : Still change) :
    Lockstep stop (p.ensuring change) (q.ensuring change) := by
  constructor
  · intro s
    refine (h.onward s).ensuring (fun t ht hs => ⟨hChange.ended (ht hs).1, fun hStopped => ?_⟩)
      fun _ => id
    exact (ht hs).2 (hStopped.of_stands (hChange.stands (c := True) t))
  · exact fun s s' hs => (h.meets s s' hs).ensuring (fun _ => hChange.ended) fun _ _ =>
      hChange.abreast

end Lockstep

/-! ## Tokens -/

/-- The current token is the same in both runs. -/
theorem Paired.token (h : Paired stop count l l' s s') : s'.token = s.token := by
  obtain ⟨_, _, _, _, hs, -⟩ := h.beside
  rw [hs]

/-- Consuming a token leads to the same token on both sides, or the first run is over. -/
theorem Paired.advance (h : Paired stop count l l' s s') :
    Meets stop (advance s) (advance s') := by
  obtain ⟨rs, t, after, hLeads⟩ := exists_leads l
  rcases h.twins.leads hLeads with hNext | hLast
  -- a token both sources have: the same notices, the same place
  · obtain ⟨after', hLeads', hTwins⟩ := hNext.leads
    have hAgree : Agree Session.Beside (Parse.advance s) (Parse.advance s') := by
      rw [advance_eq h.front hLeads, advance_eq h.front' hLeads']
      exact arrive_agree h.beside _ _ rs hNext.line
    have hHere := advance_arrives h.front hLeads
    have hThere := advance_arrives h.front' hLeads'
    have hSteady := steady_passable.advance s
    generalize Parse.advance s = r, Parse.advance s' = r' at hAgree hHere hThere hSteady
    cases hAgree with
    | @ok _ u u' hBeside =>
      have hLonger : u.sourceLength ≤ u'.sourceLength := by
        rw [hHere.sourceLength, hThere.sourceLength]
        exact h.longer
      have hFits := hNext.fits
      have hQueues := h.queues
      have hQueue := hHere.queue
      have hQueue' := hThere.queue
      refine .ok ⟨hHere.token ▸ hNext.offset, count - rs.length, after, after',
        ⟨hBeside, hLonger, h.calm.evolves hSteady.scopes, hHere.front, hThere.front, hTwins, ?_⟩,
        ?_⟩
      · omega
      · rw [hHere.token]
        exact hNext.regexAllowed
    | @error e _ _ hBeside =>
      cases e with
      | badSyntax => exact hHere.elim
      | halt => exact .ended trivial
  · -- whatever the second run reads here, the first one has read its last token
    refine .ended ((advance_arrives h.front hLeads).settles.imp (fun u hu => ?_) fun _ => id)
    exact over_of_rest hu.front hLast.rest hLast.offset

/-- Where the last token of the shorter source comes next, its run is over, unless that token is the
semicolon after a value. Then the longer source goes on with a division. -/
theorem Abreast.last {rs : List Result} {t : Token} {after : Lexer}
    (hBefore : s.token.offset < stop)
    (hFront : s.stream.From l) (hFlag : l.regexAllowed = !s.token.kind.endsValue)
    (hLeads : Leads l rs t after) (hLast : Last stop l l' rs t after) : Over stop s ∨
    (t.kind = .punctuator .semicolon ∧ t.newlineBefore = false ∧ t.offset = stop ∧
      ∃ passed u after', rs = passed ++ [.ok t] ∧ Leads l' (passed ++ [.ok u]) u after' ∧
        u.kind = .punctuator .divide ∧ u.newlineBefore = false ∧ u.line = 1 ∧
        after'.cursor.rest = [' ', 'y', ';']) := by
  have hOver (hPlace : t.offset = stop → s.token.kind.endsValue = false) : Over stop s :=
    ⟨l, rs, t, after, hFront, hLeads, hLast.rest, hLast.offset, hLast.divides,
      fun h => absurd h (Nat.ne_of_lt hBefore), hPlace⟩
  by_cases hPlace : t.offset = stop
  · obtain ⟨hKind, hNewline, hDivide⟩ := hLast.place hPlace
    cases hValue : s.token.kind.endsValue with
    | false => exact .inl (hOver fun _ => hValue)
    | true =>
      obtain ⟨passed, u, after', hResults, hLeads', hSlash, hSame, hLine, hRest, -⟩ :=
        hDivide (by rw [hFlag, hValue]; rfl)
      exact .inr ⟨hKind, hNewline, hPlace, passed, u, after', hResults, hLeads', hSlash, hSame,
        hLine, hRest⟩
  · exact .inl (hOver fun h => absurd h hPlace)

namespace Lockstep

theorem advance : Lockstep stop advance advance :=
  ⟨onward_advance, fun _ _ ⟨_, _, _, _, hPaired, _⟩ => hPaired.advance⟩

/-- Both runs see alike a token the test passes over at the stop. -/
theorem peekIs {test : Token → Bool} (hTest : Grammar.PassesOver test) :
    Lockstep stop (peekIs test) (peekIs test) := by
  refine ⟨(Division.onward stop).bind (onward_peek 0) fun _ => (Division.onward stop).pure _,
    fun s s' ⟨hOffset, count, l, l', hPaired, hFlag⟩ => ?_⟩
  have hRun (s : Session) : Parse.peekIs test s =
    .ok ((s.stream.peek 0).1.any test) { s with stream := (s.stream.peek 0).2 } := rfl
  obtain ⟨rs, t, after, hLeads⟩ := exists_leads l
  have hVisit {l : Lexer} {rs : List Result} {t : Token} {after : Lexer} (h : Leads l rs t after) :
      Visits TokenStream.passing l 0 t rs.length := h.visits rfl
  -- a look ahead ends with a token both sources have, or with the semicolon and the slash
  obtain ⟨hSome, hFront, hQueue⟩ := TokenStream.peek_spec hPaired.front (hVisit hLeads)
  rw [hRun, hRun]
  rcases hPaired.twins.leads hLeads with hNext | hLast
  · obtain ⟨after', hLeads', -⟩ := hNext.leads
    obtain ⟨hSome', hFront', hQueue'⟩ := TokenStream.peek_spec hPaired.front' (hVisit hLeads')
    rw [hSome, hSome']
    exact .ok ⟨hOffset, count, l, l', hPaired.look hFront hFront' hQueue hQueue' (.inl rfl), hFlag⟩
  · rcases Abreast.last hOffset hPaired.front hFlag hLeads hLast with
      ⟨m, hOver⟩ | ⟨hKind, hNewline, -, passed, u, after', hResults, hLeads', hSlash, hSame, -⟩
    · obtain ⟨rs, t, after, hFrom, hOver⟩ := hOver
      exact .ended ⟨m, rs, t, after, TokenStream.from_peek 0 hFrom, hOver⟩
    · obtain ⟨hSome', hFront', hQueue'⟩ := TokenStream.peek_spec hPaired.front' (hVisit hLeads')
      -- the semicolon in one run, the slash in the other: the test passes over both
      have hHere : test t = false := hTest t hNewline (.inl hKind)
      have hThere : test u = false := hTest u hSame (.inr hSlash)
      have hCounts : rs.length = (passed ++ [Except.ok u]).length := by
        rw [hResults, List.length_append, List.length_append]
        rfl
      rw [hSome, hSome', Option.any_some, Option.any_some, hHere, hThere]
      exact .ok
        ⟨hOffset, count, l, l', hPaired.look hFront hFront' hQueue hQueue' (.inl hCounts), hFlag⟩

/-- A look ahead whose answer is the same wherever the sources have parted. -/
theorem look {σ : Type} (visit : σ → Token → σ ⊕ β) (start : σ) (f : Option β → α) (answer : α)
    (hEnd : AnswersAtEnd visit)
    (hAnswer : ∀ state t b, (∀ p, t.kind = .punctuator p → p = .semicolon ∨ p = .divide) →
      visit state t = .inr b → f (some b) = answer)
    (hp : ∀ s : Session, p s = .ok (f (s.stream.survey visit start).1)
      { s with stream := (s.stream.survey visit start).2 }) : Lockstep stop p p := by
  have hFrom (stream : TokenStream) (l : Lexer) (h : stream.From l) :
      (stream.survey visit start).2.From l := by
    obtain ⟨b, n, hVisit⟩ := exists_visits hEnd l start
    exact (TokenStream.survey_spec hEnd h hVisit).2.1
  refine ⟨onward_look hFrom hp, fun s s' ⟨hOffset, count, l, l', hPaired, hFlag⟩ => ?_⟩
  obtain ⟨b, n, hVisit⟩ := exists_visits hEnd l start
  obtain ⟨b', n', hVisit'⟩ := exists_visits hEnd l' start
  obtain ⟨hSome, hFront, hQueue⟩ := TokenStream.survey_spec hEnd hPaired.front hVisit
  obtain ⟨hSome', hFront', hQueue'⟩ := TokenStream.survey_spec hEnd hPaired.front' hVisit'
  have hSame : (n = n' ∨ count < n ∧ count < n') ∧ f (some b') = f (some b) := by
    rcases hPaired.twins.visits hVisit hVisit' with
      ⟨hCounts, -, rfl⟩ | ⟨hLess, hLess', m, m', state, k, k', hPart, hBeyond, hBeyond'⟩
    · exact ⟨.inl hCounts, rfl⟩
    · refine ⟨.inr ⟨hLess, hLess'⟩, ?_⟩
      rw [visits_trailing hAnswer hBeyond hPart.plain (trailing_of_part hPart),
        visits_trailing hAnswer hBeyond' hPart.plain' hPart.trailing]
  rw [hp, hp, hSome, hSome', hSame.2]
  exact .ok ⟨hOffset, count, l, l', hPaired.look hFront hFront' hQueue hQueue' hSame.1, hFlag⟩

/-- Both runs see alike whether an arrow comes next but one. -/
theorem peekArrowAfterNext : Lockstep stop peekArrowAfterNext peekArrowAfterNext := by
  refine look TokenStream.passing 1 (·.any (·.isPunctuator .arrow)) false
    TokenStream.answersAtEnd_passing ?_ fun _ => rfl
  intro state t b hPlain hVisit
  unfold TokenStream.passing at hVisit
  split at hVisit
  · rw [← Sum.inr.inj hVisit, Option.any_some]
    exact isPunctuator_arrow_of_plain hPlain
  · cases hVisit

/-- Both runs see alike whether an arrow function begins. -/
theorem startsArrow : Lockstep stop startsArrow startsArrow := by
  refine look TokenStream.closing 1 (·.getD false) false TokenStream.answersAtEnd_closing ?_
    fun _ => rfl
  exact fun depth t b hPlain hVisit => closing_of_plain hPlain hVisit

/-- If the sources part before the next token that is no comment, the first run is over. If not, the
slash there is read again on both sides or on neither. -/
theorem advanceToStatement : Lockstep stop advanceToStatement advanceToStatement := by
  refine ⟨onward_advanceToStatement, fun s s' ⟨_, count, l, l', hPaired, _⟩ => ?_⟩
  let allowed (s : Session) : Session := { s with stream := s.stream.allowRegex }
  show Meets stop (Parse.advance (allowed s)) (Parse.advance (allowed s'))
  obtain ⟨n, r, hPasses⟩ := exists_passesTo l
  rcases hPaired.twins.passesTo hPasses with ⟨hLess, hPasses'⟩ | hBeyond
  · obtain ⟨hAgain, hSame⟩ := TokenStream.allowRegex_spec hPaired.front hPasses
    obtain ⟨hAgain', hSame'⟩ := TokenStream.allowRegex_spec hPaired.front' hPasses'
    obtain ⟨hBeside, hLonger, hCalm, hFront, hFront', hTwins, hQueues⟩ := hPaired
    have hAllowed (stream stream' : TokenStream) :
        Session.Beside { s with stream } { s' with stream := stream' } := by
      obtain ⟨_, _, _, journal, rfl, hj⟩ := hBeside
      exact ⟨_, _, _, journal, rfl, hj⟩
    -- the buffer is dropped in both runs or in neither
    by_cases hRead : s.stream.ahead.length ≤ n ∨ divides r
    · have hRead' : s'.stream.ahead.length ≤ n ∨ divides r := by
        rcases hRead with hRead | hRead
        · exact .inl (by omega)
        · exact .inr hRead
      obtain ⟨hFront, hQueue⟩ := hAgain hRead
      obtain ⟨hFront', hQueue'⟩ := hAgain' hRead'
      obtain ⟨text, hTwin⟩ := hTwins.twin
      obtain ⟨count', hTwins'⟩ := hTwin.allowRegex.exists_twins
      have hAhead : s'.stream.allowRegex.ahead.length = s.stream.allowRegex.ahead.length := by omega
      exact Paired.advance ⟨hAllowed _ _, hLonger, hCalm, hFront, hFront', hTwins', .inl hAhead⟩
    · rw [not_or, Nat.not_le, Bool.not_eq_true] at hRead
      have hRead' : n < s'.stream.ahead.length := by omega
      have hStream : (allowed s).stream = s.stream := hSame hRead.1 hRead.2
      have hStream' : (allowed s').stream = s'.stream := hSame' hRead' hRead.2
      have hSides : Paired stop count l l' (allowed s) (allowed s') :=
        ⟨hAllowed _ _, hLonger,
          hCalm, by rw [hStream]; exact hFront, by rw [hStream']; exact hFront',
          hTwins, by rw [hStream, hStream']; exact hQueues⟩
      exact hSides.advance
  · obtain ⟨rs, t, after, hLeads⟩ := exists_leads l
    rcases hPaired.twins.leads hLeads with hNext | hLast
    · -- the next token would come before the place where the sources part
      have hFits := hNext.fits
      have hPassed := hPasses.lt_length hLeads
      omega
    · obtain ⟨m, hFront, hLeads'⟩ := from_allowRegex hPaired.front hLeads hLast.divides
      have hArrives := advance_arrives (s := allowed s) hFront hLeads'
      refine .ended (hArrives.settles.imp (fun u hu => ?_) fun _ => id)
      exact over_of_rest hu.front hLast.rest hLast.offset

/-! ## Combinations -/

/-- A longer source leaves at least as many rounds. -/
theorem budget_le (h : Abreast stop s s') : s.budget ≤ s'.budget := by
  obtain ⟨-, _, _, _, hPaired, -⟩ := h
  have hLonger := hPaired.longer
  unfold Session.budget
  rw [hPaired.token]
  omega

/-- By induction on the rounds of the first run. -/
theorem rounds {f g : α → Parse (Round α)} (h : ∀ a, Lockstep stop (f a) (g a)) {n n' : Nat} (a : α)
    (hn : n ≤ n') : Lockstep stop (rounds f n a) (rounds g n' a) := by
  induction n generalizing n' a with
  | zero => exact ⟨fun _ => trivial, fun _ _ _ => .ended trivial⟩
  | succ n ih =>
    obtain ⟨m, rfl⟩ : ∃ m, n' = m + 1 := ⟨n' - 1, by omega⟩
    refine bind (h a) fun r => ?_
    cases r with
    | again a => exact ih a (Nat.le_of_succ_le_succ hn)
    | done a => exact pure a

/-- A loop in lockstep, bounded by the length of the source in each run. -/
theorem loop {f g : α → Parse (Round α)} (h : ∀ a, Lockstep stop (f a) (g a)) (a : α) :
    Lockstep stop (loop f a) (loop g a) :=
  ⟨(Division.onward stop).loop (fun _ => trivial) (fun a => (h a).onward) a,
    fun s s' hs => (rounds h a (budget_le hs)).meets s s' hs⟩

theorem unfolded {f g : Parse α → Parse α} (h : ∀ p q, Lockstep stop p q →
    Lockstep stop (f p) (g q))
    {n n' : Nat} (hn : n ≤ n') : Lockstep stop (unfolded f n) (unfolded g n') := by
  induction n generalizing n' with
  | zero => exact ⟨fun _ => trivial, fun _ _ _ => .ended trivial⟩
  | succ n ih =>
    obtain ⟨m, rfl⟩ : ∃ m, n' = m + 1 := ⟨n' - 1, by omega⟩
    exact h _ _ (ih (Nat.le_of_succ_le_succ hn))

theorem recursive {f g : Parse α → Parse α} (h : ∀ p q, Lockstep stop p q →
    Lockstep stop (f p) (g q)) : Lockstep stop (recursive f) (recursive g) := by
  constructor
  · exact fun s => (unfolded h (Nat.le_refl s.budget)).onward s
  · exact fun s s' hs => (unfolded h (budget_le hs)).meets s s' hs

/-- An error is recovered from in both runs, or the first one is past the stop. -/
theorem recover {p' q' : Parse α} (h : Lockstep stop p q) (h' : Lockstep stop p' q') :
    Lockstep stop (p.recover p') (q.recover q') := by
  refine ⟨(Division.onward stop).recover h.onward h'.onward, fun s s' hs => ?_⟩
  have hMeets := h.meets s s' hs
  generalize hr : p s = r, hr' : q s' = r' at hMeets
  cases hMeets with
  | ok hAbreast =>
    rw [recover_of_ok hr, recover_of_ok hr']
    exact .ok hAbreast
  | badSyntax hAbreast =>
    rw [recover_of_badSyntax hr, recover_of_badSyntax hr']
    exact h'.meets _ _ hAbreast
  -- the first run is past the stop, whatever the second one recovers from
  | ended hOver =>
    refine .ended ?_
    cases r with
    | ok a t =>
      rw [recover_of_ok hr]
      exact hOver
    | error e t =>
      cases e with
      | badSyntax =>
        rw [recover_of_badSyntax hr]
        exact Over.settles hOver h'.onward
      | halt =>
        rw [recover_of_halt hr]
        exact trivial

theorem withNoIn (noIn : Bool) (h : Lockstep stop p q) :
    Lockstep stop (withNoIn noIn p) (withNoIn noIn q) := by
  refine read fun s s' ⟨_, _, _, _, hs⟩ => ?_
  subst hs
  refine bind (modify (still_apart fun _ _ _ _ _ => rfl)) fun _ => ?_
  exact ensuring h (still_apart fun _ _ _ _ _ => rfl)

theorem still_exit : Still fun s => { s with scopes := s.scopes.exit s.layers } :=
  still (fun s hs f hf => (s.scopes.findings_exit s.layers f hf).elim (hs f) id)
    (fun _ => ⟨rfl, rfl, rfl, rfl, rfl⟩) (fun _ => rfl) fun _ _ _ _ _ => rfl

/-- A frame is entered and left in both runs. -/
theorem withFrame (kind : Scope.FrameKind) (h : Lockstep stop p q) :
    Lockstep stop (Grammar.withFrame kind p) (Grammar.withFrame kind q) :=
  bind (modify (still_apart fun _ _ _ _ _ => rfl)) fun _ => ensuring h still_exit

theorem insideBlock (opener : Token) (h : Lockstep stop p q) :
    Lockstep stop (Grammar.insideBlock opener p) (Grammar.insideBlock opener q) :=
  bind (of_blind (blind_enterBlock opener) (standing_enterBlock opener).keeps) fun _ =>
    ensuring (withFrame .block h) (still_apart fun _ _ _ _ _ => rfl)

/-- A function is closed in both runs. -/
theorem closeFunction (line column : Nat) :
    Lockstep stop (Grammar.closeFunction line column) (Grammar.closeFunction line column) :=
  of_blind (blind_closeFunction line column) (standing_closeFunction line column).keeps

theorem still_withFunction (kind : Grammar.FunctionKind) (name : Option String)
    (line column : Nat) : Still fun s => Grammar.withFunction s kind name line column :=
  still_apart fun _ _ _ _ _ => rfl

/-- A function is closed alike on both sides, whatever became of its parts. -/
theorem insideFunction (kind : Grammar.FunctionKind) (name : Option String) (line column : Nat)
    (h : Lockstep stop p q) : Lockstep stop (Grammar.insideFunction kind name line column p)
      (Grammar.insideFunction kind name line column q) := by
  have hOpened := still_withFunction kind name line column
  constructor
  -- the first run alone never leads back
  · intro s
    have hParts := h.onward (Grammar.withFunction s kind name line column)
    show Settles ((Division.onward stop).Goes s) (fun _ => True) _
    refine hParts.insideFunction (fun t ht => ?_) (fun t _ => ?_) fun _ _ => trivial
    · have hTrans (u : Session) (hu : t.Stands False u) : (Division.onward stop).Goes s u :=
        (Division.onward stop).trans (onward_of_stands (hOpened.stands (c := True) s))
          ((Division.onward stop).trans ht (onward_of_stands hu))
      exact (standing_closeFunction line column t).settles.imp hTrans hTrans
    · have hClosed := (standing_closeFunction (c := False) line column t).settles
      exact hClosed.imp (fun _ _ => trivial) fun _ _ => trivial
  · intro s s' hs
    -- both runs: the parts are read in lockstep and closed alike
    have hMeets := h.meets _ _ (hOpened.abreast hs)
    generalize hr : p (Grammar.withFunction s kind name line column) = r,
      hr' : q (Grammar.withFunction s' kind name line column) = r' at hMeets
    cases hMeets with
    | ended hOver =>
      rw [← hr] at hOver
      have hClose (t : Session) (ht : Over stop t) :
          Settles (Over stop) (Over stop) (Grammar.closeFunction line column t) := by
        have hClosed := (standing_closeFunction (c := False) line column t).settles
        exact hClosed.imp (fun _ hu => ht.placed hu.toPlaced) fun _ hu => ht.placed hu.toPlaced
      refine .ended (hOver.insideFunction hClose (fun t _ => ?_) fun _ _ => trivial)
      have hClosed := (standing_closeFunction (c := False) line column t).settles
      exact hClosed.imp (fun _ _ => trivial) fun _ _ => trivial
    | ok hAbreast =>
      rw [insideFunction_of_ok hr, insideFunction_of_ok hr']
      exact (bind (closeFunction line column) fun _ => pure _).meets _ _ hAbreast
    | @badSyntax t t' hAbreast =>
      rw [insideFunction_of_error hr, insideFunction_of_error hr']
      obtain ⟨-, _, _, _, hPaired, -⟩ := id hAbreast
      have hClosed := (standing_closeFunction (c := False) line column t).settles.left
      have hClosed' := (standing_closeFunction (c := False) line column t').settles.left
      have hBeside := (blind_closeFunction line column t t' hPaired.beside).left
      exact .badSyntax (hAbreast.stay hClosed hClosed' hBeside)

end Lockstep

/-! ## Prologues -/

theorem onward_warnAt (f : Finding) (line column : Nat) :
    (onward stop).Keeps (warnAt f line column) :=
  onward_of_standing (standing_warnAt line column False.elim).keeps

/-- A statement's end does not lead back. -/
theorem onward_consumeSemicolon : (onward stop).Keeps consumeSemicolon := by
  have hEat : (onward stop).Keeps (eat .semicolon) := by
    refine (onward stop).read fun s => (onward stop).ite _ ?_ ((onward stop).pure _)
    exact (onward stop).bind onward_advance fun _ => (onward stop).pure _
  refine (onward stop).bind hEat fun _ => (onward stop).ite _ ?_ ((onward stop).pure _)
  refine (onward stop).read fun s => (onward stop).ite _ ?_ (onward_warnAt _ _ _)
  refine (onward stop).ite _ ?_ ((onward stop).pure _)
  exact (onward stop).read fun _ => (onward stop).ite _ (onward_warnAt _ _ _) ((onward stop).pure _)

theorem placed_enterStrict : Resolves placed Grammar.enterStrict := by
  have hWarn (f : Finding) : Resolves placed (warnHere f) := .read fun _ => placed_emit _
  refine .read fun s => .ite _ (hWarn _) ?_
  exact .bind (placed_modify fun _ => ⟨rfl, rfl, rfl, rfl, rfl⟩) fun _ =>
    .ite _ (hWarn _) (.pure ())

/-- A string that is a statement of its own is consumed with the semicolon after it. -/
theorem prologueStatement_over {rs : List Result} {t next : Token} {after : Lexer}
    (hFrom : s.stream.From l) (hLeads : Leads l rs next after) (hRest : after.cursor.rest = [])
    (hOffset : stop < after.cursor.position.offset) :
    Settles (Over stop) (fun _ => True) (Grammar.prologueStatement t s) := by
  have hTail (m : Session) (hm : m.stream = s.stream) :
      Settles (Over stop) (fun _ => True) ((do advance; consumeSemicolon : Parse Unit) m) := by
    have hArrives := (advance_arrives (hm ▸ hFrom) hLeads).settles
    have hOver (u : Session) (hu : Arrives m rs.length next after u) : Over stop u :=
      over_of_rest hu.front hRest hOffset
    exact hArrives.bind (fun _ u hu => (hOver u hu).settles onward_consumeSemicolon) hOver fun _ =>
      id
  show Settles _ _ ((if Grammar.isUseStrict t then
      Grammar.enterStrict >>= fun _ =>
        (do advance; consumeSemicolon) else (do advance; consumeSemicolon)
    : Parse Unit) { s with metrics := s.metrics.addStatement })
  split
  · have hStrict := placed_enterStrict { s with metrics := s.metrics.addStatement }
    cases hr : Grammar.enterStrict { s with metrics := s.metrics.addStatement } with
    | ok u m =>
      rw [hr] at hStrict
      rw [bind_of_ok hr]
      exact hTail m hStrict.stream
    | error e m =>
      rw [hr] at hStrict
      rw [bind_of_error hr]
      cases e with
      | badSyntax => exact hStrict.elim
      | halt => exact trivial
  · exact hTail _ rfl

namespace Lockstep

/-- One statement of a prologue. Where the string is the last token before the sources part, only
the first run takes it for a statement of its own, and is over then. -/
theorem prologueRound
    (h : ∀ t, Lockstep stop (Grammar.prologueStatement t) (Grammar.prologueStatement t)) :
    Lockstep stop (Grammar.prologueRound ()) (Grammar.prologueRound ()) := by
  let rest (t : Token) (next : Option Token) : Parse (Round Unit) :=
    if !next.all Grammar.endsPrologueString then Pure.pure (.done ())
    else do
      Grammar.prologueStatement t
      return .again ()
  have hRest (t : Token) (next : Option Token) : Lockstep stop (rest t next) (rest t next) := by
    dsimp only [rest]
    split
    · exact pure _
    · exact bind (h t) fun _ => pure _
  have hRun (s : Session) : Grammar.prologueRound () s =
      if !Grammar.isString s.token then .ok (.done ()) s
      else rest s.token (s.stream.peek 0).1 { s with stream := (s.stream.peek 0).2 } := by
    show (if _ then _ else _ : Parse (Round Unit)) s = _
    split <;> rfl
  refine ⟨(Division.onward stop).prologueRound (onward_peek 0) fun t => (h t).onward,
    fun s s' hs => ?_⟩
  obtain ⟨hOffset, count, l, l', hPaired, hFlag⟩ := id hs
  rw [hRun, hRun, hPaired.token]
  split
  · exact .ok hs
  · obtain ⟨rs, t, after, hLeads⟩ := exists_leads l
    have hVisit {l : Lexer} {rs : List Result} {t : Token} {after : Lexer}
      (h : Leads l rs t after) :
        Visits TokenStream.passing l 0 t rs.length := h.visits rfl
    obtain ⟨hSome, hFront, hQueue⟩ := TokenStream.peek_spec hPaired.front (hVisit hLeads)
    rcases hPaired.twins.leads hLeads with hNext | hLast
    · obtain ⟨after', hLeads', -⟩ := hNext.leads
      obtain ⟨hSome', hFront', hQueue'⟩ := TokenStream.peek_spec hPaired.front' (hVisit hLeads')
      have hPeeked := hPaired.look hFront hFront' hQueue hQueue' (.inl rfl)
      rw [hPaired.token] at hPeeked
      rw [hSome, hSome']
      exact (hRest _ _).meets _ _ ⟨hOffset, count, l, l', hPeeked, hFlag⟩
    -- the string is the last token but one: either run ends the prologue or is past the stop
    · rcases Abreast.last hOffset hPaired.front hFlag hLeads
        hLast with ⟨m, rs, u, after, hFrom, hOver⟩ | hSemicolon
      · have hPeeked : Over stop { s with stream := (s.stream.peek 0).2 } :=
          ⟨m, rs, u, after, TokenStream.from_peek 0 hFrom, hOver⟩
        exact .ended (hPeeked.settles (hRest _ _).onward)
      · have hEnds : Grammar.endsPrologueString t = true := by
          rw [Grammar.endsPrologueString, Token.isPunctuator, hSemicolon.1]
          simp
        have hStatement := prologueStatement_over (s := { s with stream := (s.stream.peek 0).2 })
          (t := s.token) hFront hLeads hLast.rest hLast.offset
        rw [hSome]
        refine .ended ?_
        show Settles _ _
          ((if !(some t).all Grammar.endsPrologueString then _ else _ : Parse (Round Unit)) _)
        rw [Option.all_some, hEnds]
        exact hStatement.bind (fun _ _ => id) (fun _ => id) fun _ => id

theorem ite (c : Prop) [Decidable c] {p' q' : Parse α} (h : Lockstep stop p q)
    (h' : Lockstep stop p' q') : Lockstep stop (if c then p else p') (if c then q else q') := by
  split
  · exact h
  · exact h'

theorem checkFiltered (t : Token) :
    Lockstep stop (Grammar.checkFiltered t) (Grammar.checkFiltered t) := by
  have hStarts : Lockstep stop Grammar.bodyStartsWithIf Grammar.bodyStartsWithIf := by
    refine read fun s s' ⟨_, _, _, _, hs⟩ => ?_
    subst hs
    refine ite _ (pure _) (ite _ (peekIs ?_) (pure _))
    rintro t - (h | h) <;> simp [Token.isKeyword, h]
  refine read fun s s' ⟨_, _, _, _, hs⟩ => ?_
  subst hs
  refine ite _ (bind hStarts fun _ => ?_) (pure ())
  exact ite _ (.of_blind (blind_warnAt _ _ _) (standing_warnAt _ _ False.elim).keeps) (pure ())

end Lockstep

/-- The parsers that keep two runs abreast until the first is over. -/
def lockstep (stop : Nat) : Grammar.Congruence where
  hides _ := False
  Rel p q := Lockstep stop p q
  Parts p q := Lockstep stop p q
  pure := .pure
  bind := .bind
  read h := .read fun s s' hs => h s s' (hs.resembles _)
  warnAt f line column _ :=
    .of_blind (blind_warnAt f line column) (standing_warnAt line column False.elim).keeps
  governs_ne := Grammar.governs_ne_of_false
  quiet _ _ := False.elim
  loud _ _ := False.elim
  step h := by
    cases h with
    | warnAt f line column h =>
      exact .of_blind (blind_warnAt f line column) (standing_warnAt line column False.elim).keeps
    | failAt f t h => exact .of_blind (blind_failAt f t) (standing_failAt t)
    | advance => exact .advance
    | advanceToStatement => exact .advanceToStatement
    | peekIs test h => exact .peekIs h
    | peekArrowAfterNext => exact .peekArrowAfterNext
    | startsArrow => exact .startsArrow
    | count f => exact .modify (still_apart fun _ _ _ _ _ => rfl)
    | names h =>
      refine .modify (still (fun s hs => ?_) (fun _ => ⟨rfl, rfl, rfl, rfl, rfl⟩) (fun _ => rfl)
        fun _ _ _ _ _ => rfl)
      exact hs.evolves (Grammar.evolves_nameStep h s.scopes s.layers)
    | flushScopes => exact .of_blind blind_flushScopes standing_flushScopes.keeps
    | setHint name => exact .modify (still_apart fun _ _ _ _ _ => rfl)
    | makeStrict => exact .modify (still_apart fun _ _ _ _ _ => rfl)
    | checkFiltered t => exact .checkFiltered t
  prologueRound := .prologueRound
  loop := .loop
  recursive := .recursive
  recover := .recover
  clearingHint h := .ensuring h (still_apart fun _ _ _ _ _ => rfl)
  withNoIn := .withNoIn
  withFrame := .withFrame
  insideBlock := .insideBlock
  insideLoop h := .bind (.modify (still_apart fun _ _ _ _ _ => rfl)) fun _ =>
    .ensuring h (still_apart fun _ _ _ _ _ => rfl)
  parts := id
  bindParts := .bind
  partsBind := .bind
  openOverlay h := .bind (.modify (still_apart fun _ _ _ _ _ => rfl)) h
  insideFunction := .insideFunction

end Division

end ScriptLint
