import ScriptLint.Proofs.Grammar.Blind
import ScriptLint.Proofs.Isolation.Names
import ScriptLint.Proofs.Isolation.Streams
import ScriptLint.Proofs.Unwinding

/-!
# Two runs side by side

Two runs over the same source whose options differ in one setting are at the same place all the
time, until what the setting governs stops one of them. A run that was stopped has a halted journal
without an unrecoverable error in it, and that is how it ends.

- `Journal.Alike`: journals that differ at most in what the setting governs.
- `Session.Alongside`: sessions of the two runs, whatever is ahead of them.
- `Session.Abreast`: besides, the same is ahead of them.
- `Session.Tame`, `Session.Ended`, `lasting`: what each run keeps by itself.
- `Parse.Meets`: how the two runs end.
- `Parse.Parallel`: parsers that run alike, with one lemma for each way to combine parsers.
-/

namespace ScriptLint

open Parse

/-! ## Journals -/

namespace Journal

/-- The journals differ at most in the diagnostics that the setting governs. -/
structure Alike (p : Setting) (j j' : Journal) : Prop where
  kept : j'.kept.filter (p.spares ·.code) = j.kept.filter (p.spares ·.code)
  codes : ∀ code, code ∈ j'.ignoredCodes ↔ code ∈ j.ignoredCodes
  lines : j'.ignoredLines = j.ignoredLines
  regions : j'.regions = j.regions
  openRegion : j'.openRegion = j.openRegion
  halted : j'.halted = j.halted

namespace Alike

variable {p : Setting} {j j' : Journal}

/-- Alikeness is symmetric. -/
theorem symm (h : Alike p j j') : Alike p j' j where
  kept := h.kept.symm
  codes code := (h.codes code).symm
  lines := h.lines.symm
  regions := h.regions.symm
  openRegion := h.openRegion.symm
  halted := h.halted.symm

/-- Alike journals keep the same diagnostics. -/
theorem keeps (h : Alike p j j') (d : Diagnostic) : j'.keeps d = j.keeps d := by
  have hCodes : j'.ignoredCodes.contains d.code = j.ignoredCodes.contains d.code := by
    rw [Bool.eq_iff_iff, List.contains_iff_mem, List.contains_iff_mem, h.codes]
  rw [Journal.keeps, Journal.keeps, suppresses, suppresses, hCodes, h.lines, h.regions,
    h.openRegion, h.halted]

/-- Both journals take the diagnostic. -/
theorem cons (h : Alike p j j') (d : Diagnostic) :
    Alike p { j with kept := d :: j.kept } { j' with kept := d :: j'.kept } where
  kept := by rw [List.filter_cons, List.filter_cons, h.kept]
  codes := h.codes
  lines := h.lines
  regions := h.regions
  openRegion := h.openRegion
  halted := h.halted

/-- A diagnostic is recorded in both, or not shown in either. -/
theorem record (h : Alike p j j') (d : Diagnostic) : Alike p (j.record d) (j'.record d) := by
  rw [Journal.record, Journal.record, h.keeps d]
  split
  · exact h.cons d
  · exact h

/-- Only the second journal takes what the setting governs. -/
theorem record_governed (h : Alike p j j') {d : Diagnostic} (hd : p.governs.contains d.code) :
    Alike p j (j'.record d) := by
  rw [Journal.record]
  split
  · refine ⟨?_, h.codes, h.lines, h.regions, h.openRegion, h.halted⟩
    have hSpared : p.spares d.code = false := by rw [Setting.spares, hd, Bool.not_true]
    show (d :: j'.kept).filter _ = _
    rw [List.filter_cons, hSpared, h.kept]
    rfl
  · exact h

/-- Both journals are halted. -/
theorem halt (h : Alike p j j') (last : Diagnostic) : Alike p (j.halt last) (j'.halt last) := by
  rw [Journal.halt, Journal.halt, h.halted]
  split
  · exact h
  · have hTaken := h.cons last
    exact ⟨hTaken.kept, h.codes, h.lines, h.regions, h.openRegion, rfl⟩

theorem ignoreCode (h : Alike p j j') (code : String) :
    Alike p (j.ignoreCode code) (j'.ignoreCode code) where
  kept := h.kept
  codes other := by
    show other ∈ code :: j'.ignoredCodes ↔ other ∈ code :: j.ignoredCodes
    rw [List.mem_cons, List.mem_cons, h.codes]
  lines := h.lines
  regions := h.regions
  openRegion := h.openRegion
  halted := h.halted

theorem dropLine (h : Alike p j j') (line : Nat) :
    Alike p (j.dropLine line) (j'.dropLine line) where
  kept := by
    have hDropped (kept : List Diagnostic) :
        (kept.filter (·.line != line)).filter (p.spares ·.code) =
        (kept.filter (p.spares ·.code)).filter (·.line != line) := by
      rw [List.filter_filter, List.filter_filter]
      exact List.filter_congr fun d _ => Bool.and_comm _ _
    show (j'.kept.filter (·.line != line)).filter _ = (j.kept.filter (·.line != line)).filter _
    rw [hDropped, hDropped, h.kept]
  codes := h.codes
  lines := h.lines
  regions := h.regions
  openRegion := h.openRegion
  halted := h.halted

theorem ignoreLine (h : Alike p j j') (line : Nat) :
    Alike p (j.ignoreLine line) (j'.ignoreLine line) :=
  ⟨(h.dropLine line).kept, h.codes, congrArg (line :: ·) h.lines, h.regions, h.openRegion, h.halted⟩

/-- A region starts in both. -/
theorem startRegion (h : Alike p j j') (line : Nat) :
    Alike p (j.startRegion line) (j'.startRegion line) := by
  unfold Journal.startRegion
  rw [h.openRegion]
  split
  · exact h
  · exact ⟨(h.dropLine line).kept, h.codes, h.lines, h.regions, rfl, h.halted⟩

/-- A region ends in both. -/
theorem endRegion (h : Alike p j j') (line : Nat) :
    Alike p (j.endRegion line) (j'.endRegion line) := by
  unfold Journal.endRegion
  rw [h.openRegion]
  split
  · exact ⟨h.kept, h.codes, h.lines, congrArg (· ++ _) h.regions, rfl, h.halted⟩
  · exact h

end Alike

end Journal

/-! ## Sessions -/

namespace Session

/-- Sessions that differ at most in the stream, in the values of the settings affected, and in what
the setting decides about. -/
def Alongside (p : Setting) (s s' : Session) : Prop :=
  ∃ stream layers scopes journal firstQuote,
    s' = { s with stream, layers, scopes, journal, firstQuote } ∧
      Setting.Layers.Agree p.affects s.layers layers ∧ Scope.Tracker.Alike p s.scopes scopes ∧
      s.journal.Alike p journal ∧ (p ≠ .quotmark → firstQuote = s.firstQuote)

/-- Being alongside is symmetric. -/
theorem Alongside.symm {p : Setting} {s s' : Session} : s.Alongside p s' → s'.Alongside p s := by
  rintro ⟨stream, layers, scopes, journal, firstQuote, rfl, hLayers, hScopes, hJournal, hQuote⟩
  exact ⟨s.stream, s.layers, s.scopes, s.journal, s.firstQuote, rfl, hLayers.symm, hScopes.symm,
    hJournal.symm, fun hp => (hQuote hp).symm⟩

/-- What the scopes hide from the grammar is all that the setting decides about. -/
theorem Alongside.resembles {p : Setting} {s s' : Session} :
    s.Alongside p s' → s.Resembles p.affects s' := by
  rintro ⟨stream, layers, scopes, journal, firstQuote, rfl, hLayers, hScopes, -, -⟩
  have hSame : scopes = { s.scopes with
      pending := scopes.pending, unused := scopes.unused, findings := scopes.findings } := by
    let strip (t : Scope.Tracker) : Scope.Tracker :=
      { t with pending := {}, unused := [], findings := [] }
    have hStrip : strip scopes = strip s.scopes := hScopes.same fun _ => rfl
    exact congrArg (fun t : Scope.Tracker => { t with
      pending := scopes.pending, unused := scopes.unused, findings := scopes.findings }) hStrip
  refine ⟨⟨stream, s.sourceLength, s.uncheckedLines, journal, layers, firstQuote, scopes.pending,
    scopes.unused, scopes.findings⟩, ?_, fun setting hs => hLayers.resolve hs⟩
  rw [withUnseen, ← hSame]

/-- The same is ahead in both sessions; after an opening brace a slash may start a regular
expression. -/
def Facing (s s' : Session) : Prop :=
  ∃ l, s.stream.Akin l s'.stream ∧ (s.token.isPunctuator .leftBrace → l.regexAllowed)

/-- Sessions of two runs at the same place. -/
structure Abreast (p : Setting) (s s' : Session) : Prop where
  alongside : s.Alongside p s'
  facing : s.Facing s'

theorem Abreast.symm {p : Setting} {s s' : Session} (h : s.Abreast p s') : s'.Abreast p s := by
  obtain ⟨l, hAkin, hBrace⟩ := h.facing
  have hToken : s'.token = s.token := by
    obtain ⟨_, _, _, _, _, rfl, -⟩ := h.alongside
    rfl
  exact ⟨h.alongside.symm, l, hAkin.symm, hToken ▸ hBrace⟩

/-- Staying in place does not change what is ahead. -/
theorem Facing.placed {s s' t t' : Session} (h : s.Facing s') (ht : s.Placed t)
    (ht' : s'.Placed t') : t.Facing t' := by
  unfold Facing
  rw [ht.stream, ht.token, ht'.stream]
  exact h

/-! ## What each run keeps -/

/-- The scopes are calm, and nothing unrecoverable was found, unless the journal is halted. -/
structure Tame (s : Session) : Prop where
  calm : s.scopes.Calm
  kept : s.journal.halted = false → ∀ d ∈ s.journal.kept, d.code ≠ "E041"

/-- The journal was halted, and not by an unrecoverable error that it still shows. -/
structure Ended (s : Session) : Prop where
  calm : s.scopes.Calm
  halted : s.journal.halted
  kept : ∀ d ∈ s.journal.kept, d.code ≠ "E041"

end Session

/-- The contract to stay tame and to let a run that has ended have ended. -/
def lasting : Contract where
  Goes s t := (s.Tame → t.Tame) ∧ (s.Ended → t.Ended)
  Stops s t := (s.Tame → t.Tame) ∧ (s.Ended → t.Ended)
  refl _ := ⟨id, id⟩
  trans h h' := ⟨h'.1 ∘ h.1, h'.2 ∘ h.2⟩
  stop h h' := ⟨h'.1 ∘ h.1, h'.2 ∘ h.2⟩

/-- The scopes stay calm, a halted journal stays halted, and nothing unrecoverable enters it. -/
theorem Session.lasts {s t : Session} (hCalm : s.scopes.Calm → t.scopes.Calm)
    (hHalted : s.journal.halted → t.journal.halted)
    (hGrows : s.scopes.Calm → s.journal.Grows t.journal) : lasting.Goes s t := by
  refine ⟨fun hs => ⟨hCalm hs.calm, fun ht d hd => ?_⟩,
    fun hs => ⟨hCalm hs.calm, hHalted hs.halted, ?_⟩⟩
  · have hOpen : s.journal.halted = false := by
      rw [← Bool.not_eq_true] at ht ⊢
      exact mt hHalted ht
    exact (hGrows hs.calm d hd).elim (hs.kept hOpen d) id
  · exact fun d hd => (hGrows hs.calm d hd).elim (hs.kept d) id

/-- Neither the scopes nor the journal change. -/
theorem Session.lasts_of_same {s t : Session} (h : (t.scopes, t.journal) = (s.scopes, s.journal)) :
    lasting.Goes s t := by
  obtain ⟨hScopes, hJournal⟩ := Prod.mk.inj h
  exact lasts (hScopes ▸ id) (hJournal ▸ id) fun _ => hJournal ▸ .refl _

theorem Session.lasts_of_steady {s t : Session} (h : s.Steady t)
    (hHalted : s.journal.halted → t.journal.halted) : lasting.Goes s t :=
  lasts (fun hs => hs.evolves h.scopes) hHalted h.journal

variable {α β : Type} {p : Setting}

/-- What is steady and keeps a halt is lasting. -/
theorem lasting_of_steady {a : Parse α} (h : steady.Keeps a) (h' : halting.Keeps a) :
    lasting.Keeps a := by
  intro s
  have hSteady := h s
  have hHalting := h' s
  cases hr : a s with
  | ok x t =>
    rw [hr] at hSteady hHalting
    exact Session.lasts_of_steady hSteady hHalting.trans
  | error e t =>
    rw [hr] at hSteady hHalting
    cases e with
    | badSyntax => exact Session.lasts_of_steady hSteady hHalting.trans
    | halt => exact Session.lasts_of_steady hSteady fun _ => hHalting

/-- The steps of the grammar keep what each run keeps. -/
theorem lasting_step {a : Parse α} (h : Grammar.Step a) : lasting.Keeps a :=
  lasting_of_steady (steady_steps.step h) (halting_steps.step h)

theorem lasting_emit {d : Diagnostic} (h : d.code ≠ "E041") : lasting.Keeps (Parse.emit d) :=
  lasting_of_steady (Parse.steady_emit h)
    (Parse.halting_of_reporting (Parse.reporting_emit d)).keeps

/-- Every step of a parser is lasting. -/
theorem lasting_passable : lasting.Passable where
  emit h := lasting_emit h.code_ne
  moved := by
    rintro s t ⟨_, _, _, _, _, _, _, rfl⟩
    exact Session.lasts_of_same rfl
  layers _ := Session.lasts_of_same rfl
  scopes h := Session.lasts (fun hs => hs.evolves h) id fun _ => .refl _
  ignores h := Session.lasts id (h.halted ▸ id) fun _ => h.grows

/-! ## Results of two runs -/

namespace Parse

variable {R R' : Session → Session → Prop} {a b a' b' : Parse α} {s s' : Session}

/-- One of the runs has ended, or both end alike. Once they stop, it does not matter what is
ahead. -/
inductive Meets (p : Setting) (R : Session → Session → Prop) :
    EStateM.Result Abort Session α → EStateM.Result Abort Session α → Prop
  | left {r r' : EStateM.Result Abort Session α} (h : (left r).Ended) : Meets p R r r'
  | right {r r' : EStateM.Result Abort Session α} (h : (Parse.left r').Ended) : Meets p R r r'
  | ok {x : α} {t t' : Session} (h : R t t') : Meets p R (.ok x t) (.ok x t')
  | giveUp {t t' : Session} (h : R t t') : Meets p R (.error .badSyntax t) (.error .badSyntax t')
  | halt {t t' : Session} (h : t.Alongside p t') : Meets p R (.error .halt t) (.error .halt t')

/-- The parsers keep what each run keeps, and from related sessions they run alike. -/
structure Parallel (p : Setting) (R : Session → Session → Prop) (a b : Parse α) : Prop where
  left : lasting.Keeps a
  right : lasting.Keeps b
  meets : ∀ s s', R s s' → s.Tame → s'.Tame → Meets p R (a s) (b s')

/-- Meeting is symmetric. -/
theorem Meets.symm (hR : ∀ t t', R t t' → R t' t) {r r' : EStateM.Result Abort Session α}
    (h : Meets p R r r') : Meets p R r' r := by
  cases h with
  | left h => exact .right h
  | right h => exact .left h
  | ok h => exact .ok (hR _ _ h)
  | giveUp h => exact .giveUp (hR _ _ h)
  | halt h => exact .halt h.symm

/-- A run that has ended is not brought back. -/
theorem ended_bind {f : α → Parse β} (h : (Parse.left (a s)).Ended)
    (hf : ∀ x, lasting.Keeps (f x)) : (Parse.left ((a >>= f) s)).Ended := by
  cases hr : a s with
  | ok x t =>
    rw [hr] at h
    rw [bind_of_ok hr]
    exact (hf x t).left.2 h
  | error e t =>
    rw [hr] at h
    rw [bind_of_error hr]
    exact h

/-- Recovering does not bring an ended run back. -/
theorem ended_recover (h : (Parse.left (a s)).Ended) (ha' : lasting.Keeps a') :
    (Parse.left (a.recover a' s)).Ended := by
  -- a run that halted is not recovered from, one that gave up goes on and stays ended
  cases hr : a s with
  | ok x t =>
    rw [hr] at h
    rw [recover_of_ok hr]
    exact h
  | error e t =>
    rw [hr] at h
    cases e with
    | badSyntax =>
      rw [recover_of_badSyntax hr]
      exact (ha' t).left.2 h
    | halt =>
      rw [recover_of_halt hr]
      exact h

/-- Nor does what is ensured. -/
theorem ended_ensuring {after : Session → Session} (h : (Parse.left (a s)).Ended)
    (hAfter : ∀ t, lasting.Goes t (after t)) : (Parse.left (a.ensuring after s)).Ended := by
  cases hr : a s with
  | ok x t =>
    rw [hr] at h
    rw [ensuring_of_ok hr]
    exact (hAfter t).2 h
  | error e t =>
    rw [hr] at h
    rw [ensuring_of_error hr]
    exact (hAfter t).2 h

namespace Parallel

/-! ## Combinations -/

theorem symm (hR : ∀ t t', R t t' → R t' t) (h : Parallel p R a b) : Parallel p R b a where
  left := h.right
  right := h.left
  meets s s' hs ht ht' := (h.meets s' s (hR s s' hs) ht' ht).symm hR

theorem pure (x : α) : Parallel p R (pure x) (pure x) :=
  ⟨lasting.pure x, lasting.pure x, fun _ _ h _ _ => .ok h⟩

theorem giveUp : Parallel p R (throw .badSyntax : Parse α) (throw .badSyntax) :=
  ⟨lasting.giveUp, lasting.giveUp, fun _ _ h _ _ => .giveUp h⟩

/-- One thing after another: as long as neither run has ended, both go on from related sessions. -/
theorem bind {f g : α → Parse β} (h : Parallel p R a b) (hf : ∀ x, Parallel p R (f x) (g x)) :
    Parallel p R (a >>= f) (b >>= g) := by
  have hLeft (x : α) := (hf x).left
  have hRight (x : α) := (hf x).right
  refine ⟨lasting.bind h.left hLeft, lasting.bind h.right hRight, fun s s' hs ht ht' => ?_⟩
  have hTame := h.left s
  have hTame' := h.right s'
  have hMeets := h.meets s s' hs ht ht'
  generalize hr : a s = r, hr' : b s' = r' at hMeets
  cases hMeets with
  | left hEnded => exact .left (ended_bind (hr ▸ hEnded) hLeft)
  | right hEnded => exact .right (ended_bind (hr' ▸ hEnded) hRight)
  | ok hu =>
    rw [hr] at hTame
    rw [hr'] at hTame'
    rw [bind_of_ok hr, bind_of_ok hr']
    exact (hf _).meets _ _ hu (hTame.1 ht) (hTame'.1 ht')
  | giveUp hu =>
    rw [bind_of_error hr, bind_of_error hr']
    exact .giveUp hu
  | halt hu =>
    rw [bind_of_error hr, bind_of_error hr']
    exact .halt hu

/-- Both sessions resemble each other. -/
theorem read {f g : Session → Parse α} (hR : ∀ s s', R s s' → s.Resembles p.affects s')
    (h : ∀ s s', s.Resembles p.affects s' → Parallel p R (f s) (g s')) :
    Parallel p R (get >>= f) (get >>= g) where
  left := lasting.read fun s => (h s s (.refl _ s)).left
  right := lasting.read fun s => (h s s (.refl _ s)).right
  meets s s' hs := (h s s' (hR s s' hs)).meets s s' hs

theorem ite (c : Prop) [Decidable c] (h : Parallel p R a b) (h' : Parallel p R a' b') :
    Parallel p R (if c then a else a') (if c then b else b') := by
  split
  · exact h
  · exact h'

/-- Two changes, one in each run. -/
theorem edit {f g : Session → Session} (hf : ∀ s, lasting.Goes s (f s))
    (hg : ∀ s, lasting.Goes s (g s)) (h : ∀ s s', R s s' → R (f s) (g s')) :
    Parallel p R (modify f) (modify g) :=
  ⟨lasting.modify hf, lasting.modify hg, fun s s' hs _ _ => .ok (h s s' hs)⟩

/-- By induction on the list. -/
theorem forM {l : List β} {f : β → Parse PUnit} (h : ∀ x ∈ l, Parallel p R (f x) (f x)) :
    Parallel p R (l.forM f) (l.forM f) := by
  induction l with
  | nil => exact pure _
  | cons x rest ih =>
    refine bind (h x (List.mem_cons_self ..)) fun _ => ih fun y hy => ?_
    exact h y (List.mem_cons_of_mem _ hy)

/-- Both runs recover, unless one has ended. -/
theorem recover (h : Parallel p R a b) (h' : Parallel p R a' b') :
    Parallel p R (a.recover a') (b.recover b') := by
  refine ⟨lasting.recover h.left h'.left, lasting.recover h.right h'.right,
    fun s s' hs ht ht' => ?_⟩
  have hTame := h.left s
  have hTame' := h.right s'
  have hMeets := h.meets s s' hs ht ht'
  generalize hr : a s = r, hr' : b s' = r' at hMeets
  -- one of the runs may have ended; else both have the same outcome
  cases hMeets with
  | left hEnded => exact .left (ended_recover (hr ▸ hEnded) h'.left)
  | right hEnded => exact .right (ended_recover (hr' ▸ hEnded) h'.right)
  | ok hu =>
    rw [recover_of_ok hr, recover_of_ok hr']
    exact .ok hu
  | giveUp hu =>
    rw [hr] at hTame
    rw [hr'] at hTame'
    rw [recover_of_badSyntax hr, recover_of_badSyntax hr']
    exact h'.meets _ _ hu (hTame.1 ht) (hTame'.1 ht')
  | halt hu =>
    rw [recover_of_halt hr, recover_of_halt hr']
    exact .halt hu

/-- Both runs have the same number of rounds. By induction on them. -/
theorem rounds {f g : α → Parse (Round α)} (hR : ∀ s s', R s s' → s.Alongside p s')
    (h : ∀ x, Parallel p R (f x) (g x)) (n : Nat) (x : α) :
    Parallel p R (rounds f n x) (rounds g n x) := by
  induction n generalizing x with
  | zero => exact ⟨fun _ => ⟨id, id⟩, fun _ => ⟨id, id⟩, fun s s' hs _ _ => .halt (hR s s' hs)⟩
  | succ n ih =>
    refine bind (h x) fun r => ?_
    cases r with
    | again x => exact ih x
    | done x => exact pure x

/-- The levels of a recursion run in parallel. -/
theorem unfolded {f g : Parse α → Parse α} (hR : ∀ s s', R s s' → s.Alongside p s')
    (h : ∀ a b, Parallel p R a b → Parallel p R (f a) (g b)) (n : Nat) :
    Parallel p R (unfolded f n) (unfolded g n) := by
  induction n with
  | zero => exact ⟨fun _ => ⟨id, id⟩, fun _ => ⟨id, id⟩, fun s s' hs _ _ => .halt (hR s s' hs)⟩
  | succ n ih => exact h _ _ ih

/-- As many tokens may be left in both sessions. -/
theorem budgeted {f g : Nat → Parse α} (hR : ∀ s s', R s s' → s.Alongside p s')
    (h : ∀ n, Parallel p R (f n) (g n)) :
    Parallel p R (do f (← get).budget) (do g (← get).budget) where
  left := lasting.read fun s => (h s.budget).left
  right := lasting.read fun s => (h s.budget).right
  meets s s' hs := by
    have hBudget : s'.budget = s.budget := by
      obtain ⟨_, _, _, _, _, rfl, -⟩ := hR s s' hs
      rfl
    show _ → _ → Meets p R (f s.budget s) (g s'.budget s')
    rw [hBudget]
    exact (h s.budget).meets s s' hs

end Parallel

/-! ## Staying in place -/

/-- A change of the session that stays in place and is the same in both runs. -/
structure Smooth (p : Setting) (f : Session → Session) : Prop where
  lasts (s : Session) : lasting.Goes s (f s)
  placed (s : Session) : s.Placed (f s)
  alongside {s s' : Session} : s.Alongside p s' → (f s).Alongside p (f s')

/-- A smooth change keeps sessions abreast. -/
theorem Smooth.abreast {f : Session → Session} (h : Smooth p f) (hs : s.Abreast p s') :
    (f s).Abreast p (f s') :=
  ⟨h.alongside hs.alongside, hs.facing.placed (h.placed s) (h.placed s')⟩

/-- Runs that stay in place face the same as before. -/
theorem Meets.placed {r r' : EStateM.Result Abort Session α}
    (h : Meets p (Session.Alongside p) r r')
    (hFacing : s.Facing s') (hr : Settles s.Placed s.Placed r)
    (hr' : Settles s'.Placed s'.Placed r') : Meets p (Session.Abreast p) r r' := by
  cases h with
  | left h => exact .left h
  | right h => exact .right h
  | ok h => exact .ok ⟨h, hFacing.placed hr hr'⟩
  | giveUp h => exact .giveUp ⟨h, hFacing.placed hr hr'⟩
  | halt h => exact .halt h

namespace Parallel

/-- Parsers that stay in place run alike whatever is ahead. -/
theorem of_placed (h : Parallel p (Session.Alongside p) a b) (ha : placed.Keeps a)
    (hb : placed.Keeps b) : Parallel p (Session.Abreast p) a b :=
  ⟨h.left, h.right, fun s s' hs ht ht' =>
    (h.meets s s' hs.alongside ht ht').placed hs.facing (ha s) (hb s')⟩

theorem smooth {f : Session → Session} (h : Smooth p f) :
    Parallel p (Session.Abreast p) (modify f) (modify f) :=
  edit h.lasts h.lasts fun _ _ => h.abreast

/-- Loops run in parallel, since both have the same rounds. -/
theorem loop {f g : α → Parse (Round α)} (h : ∀ x, Parallel p (Session.Abreast p) (f x) (g x))
    (x : α) : Parallel p (Session.Abreast p) (Parse.loop f x) (Parse.loop g x) :=
  budgeted (fun _ _ hs => hs.alongside) fun n => rounds (fun _ _ hs => hs.alongside) h n x

theorem recursive {f g : Parse α → Parse α}
    (h : ∀ a b, Parallel p (Session.Abreast p) a b → Parallel p (Session.Abreast p) (f a) (g b)) :
    Parallel p (Session.Abreast p) (Parse.recursive f) (Parse.recursive g) :=
  budgeted (fun _ _ hs => hs.alongside) fun n => unfolded (fun _ _ hs => hs.alongside) h n

/-- What is ensured is done in both runs. -/
theorem ensuring {f : Session → Session} (h : Parallel p (Session.Abreast p) a b)
    (hf : Smooth p f) : Parallel p (Session.Abreast p) (a.ensuring f) (b.ensuring f) := by
  have hKeeps {a : Parse α} (ha : lasting.Keeps a) : lasting.Keeps (a.ensuring f) := fun s =>
    (ha s).ensuring (fun t ht => lasting.trans ht (hf.lasts t)) fun t ht =>
      lasting.trans ht (hf.lasts t)
  refine ⟨hKeeps h.left, hKeeps h.right, fun s s' hs ht ht' => ?_⟩
  have hMeets := h.meets s s' hs ht ht'
  generalize hr : a s = r, hr' : b s' = r' at hMeets
  -- one of the runs may have ended; else both have the same outcome
  cases hMeets with
  | left hEnded => exact .left (ended_ensuring (hr ▸ hEnded) hf.lasts)
  | right hEnded => exact .right (ended_ensuring (hr' ▸ hEnded) hf.lasts)
  | ok hu =>
    rw [ensuring_of_ok hr, ensuring_of_ok hr']
    exact .ok (hf.abreast hu)
  | giveUp hu =>
    rw [ensuring_of_error hr, ensuring_of_error hr']
    exact .giveUp (hf.abreast hu)
  | halt hu =>
    rw [ensuring_of_error hr, ensuring_of_error hr']
    exact .halt (hf.alongside hu)

/-- Something is changed before a parser and something after it. -/
theorem around {before after : Session → Session} (hBefore : Smooth p before)
    (hAfter : Smooth p after) (h : Parallel p (Session.Abreast p) a b) :
    Parallel p (Session.Abreast p) (do modify before; a.ensuring after)
      (do modify before; b.ensuring after) :=
  bind (smooth hBefore) fun _ => h.ensuring hAfter

end Parallel

end Parse

end ScriptLint
