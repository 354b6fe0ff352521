import ScriptLint.Proofs.Deeds.Telling
import ScriptLint.Proofs.Unwinding

/-!
# The deeds of a run

What a run does in between is read off the composition of its parser: which diagnostics it submits,
which tokens it consumes, and where functions, blocks and statements begin and end.

- `Deed`, `Grammar.Composition.deeds`: what a run does, in its order.
- `Reading`: what sequences of deeds mean for the sessions they lead through.
- `Grammar.Composition.holds`: the deeds of every run are read in that way. A run that stops has
  halted the journal.
-/

namespace ScriptLint

open Parse Grammar

/-- What a run does. -/
inductive Deed where
  /-- A diagnostic is handed to the journal, which keeps or suppresses it. -/
  | submit (d : Diagnostic)
  | consume (use : TokenUse) (t : Token)
  /-- A token of what is left of a statement that was given up on is passed over. -/
  | skip (t : Token)
  | openFunction
  | closeFunction
  /-- A block is entered that opens at the token, where the depth of blocks is limited or not. -/
  | openBlock (opener : Token) (limit : Option Nat)
  | closeBlock
  /-- A list of statements starts with one of them. -/
  | beginStatement
  | endStatement
  /-- The statement was given up on, and what is left of it is skipped. -/
  | abandonStatement

/-- The deed, done to skip what is left of a statement. -/
def Deed.skipping : Deed → Deed
  | consume _ t => skip t
  | deed => deed

/-- A branch of the program is counted. -/
def Session.counted (s : Session) : Session := { s with metrics := s.metrics.addBranch }

namespace Parse

variable {α : Type}

/-- What is done after a run, if it succeeds. -/
def thereafter (r : EStateM.Result Abort Session α) (next : α → Session → List Deed) : List Deed :=
  match r with
  | .ok a t => next a t
  | .error _ _ => []

/-- What consuming the current token does. -/
def consuming (use : TokenUse) (s : Session) : List Deed :=
  .consume use s.token :: (Mild.advance.said s).map .submit

/-- How findings are forwarded. -/
def tellingFindings (findings : List PlacedFinding) :
    Telling (fun d => ∃ f ∈ findings, d = f.finding.diagnostic f.line f.column)
      (findings.forM fun f => warnAt f.finding f.line f.column) :=
  .forM findings fun f hf => .emit _ ⟨f, hf, rfl⟩

/-- The session whose findings are being forwarded. -/
def flushing (s : Session) : Session := { s with scopes := { s.scopes with findings := [] } }

/-- What is submitted when the findings of the scopes are forwarded. -/
def flushed (s : Session) : List Diagnostic := (tellingFindings s.scopes.findings).said (flushing s)

/-- What is submitted, and then what the scopes found. -/
def thenFlushed {p : Parse Unit} (c : Mild p) (s : Session) : List Diagnostic :=
  c.said s ++ match p s with
    | .ok _ t => flushed t
    | .error _ _ => []

/-- Reports on the counts of the function that the session is in. -/
def reportMetrics (line column : Nat) (s : Session) : Parse Unit :=
  (metricFindings s.layers s.metrics.current).forM fun f => warnAt f line column

def tellingMetrics (line column : Nat) (s : Session) : Mild (reportMetrics line column s) :=
  .forM _ fun f hf => Mild.warnAt f line column
    (Finding.isPlain_of_isRemark (isRemark_of_metricFindings hf))

/-- What is submitted when a function is closed. -/
def closed (line column : Nat) (s : Session) : List Diagnostic :=
  thenFlushed (tellingMetrics line column s) (withoutFunction s)

/-- What is submitted when a block is entered that opens at the token. -/
def deepBlock? (opener : Token) (s : Session) : Option Diagnostic :=
  let depth := s.metrics.depth + 1
  if (s.layers.limit? .maxdepth).any (depth == depthBeyond ·) then
    some ((Finding.nestedTooDeeply depth).diagnostic opener.line opener.column)
  else none

/-- A block is entered and reported if it is too deep, and nothing else. -/
theorem left_enterBlock (opener : Token) (s : Session) :
    let entered : Session := { s with metrics := s.metrics.enterBlock }
    left (enterBlock opener s) = match deepBlock? opener s with
      | some d => left (emit d entered)
      | none => entered := by
  intro entered
  have hRun : enterBlock opener s =
      (if (s.layers.limit? .maxdepth).any (s.metrics.depth + 1 == depthBeyond ·) then
        warn (.nestedTooDeeply (s.metrics.depth + 1))
          opener else pure () : Parse Unit) entered := rfl
  rw [hRun, deepBlock?]
  by_cases hDeep : (s.layers.limit? .maxdepth).any (s.metrics.depth + 1 == depthBeyond ·)
  · rw [if_pos hDeep, if_pos hDeep]
    rfl
  · rw [if_neg hDeep, if_neg hDeep]
    rfl

/-- Reporting counts nothing. -/
theorem metrics_emit (d : Diagnostic) (s : Session) : (left (emit d s)).metrics = s.metrics := by
  obtain ⟨j, hj, -⟩ := (recording_emit (c := False) d nofun s).left
  rw [hj]

/-- A block is counted, whether it is reported or not. -/
theorem metrics_enterBlock (opener : Token) (s : Session) :
    (left (enterBlock opener s)).metrics = s.metrics.enterBlock := by
  rw [left_enterBlock]
  cases deepBlock? opener s with
  | none => rfl
  | some d => exact metrics_emit d _

/-- What is done for a block, with what is done inside. -/
def blockDeeds (opener : Token) (s : Session) (inside : List Deed) : List Deed :=
  .openBlock opener (s.layers.limit? .maxdepth) :: (deepBlock? opener s).toList.map .submit ++
    inside ++ [.closeBlock]

/-- What expecting a word does, if it is consumed by its role. -/
def expecting (word : Keyword) (s : Session) : List Deed :=
  if s.token.isKeyword word then consuming .plain s
  else
    [.submit
    ((Finding.expectedToken word.spelling s.token.describe).diagnostic s.token.line s.token.column)]

/-- A word is expected at the current token. -/
theorem expectWord_apply (word : Keyword) (s : Session) :
    expectWord word s =
      (if s.token.isKeyword word then advance else failExpected word.spelling : Parse Unit) s := rfl

/-- What a statement of a list does, and what is done in its place where it is given up on. -/
def entryDeeds (statement : List Deed) (r : EStateM.Result Abort Session Flow)
    (skipping : Session → List Deed) : List Deed :=
  .beginStatement :: statement ++ match r with
    | .ok _ _ => [.endStatement]
    | .error .badSyntax t => .abandonStatement :: (skipping t).map Deed.skipping
    | .error .halt _ => []

/-- What the rounds of a loop do. -/
def roundDeeds (step : α → Parse (Round α)) (deeds : α → Session → List Deed) :
    (count : Nat) → α → Session → List Deed
  | 0, _, _ => []
  | count + 1, a, s => deeds a s ++ thereafter (step a s) fun r t =>
    match r with
    | .again b => roundDeeds step deeds count b t
    | .done _ => []

end Parse

/-- What a run does, in its order. -/
def Grammar.Composition.deeds {α : Type} {T : Token → Prop} {p p' : Parse α}
    {Q : α → Token → Prop} : Composition .same T p p' Q → Session → List Deed
  | weaken _ c _, s => c.deeds s
  | pure _ _, _ => []
  | @bind _ _ _ _ _ _ p _ _ _ c d, s => c.deeds s ++ thereafter (p s) fun a t => (d a).deeds t
  | assoc c, s => c.deeds s
  | read c, s => (c s s.rendering (Likeness.similar_same s)).deeds s
  | ite c hp hq, s => if h : c then (hp h).deeds s else (hq h).deeds s
  | peek _ _ _, _ => []
  | startsArrow, _ => []
  | allowRegex, _ => []
  | change _ _, _ => []
  | @warn _ _ f _ line column _ _ _, _ => [.submit (f.diagnostic line column)]
  | reject problem line column, _ =>
    [.submit
      { line, column, code := problem.code, message := problem.message, phase := .configuration }]
  | @fail _ _ _ _ f _ t _ _ _ _ _, _ => [.submit (f.diagnostic t.line t.column)]
  | failBefore c, s => c.deeds s
  | flush, s => (flushed s).map .submit
  | tooDeep, _ => []
  | advance use _, s => consuming use s
  | decide _ c, s => consuming .plain s ++ thereafter (Parse.advance s) fun _ t => c.deeds t.counted
  | @decideLater _ _ _ _ p _ _ _ word _ _ c d, s =>
    consuming .plain s ++ thereafter (Parse.advance s) fun _ t =>
      c.deeds t.counted ++ thereafter (p t.counted) fun _ u =>
        expecting word u ++ thereafter (Parse.expectWord word u) fun _ v => d.deeds v
  | @insideBlock _ _ _ _ _ _ p _ _ _ opener _ _ c d, s =>
    consuming .plain s ++ thereafter (Parse.advance s) fun _ t =>
      blockDeeds opener t (thereafter (enterBlock opener t) fun _ u => c.deeds u) ++
        thereafter (withBlock opener p t) fun a u => (d a).deeds u
  | @entry _ _ p _ first _ _ c d, s =>
    entryDeeds (c.deeds s) (p s) fun t => (d (t.token.offset ≠ first.offset)).deeds t
  | @loop _ _ _ _ f a _ c, s => roundDeeds f (fun a t => (c a).deeds t) s.budget a s
  | recursive _ c, s => (c s.budget).deeds s
  | ensuring _ _ c, s => c.deeds s
  | @insideFunction _ _ _ p _ kind name line column c, s =>
    let entered := withFunction s kind name line column
    .openFunction :: c.deeds entered ++ .closeFunction ::
      (closed line column (left (p entered))).map .submit

/-! ## Readings -/

/-- What sequences of deeds mean for the sessions they lead through. -/
structure Reading where
  Goes : Session → List Deed → Session → Prop
  /-- The same for runs that give up on their statement. -/
  Drops : Session → List Deed → Session → Prop
  quiet {s t : Session} : s.Unmarked t → Goes s [] t
  trans {s t u : Session} {ds es : List Deed} : Goes s ds t → Goes t es u → Goes s (ds ++ es) u
  drop {s t u : Session} {ds es : List Deed} : Goes s ds t → Drops t es u → Drops s (ds ++ es) u
  dropQuiet {s t u : Session} {ds : List Deed} : Drops s ds t → t.Unmarked u → Drops s ds u
  submit {d : Diagnostic} (h : d.IsPlain) (s : Session) : Goes s [.submit d] (left (emit d s))
  fail {d : Diagnostic} (h : d.isSyntaxError) (s : Session) : Drops s [.submit d] (left (emit d s))
  consume {use : TokenUse} {t : Token} (h : use = .plain → t.decides = false) (s : Session) :
    Goes s [.consume use t] s
  /-- A token decides something, and the decision is counted. -/
  decide {s u : Session} {t : Token} {ds : List Deed} (h : t.decides) :
    Goes s ds u → Goes s (.consume .plain t :: ds) u.counted
  /-- The decision is counted before what stands in front of its token. -/
  decideLater {s u : Session} {t : Token} {ds : List Deed} (h : t.decides) :
    Goes s.counted ds u → Goes s (ds ++ [.consume .plain t]) u
  dropCounted {s u : Session} {ds : List Deed} : Drops s.counted ds u → Drops s ds u
  function {s t u : Session} {ds : List Deed} {told : List Diagnostic} {kind : FunctionKind}
    {name : Option String} {line column : Nat} : Goes (withFunction s kind name line column) ds t →
    Goes (withoutFunction t) (told.map .submit) u →
    Goes s (.openFunction :: ds ++ .closeFunction :: told.map .submit) u
  /-- A function that was given up on is closed all the same. -/
  dropFunction {s t u : Session} {ds : List Deed} {told : List Diagnostic} {kind : FunctionKind}
    {name : Option String} {line column : Nat} : Drops (withFunction s kind name line column) ds t →
    Goes (withoutFunction t) (told.map .submit) u → (∀ d ∈ told, d.IsPlain) →
    Drops s (.openFunction :: ds ++ .closeFunction :: told.map .submit) u
  block {s t : Session} {ds : List Deed} {opener : Token} : opener.isPunctuator .leftBrace →
    Goes (left (enterBlock opener s)) ds t → Goes s (blockDeeds opener s ds) t.leaveBlock
  /-- A block whose statements were given up on is left all the same. -/
  dropBlock {s t : Session} {ds : List Deed} {opener : Token} : opener.isPunctuator .leftBrace →
    Drops (left (enterBlock opener s)) ds t → Drops s (blockDeeds opener s ds) t.leaveBlock
  ended {s t : Session} {ds : List Deed} :
    Goes s ds t → Goes s (.beginStatement :: ds ++ [.endStatement]) t
  abandoned {s t u : Session} {ds es : List Deed} : Drops s ds t → Goes t es u →
    Goes s (.beginStatement :: ds ++ .abandonStatement :: es.map Deed.skipping) u

/-! ## What is submitted -/

namespace Telling

variable {P : Diagnostic → Prop} {α : Type} {p : Parse α}

/-- By induction on how the parser is composed. -/
theorem goes (R : Reading) {α : Type} {p : Parse α} (c : Telling P p) (h : ∀ d, P d → d.IsPlain)
    (s : Session) : R.Goes s ((c.said s).map .submit) (left (p s)) := by
  induction c generalizing s with
  | silent hSilent => exact R.quiet (hSilent s)
  | emit d hd => exact R.submit (h d hd) s
  | @bind α β p f c d ihc ihd =>
    have hFirst := ihc s
    rw [said, List.map_append]
    cases hr : p s with
    | ok a t =>
      rw [hr] at hFirst
      rw [bind_of_ok hr]
      exact R.trans hFirst (ihd a t)
    | error e t =>
      rw [hr] at hFirst
      rw [bind_of_error hr, List.map_nil, List.append_nil]
      exact hFirst
  | read c ih => exact ih s s
  | same c hSame ih =>
    rw [hSame s]
    exact ih s

end Telling

/-! ## Sessions in between -/

/-- The session goes on from a place of the source, with a current token that is as described. -/
structure Session.Ready (T : Token → Prop) (s : Session) : Prop where
  aligned : s.Aligned
  calm : s.scopes.Calm
  token : T s.token

/-- The contract to stay in place, and to halt the journal when the run stops. -/
def remaining : Contract where
  Goes s t := (s.Aligned → t.Aligned ∧ t.token = s.token) ∧ (s.scopes.Calm → t.scopes.Calm)
  Stops _ t := t.journal.halted
  refl _ := ⟨fun hs => ⟨hs, rfl⟩, id⟩
  trans h h' := by
    refine ⟨fun hs => ?_, fun hs => h'.2 (h.2 hs)⟩
    obtain ⟨ht, hToken⟩ := h.1 hs
    obtain ⟨hu, hToken'⟩ := h'.1 ht
    exact ⟨hu, hToken'.trans hToken⟩
  stop _ h := h

namespace Session

variable {T : Token → Prop} {s t : Session}

/-- A session stays ready where the parser remains at its token. -/
theorem Ready.remains (h : s.Ready T) (ht : remaining.Goes s t) : t.Ready T := by
  obtain ⟨hAligned, hToken⟩ := ht.1 h.aligned
  exact ⟨hAligned, ht.2 h.calm, hToken ▸ h.token⟩

/-- Nothing is known about the token where the run gives up. -/
theorem Ready.anywhere (h : s.Ready T) : s.Ready fun _ => True := ⟨h.aligned, h.calm, trivial⟩

/-- A session stays ready in the same place. -/
theorem Ready.placed (h : s.Ready T) (ht : s.Placed t) (hCalm : t.scopes.Calm) : t.Ready T :=
  ⟨h.aligned.placed ht, hCalm, ht.token ▸ h.token⟩

end Session

namespace Parse

variable {α β : Type} {T : Token → Prop} {s t : Session}

/-- Reporting remains at the token, or stops the run. -/
theorem remaining_emit (d : Diagnostic) : Resolves remaining (emit d) := by
  intro s
  have hPlaced := placed_emit d s
  have hHalts := halting_of_reporting (reporting_emit d) s
  have hCalm := recording_emit (c := False) d nofun s
  cases hr : emit d s with
  | ok _ t =>
    rw [hr] at hPlaced hCalm
    obtain ⟨j, rfl, -⟩ := hCalm
    exact ⟨fun hs => ⟨hs.placed hPlaced, hPlaced.token⟩, id⟩
  | error e t =>
    rw [hr] at hPlaced hHalts
    cases e with
    | badSyntax => exact hPlaced
    | halt => exact hHalts

/-- So does reporting what the scopes found. -/
theorem remaining_flushScopes : Resolves remaining flushScopes := by
  refine .read fun s => .bind (.modify fun s => ?_) fun _ => .forM fun f _ => remaining_emit _
  refine ⟨fun hs => ⟨hs.placed ⟨rfl, rfl, rfl, rfl, rfl⟩, rfl⟩, fun _ => ?_⟩
  exact fun f hf => absurd hf List.not_mem_nil

/-- So does entering a block. -/
theorem remaining_enterBlock (opener : Token) : Resolves remaining (enterBlock opener) := by
  refine .bind (.modify fun s => ⟨fun hs => ⟨hs.placed ⟨rfl, rfl, rfl, rfl, rfl⟩, rfl⟩, id⟩)
    fun _ => .read fun s => ?_
  exact .ite _ (remaining_emit _) (.pure ())

/-- Consuming a token leads to another place of the source. -/
theorem advance_ready (hs : s.Ready T) :
    Resolved (Session.Ready fun _ => True) (fun t => t.journal.halted) (advance s) := by
  have hGains := advance_gains hs.aligned
  have hSteady := steady_passable.advance s
  have hHalts := halting_steps.advance s
  cases hr : advance s with
  | ok _ t =>
    rw [hr] at hGains hSteady
    exact ⟨hGains.1.aligned, hs.calm.evolves hSteady.scopes, trivial⟩
  | error e t =>
    rw [hr] at hGains hHalts
    cases e with
    | badSyntax => exact hGains
    | halt => exact hHalts

/-- Consuming a token tells what it submits. -/
theorem advance_goes (R : Reading) (s : Session) :
    R.Goes s ((Mild.advance.said s).map .submit) (left (advance s)) :=
      Mild.advance.goes R (fun _ => id) s

/-- The findings that are forwarded are about the meaning of the program. -/
theorem isPlain_of_calm (h : s.scopes.Calm) (d : Diagnostic)
    (hd : ∃ f ∈ s.scopes.findings, d = f.finding.diagnostic f.line f.column) : d.IsPlain := by
  obtain ⟨f, hf, rfl⟩ := hd
  exact Finding.isPlain_diagnostic (Finding.isPlain_of_isRemark (h f hf)) _ _

/-- Calm scopes have plain findings only. -/
theorem isPlain_of_flushed (h : s.scopes.Calm) : ∀ d ∈ flushed s, d.IsPlain :=
  fun d hd => isPlain_of_calm h d ((tellingFindings s.scopes.findings).forall_said _ d hd)

/-- Reporting what the scopes found tells it. -/
theorem flushScopes_goes (R : Reading) (h : s.scopes.Calm) :
    R.Goes s ((flushed s).map .submit) (left (flushScopes s)) := by
  have hCleared : s.Unmarked (flushing s) := ⟨fun _ => id, rfl⟩
  exact R.trans (R.quiet hCleared)
    ((tellingFindings s.scopes.findings).goes R (isPlain_of_calm h) (flushing s))

/-- What is done before is told before. -/
theorem thenFlushed_goes (R : Reading) {p : Parse Unit} (c : Mild p)
    (hCalm : ∀ u t, p s = .ok u t → t.scopes.Calm) :
    R.Goes s ((thenFlushed c s).map .submit) (left ((do p; flushScopes : Parse Unit) s)) ∧
      ∀ d ∈ thenFlushed c s, d.IsPlain := by
  have hFirst := c.goes R (fun _ => id) s
  have hMild := c.forall_said s
  rw [thenFlushed]
  cases hr : p s with
  | ok u t =>
    rw [hr] at hFirst
    rw [bind_of_ok hr, List.map_append]
    refine ⟨R.trans hFirst (flushScopes_goes R (hCalm u t hr)), fun d hd => ?_⟩
    exact (List.mem_append.mp hd).elim (hMild d) (isPlain_of_flushed (hCalm u t hr) d)
  | error e t =>
    rw [hr] at hFirst
    rw [bind_of_error hr, List.append_nil]
    exact ⟨hFirst, hMild⟩

section Closing

variable (line column : Nat)

/-- Leaving a function does not leave the token. -/
theorem ready_withoutFunction (hs : s.Ready T) : (withoutFunction s).Ready T :=
  hs.placed ⟨rfl, rfl, rfl, rfl, rfl⟩ (hs.calm.exit s.layers)

/-- Wherever closing a function leads, the run can go on from there. -/
theorem ready_closed (hs : s.Ready T) : (left (closeFunction line column s)).Ready T := by
  refine hs.placed (Session.Leaves.function s line column).placed ?_
  exact (ready_withoutFunction hs).calm.evolves (closeFunction_ends line column s).left.scopes

/-- Closing a function stays at the token, or stops the run. -/
theorem closeFunction_ready (hs : s.Ready T) :
    Resolved (Session.Ready T) (fun t => t.journal.halted) (closeFunction line column s) := by
  have hReady := ready_closed line column hs
  have hReports := closeFunction_reports line column s
  cases hr : closeFunction line column s with
  | ok _ t =>
    rw [hr] at hReady
    exact hReady
  | error e t =>
    rw [hr] at hReports
    cases e with
    | badSyntax => exact hReports.elim
    | halt =>
      obtain ⟨j, f, rfl, hj, -⟩ := hReports
      exact hj.trans (Bool.or_true _)

/-- What is submitted when a function is closed is about its counts and its names. -/
theorem closeFunction_goes (R : Reading) (hs : s.Ready T) :
    R.Goes (withoutFunction s) ((closed line column s).map .submit)
      (left (closeFunction line column s)) ∧ ∀ d ∈ closed line column s, d.IsPlain := by
  have hReports : Resolves remaining (reportMetrics line column s) :=
    .forM fun _ _ => remaining_emit _
  refine thenFlushed_goes R (tellingMetrics line column s) fun u t ht => ?_
  have hRemains := hReports (withoutFunction s)
  rw [ht] at hRemains
  exact ((ready_withoutFunction hs).remains hRemains).calm

end Closing

end Parse

/-! ## Reading runs -/

namespace Reading

variable {α β : Type} {T : Token → Prop} {Q : α → Token → Prop} {s t u : Session}

/-- How the deeds of a run are read. A run that stops has halted the journal. -/
def Holds (R : Reading) (Q : α → Token → Prop) (s : Session) (ds : List Deed) :
    EStateM.Result Abort Session α → Prop
  | .ok a t => t.Ready (Q a) ∧ R.Goes s ds t
  | .error .badSyntax t => t.Ready (fun _ => True) ∧ R.Drops s ds t
  | .error .halt t => t.journal.halted

variable {R : Reading} {ds es : List Deed} {p : Parse α}

/-- After other deeds. -/
theorem Holds.after {r : EStateM.Result Abort Session α} (h : R.Holds Q t es r)
    (hs : R.Goes s ds t) : R.Holds Q s (ds ++ es) r := by
  cases r with
  | ok a u => exact ⟨h.1, R.trans hs h.2⟩
  | error e u =>
    cases e with
    | badSyntax => exact ⟨h.1, R.drop hs h.2⟩
    | halt => exact h

/-- Less is known about the token than was shown. -/
theorem Holds.weaken {Q' : α → Token → Prop} {r : EStateM.Result Abort Session α}
    (h : R.Holds Q s ds r) (hQ : ∀ a t, Q a t → Q' a t) : R.Holds Q' s ds r := by
  cases r with
  | ok a t => exact ⟨⟨h.1.aligned, h.1.calm, hQ a _ h.1.token⟩, h.2⟩
  | error e t => cases e <;> exact h

/-- The deeds of the second parser come after those of the first one. -/
theorem Holds.bind {Q' : β → Token → Prop} {f : α → Parse β} {next : α → Session → List Deed}
    (h : R.Holds Q s ds (p s)) (hf : ∀ a t, t.Ready (Q a) → R.Holds Q' t (next a t) (f a t)) :
    R.Holds Q' s (ds ++ thereafter (p s) next) ((p >>= f) s) := by
  cases hr : p s with
  | ok a t =>
    rw [hr] at h
    rw [bind_of_ok hr]
    exact (hf a t h.1).after h.2
  | error e t =>
    rw [hr] at h
    rw [bind_of_error hr, thereafter, List.append_nil]
    cases e <;> exact h

/-- What would come after a run that does not succeed does not matter. -/
theorem Holds.before {Q' : β → Token → Prop} {f : α → Parse β} (h : R.Holds Q s ds (p s))
    (hNever : ∀ a t, p s ≠ .ok a t) : R.Holds Q' s ds ((p >>= f) s) := by
  cases hr : p s with
  | ok a t => exact absurd hr (hNever a t)
  | error e t =>
    rw [hr] at h
    rw [bind_of_error hr]
    cases e <;> exact h

/-- Nothing is done, and the run goes on in place. -/
theorem holds_quiet {a : α} (hs : s.Ready T) (h : remaining.Goes s t) (hQuiet : s.Unmarked t)
    (hQ : ∀ t, T t → Q a t) : R.Holds Q s [] (.ok a t) := by
  have ht := hs.remains h
  exact ⟨⟨ht.aligned, ht.calm, hQ _ ht.token⟩, R.quiet hQuiet⟩

/-- What the parser submits is read, wherever it leads. -/
theorem holds_of_resolved {p : Parse Unit}
    (h : Resolved (Session.Ready T) (fun t => t.journal.halted) (p s))
    (hGoes : R.Goes s ds (left (p s))) : R.Holds (fun _ => T) s ds (p s) := by
  cases hr : p s with
  | ok a t =>
    rw [hr] at h hGoes
    exact ⟨h, hGoes⟩
  | error e t =>
    rw [hr] at h
    cases e with
    | badSyntax => exact h.elim
    | halt => exact h

/-- A parser that remains at its token has the deeds that it tells. -/
theorem holds_of_remaining {p : Parse Unit} (hs : s.Ready T) (h : Resolves remaining p)
    (hGoes : R.Goes s ds (left (p s))) : R.Holds (fun _ => T) s ds (p s) :=
  holds_of_resolved ((h s).imp (fun _ => hs.remains) fun _ => id) hGoes

/-- Giving up submits the error. -/
theorem holds_fail {f : Finding} {u : Token} (hs : s.Ready T) (h : f.givesUp) :
    R.Holds Q s [.submit (f.diagnostic u.line u.column)] ((failAt f u : Parse α) s) := by
  have hResolved :=
    (remaining_emit (f.diagnostic u.line u.column) s).imp (fun _ => hs.remains) fun _ => id
  have hDrops := R.fail ((f.isSyntaxError_diagnostic u.line u.column).trans h) s
  show R.Holds Q s _
    ((emit (f.diagnostic u.line u.column) >>= fun _ => throw .badSyntax : Parse α) s)
  cases hr : emit (f.diagnostic u.line u.column) s with
  | ok _ t =>
    rw [hr] at hResolved hDrops
    rw [bind_of_ok hr]
    exact ⟨Session.Ready.anywhere hResolved, hDrops⟩
  | error e t =>
    rw [hr] at hResolved
    rw [bind_of_error hr]
    cases e with
    | badSyntax => exact hResolved.elim
    | halt => exact hResolved

/-- Consuming a token is the deed itself. -/
theorem holds_advance {use : TokenUse} (hs : s.Ready T)
    (h : use = .plain → s.token.decides = false) :
    R.Holds Anywhere s (consuming use s) (Parse.advance s) :=
  holds_of_resolved (advance_ready hs) (R.trans (R.consume h s) (advance_goes R s))

/-- What opens or closes something, or is forgotten, does not show. -/
theorem quiet_change {f : Session → Session} (h : Session.Quiet f) (s : Session) :
    remaining.Goes s (f s) ∧ s.Unmarked (f s) := by
  have hSame := h.rendering s
  have hStream : (f s).stream = s.stream := congrArg Session.Rendering.stream hSame
  have hLength : (f s).sourceLength = s.sourceLength :=
    congrArg Session.Rendering.sourceLength hSame
  have hJournal : (f s).journal = s.journal := congrArg Session.Rendering.journal hSame
  refine ⟨⟨fun hs => ⟨?_, h.kind s⟩, h.calm s⟩, fun _ hd => hJournal ▸ hd, ?_⟩
  · exact hs.stay (h.kind s) hLength fun l hl => ⟨l, hStream.symm ▸ hl, rfl⟩
  · rw [h.complexities s, h.depths s]

/-- Looking ahead does not show either. -/
theorem remaining_look {stream : TokenStream}
    (h : s.Aligned → Session.Aligned { s with stream }) : remaining.Goes s { s with stream } :=
  ⟨fun hs => ⟨h hs, rfl⟩, id⟩

/-- By induction on the rounds left, of which there are as many as tokens. -/
theorem holds_rounds {I Q : α → Token → Prop} {f : α → Parse (Round α)}
    {deeds : α → Session → List Deed} (h : ∀ a, RoundConsumes (f a))
    (hRound : ∀ (a : α) (s : Session), s.Ready (I a) →
    R.Holds (AfterRound I Q) s (deeds a s) (f a s)) {n : Nat}
    {a : α} (hs : s.Ready (I a)) (hn : s.budget ≤ n) :
    R.Holds Q s (roundDeeds f deeds n a s) (rounds f n a s) := by
  induction n generalizing s a with
  | zero => exact absurd hn (Nat.not_le.mpr hs.aligned.budget_pos)
  | succ n ih =>
    have hFirst := hRound a s hs
    rw [roundDeeds, rounds]
    cases hr : f a s with
    | error e t =>
      rw [hr] at hFirst
      rw [bind_of_error hr, thereafter, List.append_nil]
      cases e <;> exact hFirst
    | ok r t =>
      rw [hr] at hFirst
      rw [bind_of_ok hr, thereafter]
      cases r with
      | done b =>
        rw [List.append_nil]
        exact hFirst
      | again b =>
        -- the next round starts further on, where fewer tokens are left
        have hLess :=
          budget_lt ((h a).proceeds hs.aligned hr) ((h a).gains hs.aligned trivial hr trivial)
        exact Holds.after (ih hFirst.1 (by omega)) hFirst.2

/-- A run that does not succeed does not need what was counted before it. -/
theorem Holds.dropCounted {r : EStateM.Result Abort Session α}
    (h : R.Holds (fun _ _ => False) s.counted ds r) : R.Holds Q s ds r := by
  cases r with
  | ok a t => exact h.1.token.elim
  | error e t =>
    cases e with
    | badSyntax => exact ⟨h.1, R.dropCounted h.2⟩
    | halt => exact h

/-- A change after the run that does not show. -/
theorem Holds.ensuring {after : Session → Session} (hp : R.Holds Q s ds (p s))
    (h : Session.Quiet after) : R.Holds Q s ds (p.ensuring after s) := by
  cases hr : p s with
  | ok a t =>
    rw [hr] at hp
    rw [ensuring_of_ok hr]
    obtain ⟨hRemains, hQuiet⟩ := quiet_change h t
    have hGoes := R.trans hp.2 (R.quiet hQuiet)
    rw [List.append_nil] at hGoes
    exact ⟨hp.1.remains hRemains, hGoes⟩
  | error e t =>
    rw [hr] at hp
    rw [ensuring_of_error hr]
    cases e with
    | badSyntax =>
      obtain ⟨hRemains, hQuiet⟩ := quiet_change h t
      exact ⟨hp.1.remains hRemains, R.dropQuiet hp.2 hQuiet⟩
    | halt =>
      have hJournal :
          (after t).journal = t.journal := congrArg Session.Rendering.journal (h.rendering t)
      show (after t).journal.halted
      rw [hJournal]
      exact hp

/-- What is left of a statement that was given up on is skipped. -/
theorem holds_skipping {start : Nat} (ht : t.Ready T) (h : R.Drops s ds t)
    (hSkips : R.Holds Anywhere t es (loop skipToken (t.token.offset ≠ start) t)) :
    R.Holds Anywhere s (.beginStatement :: ds ++ .abandonStatement :: es.map Deed.skipping)
      ((do resync start; return .normal : Parse Flow) t) := by
  have hCarries := carries_resync start t ht.aligned
  have hRun : resync start t =
      (loop skipToken (t.token.offset ≠ start) >>= fun _ => Pure.pure () : Parse Unit) t := rfl
  cases hr : loop skipToken (t.token.offset ≠ start : Bool) t with
  | ok moved u =>
    rw [hr] at hSkips
    rw [bind_of_ok (hRun.trans (bind_of_ok hr))]
    exact ⟨⟨hSkips.1.aligned, hSkips.1.calm, trivial⟩, R.abandoned h hSkips.2⟩
  | error e u =>
    rw [hr] at hSkips
    rw [hRun.trans (bind_of_error hr)] at hCarries
    rw [bind_of_error (hRun.trans (bind_of_error hr))]
    cases e with
    | badSyntax => exact hCarries.elim
    | halt => exact hSkips

/-- A list goes on behind a statement, whatever became of it. -/
theorem holds_entry {p : Parse Flow} {start : Nat} {skipping : Session → List Deed}
    (h : R.Holds Anywhere s ds (p s))
    (hSkips : ∀ t : Session, t.Ready (fun _ => True) →
      R.Holds Anywhere t (skipping t) (loop skipToken (t.token.offset ≠ start) t)) :
    R.Holds Anywhere s (entryDeeds ds (p s) skipping)
      (recover p (do resync start; return .normal) s) := by
  cases hr : p s with
  | ok flow t =>
    rw [hr] at h
    rw [recover_of_ok hr]
    exact ⟨h.1, R.ended h.2⟩
  | error e t =>
    rw [hr] at h
    cases e with
    | halt =>
      rw [recover_of_halt hr]
      exact h
    | badSyntax =>
      rw [recover_of_badSyntax hr]
      exact holds_skipping h.1 h.2 (hSkips t h.1)

/-- A token is consumed, and a decision is counted. -/
theorem holds_counting {rest : Parse α} {next : Session → List Deed} (hs : s.Ready T)
    (h : ∀ u : Session, u.counted.Ready (fun _ => True) →
    R.Goes s ((Mild.advance.said s).map .submit) u →
      R.Holds Q s (consuming .plain s ++ next u) (rest u.counted)) :
    R.Holds Q s (consuming .plain s ++ thereafter (Parse.advance s) fun _ u => next u)
      ((do Parse.advance; modifyMetrics Metrics.addBranch; rest : Parse α) s) := by
  have hReady := advance_ready hs
  have hGoes := advance_goes R s
  cases hr : Parse.advance s with
  | ok _ u =>
    rw [hr] at hReady hGoes
    rw [bind_of_ok hr]
    exact h u ⟨hReady.aligned.placed ⟨rfl, rfl, rfl, rfl, rfl⟩, hReady.calm, trivial⟩ hGoes
  | error e u =>
    rw [hr] at hReady
    rw [bind_of_error hr]
    cases e with
    | badSyntax => exact hReady.elim
    | halt => exact hReady

/-- A word is expected whose decision was counted before. -/
theorem holds_decideLater {Q' : β → Token → Prop} {p : Parse Unit} {q : Parse β} {word : Keyword}
    {next : Session → List Deed} (hWord : ∀ t : Token, t.isKeyword word → t.decides)
    (hp : R.Holds Anywhere s.counted ds (p s.counted))
    (hq : ∀ t : Session, t.Ready (fun _ => True) → R.Holds Q' t (next t) (q t)) :
    R.Holds Q' s (ds ++ thereafter (p s.counted) fun _ u =>
      expecting word u ++ thereafter (Parse.expectWord word u) fun _ v => next v)
      ((do p; expectWord word; q : Parse β) s.counted) := by
  -- the body may have failed; then the word is there or not
  cases hr : p s.counted with
  | error e t =>
    rw [hr] at hp
    rw [bind_of_error hr, thereafter, List.append_nil]
    cases e with
    | badSyntax => exact ⟨hp.1, R.dropCounted hp.2⟩
    | halt => exact hp
  | ok _ u =>
    rw [hr] at hp
    rw [bind_of_ok hr, thereafter, expecting]
    cases hSees : u.token.isKeyword word with
    | true =>
      have hExpect : expectWord word u = Parse.advance u := by
        rw [expectWord_apply, if_pos hSees]
      have hTold := holds_of_resolved (advance_ready hp.1) (advance_goes R u)
      rw [← hExpect] at hTold
      have hAll :=
        (hTold.bind (f := fun _ => q) fun _ v hv => hq v hv).after
          (R.decideLater (hWord _ hSees) hp.2)
      rwa [List.append_assoc] at hAll
    | false =>
      have hExpect :
          expectWord word u = failAt (.expectedToken word.spelling u.token.describe) u.token u := by
        rw [expectWord_apply, if_neg (by rw [hSees]; exact Bool.false_ne_true)]
        rfl
      have hFails := holds_fail (R := R) (Q := fun (_ : Unit) _ => False) (u := u.token) hp.1
        (f := .expectedToken word.spelling u.token.describe) rfl
      rw [← hExpect] at hFails
      have hAll :
          R.Holds (fun _ _ => False) u (_ ++ thereafter (expectWord word u) fun _ v => next v)
          ((do expectWord word; q : Parse β) u) := hFails.bind fun _ _ hv => hv.token.elim
      exact (hAll.after hp.2).dropCounted

/-- A token is consumed by its role, and more is done behind it. -/
theorem holds_behind {rest : Parse α} {next : Session → List Deed} (hs : s.Ready T)
    (hPlain : s.token.decides = false)
    (h : ∀ t : Session, t.Ready (fun _ => True) → R.Holds Q t (next t) (rest t)) :
    R.Holds Q s (consuming .plain s ++ thereafter (Parse.advance s) fun _ t => next t)
      ((do Parse.advance; rest : Parse α) s) := by
  have hConsumed : R.Holds (fun _ _ => True) s (consuming .plain s) (Parse.advance s) :=
    holds_advance hs fun _ => hPlain
  exact hConsumed.bind fun _ t ht => h t ht

/-- A block is left whatever became of what is inside. -/
theorem holds_block {opener : Token} {inside : Session → List Deed} (hs : s.Ready T)
    (hOpener : opener.isPunctuator .leftBrace)
    (hp : ∀ t : Session, t.Ready (fun _ => True) → R.Holds Q t (inside t) (p t)) :
    R.Holds Q s (blockDeeds opener s (thereafter (enterBlock opener s) fun _ t => inside t))
      (withBlock opener p s) := by
  have hEnter := (remaining_enterBlock opener s).imp (fun _ => hs.remains) fun _ => id
  -- the block may stop the run where it is entered
  cases hr : enterBlock opener s with
  | error e t =>
    rw [hr] at hEnter
    rw [withBlock, bind_of_error hr]
    cases e with
    | badSyntax => exact hEnter.elim
    | halt => exact hEnter
  | ok _ t =>
    rw [hr] at hEnter
    rw [withBlock, bind_of_ok hr, thereafter]
    have hInside := hp t (Session.Ready.anywhere hEnter)
    have hLeft : left (enterBlock opener s) = t := by rw [hr]; rfl
    have hLeave {T : Token → Prop} {u : Session} (hu : u.Ready T) : u.leaveBlock.Ready T :=
      hu.placed ⟨rfl, rfl, rfl, rfl, rfl⟩ hu.calm
    cases hq : p t with
    | ok a u =>
      rw [hq] at hInside
      rw [ensuring_of_ok hq]
      exact ⟨hLeave hInside.1, R.block hOpener (hLeft ▸ hInside.2)⟩
    | error e u =>
      rw [hq] at hInside
      rw [ensuring_of_error hq]
      cases e with
      | badSyntax => exact ⟨hLeave hInside.1, R.dropBlock hOpener (hLeft ▸ hInside.2)⟩
      | halt => exact hInside

/-- A function is closed whatever became of it. -/
theorem holds_function {kind : FunctionKind} {name : Option String} {line column : Nat}
    (hp : R.Holds Anywhere (withFunction s kind name line column) ds
    (p (withFunction s kind name line column))) : R.Holds Anywhere s (.openFunction :: ds ++
      .closeFunction ::
        (closed line column (left (p (withFunction s kind name line column)))).map .submit)
      (insideFunction kind name line column p s) := by
  -- the function is closed whether its parts succeeded or not
  cases hr : p (withFunction s kind name line column) with
  | ok a t =>
    rw [hr] at hp
    rw [insideFunction_of_ok hr]
    have hReady := closeFunction_ready line column hp.1
    have hGoes := R.function hp.2 (closeFunction_goes line column R hp.1).1
    cases hc : closeFunction line column t with
    | ok _ u =>
      rw [hc] at hReady hGoes
      rw [bind_of_ok hc]
      exact ⟨hReady, hGoes⟩
    | error e u =>
      rw [hc] at hReady
      rw [bind_of_error hc]
      cases e with
      | badSyntax => exact hReady.elim
      | halt => exact hReady
  | error e t =>
    rw [hr] at hp
    rw [insideFunction_of_error hr]
    cases e with
    | badSyntax =>
      obtain ⟨hGoes, hMild⟩ := closeFunction_goes line column R hp.1
      exact ⟨ready_closed line column hp.1, R.dropFunction hp.2 hGoes hMild⟩
    | halt =>
      obtain ⟨_, _, _, hLeft, -, hSame⟩ := closeFunction_left line column t
      show (left (closeFunction line column t)).journal.halted
      rw [hLeft]
      exact hSame hp ▸ hp

end Reading

open Reading in
/-- By induction on the composition: from a session that is ready, the deeds of every run are read
as described. -/
theorem Grammar.Composition.holds {α : Type} {T : Token → Prop} {p p' : Parse α}
    {Q : α → Token → Prop}
    (R : Reading) (c : Composition .same T p p' Q) {s : Session} (hs : s.Ready T) :
    R.Holds Q s (c.deeds s) (p s) := by
  -- one case for each way of composition, each by the lemma about that way
  induction c generalizing s with
  | weaken hT c hQ ih => exact (ih ⟨hs.aligned, hs.calm, hT _ hs.token⟩).weaken hQ
  | pure a h => exact holds_quiet hs (remaining.refl s) ⟨fun _ => id, rfl⟩ h
  | bind c d ihc ihd => exact (ihc hs).bind fun a t ht => ihd a ht
  | @assoc _ _ _ _ _ p _ f _ g _ c ih =>
    have hSame := congrFun (bind_assoc p f g) s
    rw [hSame]
    exact ih hs
  | read c ih =>
    exact ih s s.rendering (Likeness.similar_same s) ⟨hs.aligned, hs.calm, rfl, hs.token⟩
  | @ite _ _ _ _ _ _ _ c _ hp hq ihp ihq =>
    show R.Holds _ s (if h : c then (hp h).deeds s else (hq h).deeds s) _
    split
    · exact ihp ‹_› hs
    · exact ihq ‹_› hs
  | peek n g h =>
    refine holds_quiet hs (remaining_look fun hAligned => ?_) ⟨fun _ => id, rfl⟩ fun _ => id
    exact (holding_peek n s hAligned).1
  | startsArrow =>
    refine holds_quiet hs (remaining_look fun hAligned => ?_) ⟨fun _ => id, rfl⟩ fun _ => id
    exact (holding_startsArrow s hAligned).1
  | allowRegex =>
    refine holds_quiet hs (remaining_look fun hAligned => ?_) ⟨fun _ => id, rfl⟩ fun _ => id
    exact (holding_allowRegex s hAligned).1
  | change f h =>
    obtain ⟨hRemains, hQuiet⟩ := quiet_change h s
    exact holds_quiet hs hRemains hQuiet fun _ => id
  | @warn _ f _ line column hCode hPhase h =>
    exact holds_of_remaining hs (remaining_emit _)
      (R.submit (Finding.isPlain_diagnostic h line column) s)
  | reject problem line column =>
    exact holds_of_remaining hs (remaining_emit _) (R.submit (problem.isPlain line column) s)
  | fail hCode hPhase h hPlace => exact holds_fail hs h
  | failBefore c ih => exact (ih hs).before fun _ _ => failAt_ne_ok _ _
  | flush => exact holds_of_remaining hs remaining_flushScopes (flushScopes_goes R hs.calm)
  | tooDeep => exact Journal.halted_halt _ _
  | advance use h => exact holds_advance hs fun hUse => h hUse _ hs.token
  | decide h c ih =>
    refine holds_counting hs fun u hu hTold => ?_
    exact (ih hu).after (R.decide (h _ hs.token) hTold)
  | decideLater word h hWord c d ihc ihd =>
    refine holds_counting hs fun u hu hTold => ?_
    have hConsumed : R.Goes s (consuming .plain s) u :=
      R.trans (R.consume (fun _ => h _ hs.token) s) hTold
    exact (holds_decideLater hWord (ihc hu) fun v hv => ihd hv).after hConsumed
  | insideBlock opener w h c d ihc ihd =>
    obtain ⟨hOpener, hBrace⟩ := h _ hs.token
    refine holds_behind hs (Token.decides_of_isPunctuator hBrace) fun t ht => ?_
    exact (holds_block ht (hOpener ▸ hBrace) fun u hu => ihc hu).bind fun a u hu => ihd a hu
  | entry h c d ihc ihd => exact holds_entry (ihc hs) fun t ht => ihd _ ht
  | @loop _ I Q f b h c ih => exact holds_rounds h (fun a s hs => ih a hs) hs (Nat.le_refl _)
  | recursive h c ih =>
    rw [← h s hs.aligned s.budget (Nat.le_refl _)]
    exact ih s.budget hs
  | ensuring after h c ih => exact (ih hs).ensuring h
  | insideFunction kind name line column c ih =>
    refine holds_function (ih ?_)
    exact ⟨hs.aligned.placed ⟨rfl, rfl, rfl, rfl, rfl⟩, hs.calm, hs.token⟩

end ScriptLint
