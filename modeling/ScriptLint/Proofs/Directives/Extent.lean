import ScriptLint.Proofs.Directives.Acceptances
import ScriptLint.Proofs.Lexer.Stream
import ScriptLint.Proofs.Unwinding

/-!
# How far directives reach

A directive inside the body of a function is forgotten with the overlay of the function. A directive
in global code stays in force in global code. Which of the two a directive is does not depend on
where its comment stands but on whether the overlay of a function is open when the parser passes it.

- `functionHead`, `functionInside`: the parts of a function before and after its overlay opens.
- `directives_confined`: closing a function brings back the settings from before its overlay opened.
- `Directive.Sets`: the values that a directive sets.
- `directives_govern`: what is set in global code is in force in global code until it is set again.
-/

namespace ScriptLint

open Setting

/-! ## Functions -/

namespace Grammar

open Parse

/-- What stands between the parameters of a function and its body, which is an arrow or nothing.
Returns whether the body has braces. -/
def bodyStart (kind : FunctionKind) : Parse Bool := do
  if kind = .arrow then expect .arrow
  let braced ← sees .leftBrace
  if kind = .arrow || braced then return braced else failExpected "\x7b"

/-- What stands before the body of a function. -/
def functionHead (inner : Nested) (kind : FunctionKind) (name : Option String) (line column : Nat) :
    Parse Bool := do
  match kind, name with
  | .named, some name => declare name .functionName line column
  | _, _ => pure ()
  let count ← parameters inner kind
  modifyMetrics (·.setParameters count)
  bodyStart kind

/-- The body of a function, up to its closing brace if it has braces. -/
def functionInside (inner : Nested) (kind : FunctionKind) (braced : Bool) : Parse Bool := do
  if braced then
    advance
    withNoIn false (functionBody inner kind)
  else discard (withNoIn false inner.assignment)
  return braced

/-- Behind an unexpected token nothing is run. -/
theorem failExpected_bind {α β : Type} (expected : String) (f : α → Parse β) :
    (failExpected expected >>= f) = failExpected expected := by
  have hFail (finding : Finding) (t : Token) : (failAt finding t >>= f) = failAt finding t := by
    show ((warn finding t >>= fun _ => throw .badSyntax) >>= f) = _
    rw [bind_assoc]
    rfl
  funext s
  exact congrFun (hFail (.expectedToken expected s.token.describe) s.token) s

/-- Without the arrow, which may or may not come before. -/
theorem functionTail_rest (inner : Nested) (kind : FunctionKind) :
    (do
      let braced ← sees .leftBrace
      if decide (kind = .arrow) && !braced then
        openOverlay
        discard (withNoIn false inner.assignment)
        return false
      else
        bracedBody inner kind
        return true : Parse Bool) = (do
      let braced ← (do
        let braced ← sees .leftBrace
        if kind = .arrow || braced then return braced else failExpected "\x7b")
      openOverlay
      functionInside inner kind braced) := by
  funext s
  have hSees : sees .leftBrace s = .ok (s.token.isPunctuator .leftBrace) s := rfl
  rw [bind_of_ok hSees, bind_assoc, bind_of_ok hSees]
  cases hBrace : s.token.isPunctuator .leftBrace with
  | true =>
    rw [hBrace] at hSees
    rw [Bool.not_true, Bool.and_false, Bool.or_true]
    show (bracedBody inner kind >>= fun _ => pure true) s = _
    unfold bracedBody
    rw [bind_assoc, bind_of_ok hSees]
    show ((openOverlay >>= fun _ => advance >>= fun _ => _) >>= fun _ => pure true) s = _
    simp only [bind_assoc]
    rfl
  | false =>
    rw [hBrace] at hSees
    by_cases hArrow : kind = .arrow
    · rw [decide_eq_true hArrow]
      rfl
    · rw [decide_eq_false hArrow]
      show (bracedBody inner kind >>= fun _ => pure true) s = (failExpected "\x7b" >>= _) s
      unfold bracedBody
      rw [bind_assoc, bind_of_ok hSees, failExpected_bind]
      show (failExpected "\x7b" >>= fun _ => pure true) s = _
      rw [failExpected_bind]

/-- The overlay is opened between what stands before the body and the body. -/
theorem functionTail_eq (inner : Nested) (kind : FunctionKind) : functionTail inner kind = (do
    let braced ← bodyStart kind
    openOverlay
    functionInside inner kind braced) := by
  unfold functionTail bodyStart
  split
  · rw [bind_assoc]
    exact congrArg (expect .arrow >>= ·) (funext fun _ => functionTail_rest inner kind)
  · exact functionTail_rest inner kind

/-- A function is its head, the overlay opened for it and the inside. -/
theorem functionParts_eq (inner : Nested) (kind : FunctionKind) (name : Option String)
    (line column : Nat) : functionParts inner kind name line column = (do
      let braced ← functionHead inner kind name line column
      openOverlay
      functionInside inner kind braced) := by
  unfold functionParts functionHead
  rw [functionTail_eq]
  cases kind <;> cases name <;> simp only [bind_assoc]

theorem posting_functionInside (n : Nat) (kind : FunctionKind) (braced : Bool) :
    posting.Keeps (functionInside (levels n) kind braced) := by
  have hLevels := accepted_levels n
  refine posting_of_accepting ?_
  cases braced with
  | true =>
    refine accepting.bind accepting_steps.advance fun _ => ?_
    refine accepting.bind ?_ fun _ => accepting.pure true
    exact accepted.withNoIn false (hLevels.functionBody kind)
  | false =>
    refine accepting.bind (accepting.discard ?_) fun _ => accepting.pure false
    exact accepted.withNoIn false hLevels.assignment

/-- Whatever became of the body of a function, the settings after it was closed are those from
before its overlay was opened. -/
theorem directives_confined (n : Nat) (kind : FunctionKind) (name : Option String)
    (line column : Nat) : (functionParts (levels n) kind name line column = do
      let braced ← functionHead (levels n) kind name line column
      openOverlay
      functionInside (levels n) kind braced) ∧
    ∀ (before : Session) (braced : Bool),
      let ended := left ((do openOverlay; functionInside (levels n) kind braced) before)
      ended.context.overlayOpen ∧
      ∀ setting : Setting,
        (withoutFunction ended).layers.resolve setting = before.layers.resolve setting ∧
        (left (closeFunction line column ended)).layers.resolve setting =
          before.layers.resolve setting := by
  refine ⟨functionParts_eq _ _ _ _ _, fun before braced => ?_⟩
  intro ended
  obtain ⟨ps, hPosts, hBack⟩ : posting.Goes (withOverlay before) ended :=
    Settles.left (posting_functionInside n kind braced (withOverlay before))
  obtain ⟨hLayers, hOpen⟩ := hPosts.settles (Nat.le_refl _) hBack
  have hEnded : ended.context.overlayOpen = true := hOpen
  have hClosed : (withoutFunction ended).layers = before.layers := by
    obtain ⟨overlay, hCovered⟩ := (Layers.Covered.refl before.layers).push.carryOut _ ps
    rw [withoutFunction, hEnded, hLayers]
    exact hCovered.pop.eq
  obtain ⟨halts, journal, findings, hLeft, -⟩ := closeFunction_left line column ended
  have hReported : (left (closeFunction line column ended)).layers = before.layers := by
    rw [hLeft]
    exact hClosed
  refine ⟨hEnded, fun setting => ?_⟩
  rw [hClosed, hReported]
  exact ⟨rfl, rfl⟩

end Grammar

/-! ## Global code -/

/-- The directive sets the value: it is valid, and no later item sets the same again. -/
def Directive.Sets (d : Directive) (setting : Setting) (value : Value) : Prop :=
  setting.validate value = .ok () ∧ ∃ earlier later,
    d.entries = earlier ++ .setOption setting value :: later ∧
      ∀ v, .setOption setting v ∈ later → setting.validate v ≠ .ok ()

/-- The settings after one item of a directive. -/
def Setting.Layers.apply (atGlobal : Bool) (layers : Layers) : Directive.Entry → Layers
  | .setOption setting value => (layers.set setting value atGlobal).toOption.getD layers
  | _ => layers

/-- An item that does not set the setting, or not to a valid value, leaves what holds. -/
theorem Setting.Layers.Holds.apply {layers : Layers} {setting : Setting} {value : Value}
    {atGlobal : Bool}
    {entry : Directive.Entry} (h : layers.Holds setting value)
    (hValid : setting.validate value = .ok ())
    (hOther : ∀ v, entry = .setOption setting v → setting.validate v ≠ .ok ()) :
    (layers.apply atGlobal entry).Holds setting value := by
  cases entry with
  | setOption setting' value' =>
    show ((layers.set setting' value' atGlobal).toOption.getD layers).Holds setting value
    cases hSet : layers.set setting' value' atGlobal with
    | error problem => exact h
    | ok changed =>
      obtain rfl := eq_put_of_set hSet
      refine h.put_other hValid (fun hSame => ?_) value'
      subst hSame
      refine hOther value' rfl ?_
      cases hChecked : setting.validate value' with
      | ok _ => rfl
      | error problem =>
        rw [Layers.set, hChecked] at hSet
        cases hSet
  | _ => exact h

/-- By induction on the items that follow: what a directive sets holds after it. -/
theorem Directive.Sets.holds {d : Directive} {setting : Setting} {value : Value}
    (h : d.Sets setting value) (hThis : setting ≠ .validthis) (atGlobal : Bool) (layers : Layers) :
    (d.entries.foldl (Layers.apply atGlobal) layers).Holds setting value := by
  obtain ⟨hValid, earlier, later, hEntries, hLater⟩ := h
  have hRest {layers : Layers} (hHolds : layers.Holds setting value) :
      (later.foldl (Layers.apply atGlobal) layers).Holds setting value := by
    clear hEntries
    induction later generalizing layers with
    | nil => exact hHolds
    | cons entry later ih =>
      refine ih (fun v hv => hLater v (List.mem_cons_of_mem _ hv))
        (hHolds.apply hValid fun v hv => ?_)
      exact hLater v (hv ▸ List.mem_cons_self ..)
  rw [hEntries, List.foldl_append, List.foldl_cons]
  refine hRest ?_
  show Layers.Holds (Option.getD (Except.toOption _) _) setting value
  rw [Layers.set_of_valid hValid hThis]
  exact .put _ _ _

namespace Parse

/-- The contract to leave the settings as they are. -/
def unsetting : Contract where
  Goes s t := t.layers = s.layers
  Stops s t := t.layers = s.layers
  refl _ := rfl
  trans h h' := h'.trans h
  stop h h' := h'.trans h

theorem unsetting_emit (d : Diagnostic) : unsetting.Keeps (emit d) := by
  have hSame (s t : Session) : s.Records False t → unsetting.Goes s t := by
    rintro ⟨j, rfl, -⟩
    rfl
  exact (recording_emit d False.elim).imp hSame hSame

/-- What sets nothing leaves the layers as they are. -/
theorem layers_of_unsetting {α : Type} {p : Parse α} {s t : Session} {a : α} (h : unsetting.Keeps p)
    (ht : p s = .ok a t) : t.layers = s.layers := by
  have hKept := h s
  rw [ht] at hKept
  exact hKept

/-- One case for each item of a directive. -/
theorem applyEntry_layers {entry : Directive.Entry} {atGlobal : Bool} {line column : Nat}
    {s t : Session} (h : applyEntry entry atGlobal line column s = .ok () t) :
    t.layers = s.layers.apply atGlobal entry := by
  cases entry with
  | setOption setting value =>
    show t.layers = (s.layers.set setting value atGlobal).toOption.getD s.layers
    cases hSet : s.layers.set setting value atGlobal with
    | error problem =>
      rw [applyEntry_of_error hSet] at h
      exact layers_of_unsetting (unsetting_emit _) h
    | ok layers =>
      rw [applyEntry_of_ok hSet] at h
      have hNames : unsetting.Keeps (predefine setting value) := by
        refine unsetting.ite _ ?_ (unsetting.pure ())
        split
        · exact unsetting.modify fun _ => rfl
        · exact unsetting.pure ()
      exact layers_of_unsetting (s := { s with layers }) hNames h
  | ignore marker =>
    cases marker <;>
    · cases h
      rfl
  | _ =>
    cases h
    rfl

/-- By induction on the items. -/
theorem forM_applyEntry_layers {entries : List Directive.Entry} {atGlobal : Bool}
    {line column : Nat}
    {s t : Session}
    (h : (entries.forM fun entry => applyEntry entry atGlobal line column) s = .ok () t) :
    t.layers = entries.foldl (Layers.apply atGlobal) s.layers := by
  induction entries generalizing s with
  | nil =>
    cases h
    rfl
  | cons entry entries ih =>
    change (applyEntry entry atGlobal line column >>= fun _ => entries.forM _) s = .ok () t at h
    cases hEntry : applyEntry entry atGlobal line column s with
    | error e u =>
      rw [bind_of_error hEntry] at h
      cases h
    | ok _ u =>
      rw [bind_of_ok hEntry] at h
      rw [List.foldl_cons, ← applyEntry_layers hEntry]
      exact ih h

/-- A noted directive applies its entries to the layers, one after the other. -/
theorem note_layers {comment : Token} {d : Directive} {s t : Session}
    (hKind : comment.kind = .directive d) (h : note (.ok comment) s = .ok () t) :
    ∃ atGlobal, t.layers = d.entries.foldl (Layers.apply atGlobal) s.layers := by
  unfold note at h
  dsimp only at h
  rw [hKind] at h
  change (reportProblems d.problems comment.line comment.column >>= fun _ => _) s = .ok () t at h
  cases hProblems : reportProblems d.problems comment.line comment.column s with
  | error e u =>
    rw [bind_of_error hProblems] at h
    cases h
  | ok _ u =>
    -- problems of the directive are reported, which sets nothing
    rw [bind_of_ok hProblems] at h
    have hReported : u.layers = s.layers :=
      layers_of_unsetting (unsetting.forM fun _ _ => unsetting_emit _) hProblems
    rw [← hReported]
    exact ⟨u.inGlobalCode, forM_applyEntry_layers h⟩

end Parse

open Parse

/-- Every run is made of changes such that, wherever no function is open, the settings are those of
its options and of what was set while no overlay of a function was open. So what a directive sets
where no function is open is in force wherever none is open, until it is set again there. -/
theorem directives_govern (source : String) (options : Options)
    (globals : Option Predefined.Globals) :
    let start := Session.start source options globals
    (∃ ps, start.Posts 1 ps (left (run (Layers.ofOptions options).2 start))) ∧
    (∀ ps s, start.Posts 1 ps s → s.contexts.depth = 1 → s.layers = start.layers.carryOut 1 ps) ∧
    ∀ earlier before comment d after later s,
      start.Posts 1 earlier before → before.contexts.depth = 1 →
      comment.kind = .directive d → note (.ok comment) before = .ok () after →
      after.Posts 1 later s → s.contexts.depth = 1 →
      ∀ setting value, d.Sets setting value → setting ≠ .validthis →
        (∀ p ∈ later, p.depth = 1 → p.setting ≠ setting) → s.layers.resolve setting = value := by
  intro start
  have hStart : start.layers.depth = 1 := Session.start_overlays source options globals
  have hGlobal {ps : List Posting} {s : Session} (h : start.Posts 1 ps s)
    (hs : s.contexts.depth = 1) :
      s.layers = start.layers.carryOut 1 ps := by
    have hLayers := (h.settles (Nat.le_refl _) hs).1
    rw [hStart] at hLayers
    exact hLayers
  refine ⟨?_, fun ps s => hGlobal, ?_⟩
  · obtain ⟨ps, hPosts, -⟩ := Settles.left (posting_run (Layers.ofOptions options).2 start)
    exact ⟨ps, hPosts⟩
  · intro earlier before comment d after later s hEarlier hBefore hKind hNote hLater hs
      setting value hSets hThis hOthers
    -- the directive is noted in global code, so its entries go to the layers of the start
    have hPassed := posting_steps.note (.ok comment) before
    rw [hNote] at hPassed
    obtain ⟨ps, hPosts, hBack⟩ := hPassed
    have hAfter : after.contexts.depth = 1 := hBack.trans hBefore
    have hHolds : after.layers.Holds setting value := by
      obtain ⟨atGlobal, hNoted⟩ := note_layers hKind hNote
      rw [hNoted]
      exact hSets.holds hThis _ _
    have hDepth : after.layers.depth = 1 := by
      rw [hBefore] at hPosts
      rw [hGlobal (hEarlier.trans hPosts) hAfter, Layers.depth_carryOut, hStart]
    -- from there on no posting in global code names the setting
    have hLayers := (hLater.settles (Nat.le_of_eq hAfter) (hs.trans hAfter.symm)).1
    rw [hDepth] at hLayers
    rw [hLayers]
    exact (hHolds.carryOut hSets.1 hOthers).resolve

/-- A comment at the start of a source: what it sets is in force after it. -/
theorem directives_govern_comment :
    let source := "/*jshint plusplus:true*/ x++;"
    ∃ comment after, (Lexer.ofSource source).next.1 = .ok comment ∧
      note (.ok comment) (.start source {} none) = .ok () after ∧
      after.layers.resolve .plusplus = .flag true := by
  intro source
  let directive : Directive := ⟨.options, [.setOption .plusplus (.flag true)], []⟩
  have hLexed : Lexer.directive? (Lexer.ofSource source).next.1 = some directive := by
    decide +kernel
  obtain ⟨comment, hNext, hKind⟩ :
      ∃ t : Token, (Lexer.ofSource source).next.1 = .ok t ∧ t.kind = .directive directive := by
    unfold Lexer.directive? at hLexed
    split at hLexed
    · next t hNext =>
      refine ⟨t, hNext, ?_⟩
      split at hLexed
      · next d hKind => rw [hKind, Option.some.inj hLexed]
      · cases hLexed
    · cases hLexed
  have hSets : directive.Sets .plusplus (.flag true) :=
    ⟨rfl, [], [], rfl, fun _ hNone => by cases hNone⟩
  obtain ⟨after, hNote, hContexts⟩ : ∃ after : Session,
      note (.ok comment) (.start source {} none) = .ok () after ∧ after.contexts.depth = 1 := by
    unfold note
    dsimp only
    rw [hKind]
    exact ⟨_, rfl, rfl⟩
  refine ⟨comment, after, hNext, hNote, ?_⟩
  obtain ⟨-, -, hGoverns⟩ := directives_govern source {} none
  exact hGoverns [] _ comment _ after [] after .refl rfl hKind hNote .refl hContexts _ _ hSets
    (by decide) fun _ hNone => by cases hNone

end ScriptLint
