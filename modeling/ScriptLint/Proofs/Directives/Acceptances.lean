import ScriptLint.Proofs.Directives.Postings

/-!
# Which values are accepted where

A directive is refused `validthis` where only the context of global code is open. What it is allowed
to set is written into the innermost overlay, which is that of the innermost function only once its
body is reached. So the moment at which a value is accepted matters besides the value.

- `Session.Acceptance`: a value that a directive set, with the session in which it was accepted.
- `Session.Accepts`: the changes of `Session.Posts` with the values accepted on the way.
- `accepting`, `accepted`: all runs of the grammar are sequences of such changes.
- `validthis_accepted_in_heads`: what `validthis` is in global code.
-/

namespace ScriptLint

open Setting

namespace Session

open Grammar

/-- A value that a directive sets in the session. -/
structure Acceptance where
  session : Session
  setting : Setting
  value : Value

/-- The value with the number of overlays that were open. -/
def Acceptance.posting (a : Acceptance) : Posting := ⟨a.session.layers.depth, a.setting, a.value⟩

/-- The values are accepted on the way from one session to the other, each at the place of its
directive. The floor is that of `Posts`. -/
inductive Accepts (floor : Nat) (s : Session) : List Acceptance → Session → Prop
  | refl : Accepts floor s [] s
  | quiet {ps : List Acceptance} {t u : Session} (h : Accepts floor s ps t)
    (hSame : t.SameOverlays u) : Accepts floor s ps u
  | sets {ps : List Acceptance} {t : Session} {setting : Setting} {value : Value} {layers : Layers}
    (h : Accepts floor s ps t) (hSet : t.layers.set setting value t.inGlobalCode = .ok layers) :
    Accepts floor s (ps ++ [⟨t, setting, value⟩]) { t with layers }
  | enters {ps : List Acceptance} {t : Session} (h : Accepts floor s ps t) (kind : FunctionKind)
    (name : Option String) (line column : Nat) :
    Accepts floor s ps (withFunction t kind name line column)
  | opens {ps : List Acceptance} {t : Session} (h : Accepts floor s ps t)
    (hFloor : floor < t.contexts.depth)
    (hClosed : t.context.overlayOpen = false) : Accepts floor s ps (withOverlay t)
  | leaves {ps : List Acceptance} {t : Session} (h : Accepts floor s ps t)
    (hFloor : floor < t.contexts.depth) : Accepts floor s ps (withoutFunction t)

namespace Accepts

variable {floor floor' : Nat} {s t u : Session} {ps qs : List Acceptance}

/-- Acceptances of one stretch are followed by those of the next. -/
theorem trans (h : s.Accepts floor ps t) (h' : t.Accepts floor qs u) :
    s.Accepts floor (ps ++ qs) u := by
  induction h' with
  | refl =>
    rw [List.append_nil]
    exact h
  | quiet _ hSame ih => exact ih.quiet hSame
  | sets _ hSet ih =>
    rw [← List.append_assoc]
    exact ih.sets hSet
  | enters _ kind name line column ih => exact ih.enters kind name line column
  | opens _ hFloor hClosed ih => exact ih.opens hFloor hClosed
  | leaves _ hFloor ih => exact ih.leaves hFloor

/-- A lower floor asks less of the way. -/
theorem mono (h : s.Accepts floor ps t) (hLess : floor' ≤ floor) : s.Accepts floor' ps t := by
  induction h with
  | refl => exact .refl
  | quiet _ hSame ih => exact ih.quiet hSame
  | sets _ hSet ih => exact ih.sets hSet
  | enters _ kind name line column ih => exact ih.enters kind name line column
  | opens _ hFloor hClosed ih => exact ih.opens (Nat.lt_of_le_of_lt hLess hFloor) hClosed
  | leaves _ hFloor ih => exact ih.leaves (Nat.lt_of_le_of_lt hLess hFloor)

/-- Without the sessions in which the values were accepted. -/
theorem posts (h : s.Accepts floor ps t) : s.Posts floor (ps.map (·.posting)) t := by
  induction h with
  | refl => exact .refl
  | quiet _ hSame ih => exact ih.quiet hSame
  | sets _ hSet ih =>
    rw [List.map_append]
    exact ih.sets hSet
  | enters _ kind name line column ih => exact ih.enters kind name line column
  | opens _ hFloor hClosed ih => exact ih.opens hFloor hClosed
  | leaves _ hFloor ih => exact ih.leaves hFloor

/-- Each value was accepted on the way, by what was allowed there. -/
theorem mem {a : Acceptance} (h : s.Accepts floor ps t) (ha : a ∈ ps) :
    ∃ earlier layers, s.Accepts floor earlier a.session ∧
      a.session.layers.set a.setting a.value a.session.inGlobalCode = .ok layers := by
  induction h with
  | refl => cases ha
  | sets h hSet ih =>
    rcases List.mem_append.mp ha with hEarlier | hLast
    · exact ih hEarlier
    · obtain rfl := List.mem_singleton.mp hLast
      exact ⟨_, _, h, hSet⟩
  | quiet _ _ ih => exact ih ha
  | enters _ _ _ _ _ ih => exact ih ha
  | opens _ _ _ ih => exact ih ha
  | leaves _ _ ih => exact ih ha

end Accepts

end Session

/-! ## Runs -/

/-- The contract to do nothing to the settings but what directives and functions do, and to come
back to the contexts of the start. -/
def accepting : Contract where
  Goes s t := ∃ ps, s.Accepts s.contexts.depth ps t ∧ t.contexts.depth = s.contexts.depth
  Stops s t := ∃ ps, s.Accepts s.contexts.depth ps t ∧ t.contexts.depth = s.contexts.depth
  refl _ := ⟨[], .refl, rfl⟩
  trans := by
    rintro s t u ⟨ps, h, hBack⟩ ⟨qs, h', hBack'⟩
    rw [hBack] at h' hBack'
    exact ⟨ps ++ qs, h.trans h', hBack'⟩
  stop := by
    rintro s t u ⟨ps, h, hBack⟩ ⟨qs, h', hBack'⟩
    rw [hBack] at h' hBack'
    exact ⟨ps ++ qs, h.trans h', hBack'⟩

/-- What leaves overlays and contexts alone accepts nothing. -/
theorem accepting_of_same {s t : Session} (h : s.SameOverlays t) : accepting.Goes s t :=
  ⟨[], .quiet .refl h, h.depth⟩

namespace Parse

variable {α : Type} {p : Parse α}

/-- A change of other parts of the session accepts nothing. -/
theorem accepting_modify {f : Session → Session} (h : ∀ s : Session, s.SameOverlays (f s)) :
    accepting.Keeps (modify f) :=
  accepting.modify fun s => accepting_of_same (h s)

theorem accepting_emit (d : Diagnostic) : accepting.Keeps (emit d) := by
  have hSame (s t : Session) : s.Records False t → accepting.Goes s t := by
    rintro ⟨j, rfl, -⟩
    exact accepting_of_same (.of_eq rfl)
  exact (recording_emit d False.elim).imp hSame hSame

theorem accepting_flushScopes : accepting.Keeps flushScopes := by
  refine accepting.read fun s => accepting.bind (accepting_modify fun _ => .of_eq rfl) fun _ => ?_
  exact accepting.forM fun f _ => accepting_emit _

end Parse

theorem accepting_steps : accepting.Steppable where
  emit _ := Parse.accepting_emit _
  moved := by
    rintro s t ⟨_, _, _, _, _, _, _, rfl⟩
    exact accepting_of_same (.of_eq rfl)
  layers h := ⟨_, .sets .refl h, rfl⟩
  scopes _ := accepting_of_same (.of_eq rfl)
  ignores _ := accepting_of_same (.of_eq rfl)
  flushScopes := Parse.accepting_flushScopes
  count _ := Parse.accepting_modify fun _ => .of_eq rfl
  setHint _ := Parse.accepting_modify fun _ => .of_eq rfl
  makeStrict := Parse.accepting_modify fun _ => ⟨rfl, rfl, rfl⟩

namespace Grammar

open Parse

variable {α β : Type} {p : Parse α}

/-- Something else is changed before a parser and after it. -/
theorem accepting_around {before after : Session → Session}
    (hBefore : ∀ s : Session, s.SameOverlays (before s))
    (hAfter : ∀ s : Session, s.SameOverlays (after s)) (h : accepting.Keeps p) :
    accepting.Keeps (do modify before; p.ensuring after) := by
  have hAround (s t : Session) (ht : accepting.Goes (before s) t) : accepting.Goes s (after t) :=
    accepting.trans (accepting.trans (accepting_of_same (hBefore s)) ht)
      (accepting_of_same (hAfter t))
  exact Ends.around h hAround hAround

/-- What is done behind a parser in any outcome may not touch the overlays. -/
theorem accepting_ensuring {after : Session → Session}
    (hAfter : ∀ s : Session, s.SameOverlays (after s))
    (h : accepting.Keeps p) : accepting.Keeps (p.ensuring after) := by
  intro s
  have hThen (t : Session) (ht : accepting.Goes s t) : accepting.Goes s (after t) :=
    accepting.trans ht (accepting_of_same (hAfter t))
  exact (h s).ensuring hThen hThen

theorem accepting_withFrame (kind : Scope.FrameKind) (h : accepting.Keeps p) :
    accepting.Keeps (Grammar.withFrame kind p) :=
  accepting_around (fun _ => .of_eq rfl) (fun _ => .of_eq rfl) h

theorem accepting_insideBlock (opener : Token) (h : accepting.Keeps p) :
    accepting.Keeps (Grammar.insideBlock opener p) := by
  refine accepting.bind (fun s => ?_) fun _ =>
    accepting_ensuring (fun _ => .of_eq rfl) (accepting_withFrame _ h)
  obtain ⟨j, -, hEnter | hEnter⟩ := enterBlock_run opener s
  · rw [hEnter]
    exact accepting_of_same (.of_eq rfl)
  · rw [hEnter]
    exact accepting_of_same (.of_eq rfl)

theorem accepting_tooDeep : accepting.Keeps (tooDeep : Parse α) :=
  fun _ => accepting_of_same (.of_eq rfl)

theorem accepting_deeper (h : accepting.Keeps p) : accepting.Keeps p.deeper := by
  refine accepting.read fun _ => accepting.ite _ ?_ accepting_tooDeep
  exact accepting_around (fun _ => .of_eq rfl) (fun _ => .of_eq rfl) h

/-! ## Functions -/

/-- What the parts of a function may do: open its overlay, which is still closed. -/
def AcceptsParts (s t : Session) : Prop :=
  s.context.overlayOpen = false →
    ∃ ps, s.Accepts (s.contexts.depth - 1) ps t ∧ t.contexts.depth = s.contexts.depth

theorem AcceptsParts.of_goes {s t : Session} : accepting.Goes s t → AcceptsParts s t := by
  rintro ⟨ps, h, hBack⟩ -
  exact ⟨ps, h.mono (Nat.sub_le _ _), hBack⟩

theorem AcceptsParts.after {s t u : Session} :
    accepting.Goes s t → AcceptsParts t u → AcceptsParts s u := by
  rintro ⟨ps, h, hBack⟩ h' hClosed
  obtain ⟨-, hSame⟩ := h.posts.settles (Nat.le_refl _) hBack
  obtain ⟨qs, hRest, hBack'⟩ := h' (hSame.trans hClosed)
  rw [hBack] at hRest hBack'
  exact ⟨ps ++ qs, (h.mono (Nat.sub_le _ _)).trans hRest, hBack'⟩

theorem AcceptsParts.trans {s t u : Session} (h : AcceptsParts s t) :
    accepting.Goes t u → AcceptsParts s u := by
  rintro ⟨qs, h', hBack'⟩ hClosed
  obtain ⟨ps, hFirst, hBack⟩ := h hClosed
  rw [hBack] at h' hBack'
  exact ⟨ps ++ qs, hFirst.trans (h'.mono (Nat.sub_le _ _)), hBack'⟩

/-- Behind an opened overlay a function's parts go on as they began. -/
theorem acceptsParts_openOverlay {f : Unit → Parse α} (hf : ∀ u, accepting.Keeps (f u)) :
    (Grammar.openOverlay >>= f).Ends AcceptsParts AcceptsParts := by
  intro s
  have hOpened (t : Session) : accepting.Goes (withOverlay s) t → AcceptsParts s t := by
    rintro ⟨ps, h, hBack⟩ hClosed
    have hOpens : s.Accepts (s.contexts.depth - 1) [] (withOverlay s) := by
      refine .opens .refl ?_ hClosed
      exact Nat.sub_lt (Nat.succ_pos _) Nat.one_pos
    exact ⟨ps, hOpens.trans (h.mono (Nat.sub_le _ _)), hBack⟩
  exact (hf () (withOverlay s)).imp hOpened hOpened

/-- Reporting on a function that was closed sets nothing. -/
theorem accepting_closeFunction (line column : Nat) : (closeFunction line column).Ends
    (fun t u => accepting.Goes (withoutFunction t) u) fun t u =>
    accepting.Goes (withoutFunction t) u := by
  intro t
  have hReports : accepting.Keeps (do
      (metricFindings t.layers t.metrics.current).forM fun f => warnAt f line column
      Parse.flushScopes) :=
    accepting.bind (accepting.forM fun _ _ => accepting_emit _) fun _ => accepting_flushScopes
  exact hReports (withoutFunction t)

/-- A function accepts what its parts accept and is closed again in any outcome. -/
theorem accepting_insideFunction (kind : FunctionKind) (name : Option String) (line column : Nat)
    (h : p.Ends AcceptsParts AcceptsParts) :
    accepting.Keeps (Grammar.insideFunction kind name line column p) := by
  intro s
  -- closing leads back to the depth of the start, whatever the parts accepted on the way
  have hClose (t : Session) (ht : AcceptsParts (withFunction s kind name line column) t) :
      Settles (accepting.Goes s) (accepting.Goes s) (closeFunction line column t) := by
    obtain ⟨ps, hParts, hInside⟩ := ht rfl
    have hLess : s.contexts.depth < t.contexts.depth := by
      rw [hInside]
      exact Nat.lt_succ_self _
    have hLeft : s.Accepts s.contexts.depth ps (withoutFunction t) :=
      ((Session.Accepts.enters .refl kind name line column).trans hParts).leaves hLess
    have hBack : (withoutFunction t).contexts.depth = s.contexts.depth :=
      Stack.depth_pop_of_depth hInside
    have hClosed (u : Session) (hu : accepting.Goes (withoutFunction t) u) : accepting.Goes s u :=
      accepting.trans ⟨ps, hLeft, hBack⟩ hu
    exact (accepting_closeFunction line column t).imp hClosed hClosed
  exact (h (withFunction s kind name line column)).insideFunction hClose hClose fun _ => id

/-! ## The grammar -/

/-- Setting nothing but by directives is respected by the grammar. -/
def accepted : Congruence where
  hides _ := False
  Rel p _ := accepting.Keeps p
  Parts p _ := p.Ends AcceptsParts AcceptsParts
  pure := accepting.pure
  bind := accepting.bind
  read h := accepting.read fun s => h s s (.refl _ s)
  warnAt _ line column h := accepting_steps.warnAt line column (Finding.isOrdinary_of_isLocal h)
  governs_ne := governs_ne_of_false
  quiet _ _ := False.elim
  loud _ _ := False.elim
  step := accepting_steps.step
  prologueRound := accepting.prologueRound (accepting_steps.peek 0)
  loop h := accepting.loop accepting.refl h
  recursive h := accepting.recursive accepting.refl fun p => h p p
  recover := accepting.recover
  clearingHint := accepting_ensuring fun _ => .of_eq rfl
  withNoIn _ h :=
    accepting.read fun _ => accepting_around (fun _ => .of_eq rfl) (fun _ => .of_eq rfl) h
  withFrame := accepting_withFrame
  insideBlock := accepting_insideBlock
  insideLoop := accepting_around (fun _ => ⟨rfl, rfl, rfl⟩) (fun _ => ⟨rfl, rfl, rfl⟩)
  parts h := h.imp (fun _ _ => .of_goes) fun _ _ => .of_goes
  bindParts hp hf := Ends.bind hp hf (fun _ _ => .of_goes) (fun _ _ => .of_goes)
    (fun _ _ _ => .after) fun _ _ _ => .after
  partsBind hp hf := Ends.bind hp hf (fun _ _ => id) (fun _ _ => id)
    (fun _ _ _ h => h.trans) fun _ _ _ h => h.trans
  openOverlay := acceptsParts_openOverlay
  insideFunction := accepting_insideFunction

/-- By induction on the levels. -/
theorem accepted_levels (n : Nat) : accepted.Nested (levels n) (levels n) := by
  induction n with
  | zero =>
    exact ⟨accepting_tooDeep, fun _ => accepting_tooDeep,
      fun _ => accepting_tooDeep, accepting_tooDeep⟩
  | succ n ih =>
    have hForms := ih.forms
    exact {
      statement := accepting_deeper hForms.statement
      expression power := accepting_deeper (hForms.expression power)
      binding kind := accepting_deeper (hForms.binding kind)
      construction := accepting_deeper hForms.construction }

end Grammar

namespace Parse

open Grammar

theorem accepting_program (problems : List Setting.Problem) :
    accepting.Keeps (program problems) := by
  refine accepting.bind (accepting_steps.reportProblems problems 0 0) fun _ => ?_
  refine accepting.bind accepting_steps.advance fun _ => ?_
  refine accepting.bind (Congruence.Nested.prologue (K := accepted)) fun _ => ?_
  exact accepting.discard ((accepted_levels maxNesting).statementList .program)

theorem accepting_finish : accepting.Keeps finish := by
  refine accepting.readAt fun s => ?_
  have hLines : accepting.Keeps (do
      checkLinesBefore (s.checkedLines + s.uncheckedLines.length + 1)
      flushScopes) :=
    accepting.bind (accepting_steps.checkLinesBefore _) fun _ => accepting_flushScopes
  refine accepting.setAt (accepting_of_same (.of_eq rfl))
    (accepting.bind ?_ fun _ => accepting.pure _)
  exact accepting.discard (accepting.outcome hLines)

theorem accepting_run (problems : List Setting.Problem) : accepting.Keeps (run problems) :=
  accepting.bind (accepting.discard (accepting.outcome (accepting_program problems))) fun _ =>
    accepting_finish

end Parse

/-! ## Postings -/

theorem posting_goes_of_accepting (s t : Session) : accepting.Goes s t → posting.Goes s t := by
  rintro ⟨ps, h, hBack⟩
  exact ⟨_, h.posts, hBack⟩

/-- Acceptances forgotten, only the settings that were set remain. -/
theorem posting_of_accepting {α : Type} {p : Parse α} (h : accepting.Keeps p) : posting.Keeps p :=
  h.imp posting_goes_of_accepting posting_goes_of_accepting

theorem posting_steps : posting.Steppable :=
  accepting_steps.imp posting_goes_of_accepting posting_goes_of_accepting

theorem Parse.posting_run (problems : List Setting.Problem) : posting.Keeps (Parse.run problems) :=
  posting_of_accepting (accepting_run problems)

/-! ## `validthis` -/

namespace Session

variable {source : String} {options : Options} {globals : Option Predefined.Globals} {s : Session}
  {ps : List Acceptance}

/-- While only the overlay of global code is open, no function has opened its own. -/
theorem Accepts.flags_of_depth (h : (Session.start source options globals).Accepts 1 ps s)
    (hDepth : s.layers.depth = 1) : true ∉ s.flags := by
  obtain ⟨entered, opened, hFlags, hCount, hCovered⟩ := h.posts.upon (Nat.le_refl _)
  have hOverlays := hCovered.depth
  rw [hDepth, Layers.depth_carryOut, start_overlays] at hOverlays
  have hNone : entered.count true = 0 := by omega
  have hStart : true ∉ (start source options globals).flags := (by decide : true ∉ [false])
  rw [hFlags, List.mem_append, not_or]
  exact ⟨List.count_eq_zero.mp hNone, hStart⟩

theorem one_lt_depth_of_not_inGlobalCode (h : s.inGlobalCode = false) : 1 < s.contexts.depth := by
  refine Nat.succ_lt_succ (List.length_pos_iff.mpr fun hNil => ?_)
  rw [inGlobalCode, Stack.isBottom, hNil] at h
  cases h

end Session

/-- Wherever `validthis` is accepted, a function is open. -/
theorem Setting.Layers.atGlobal_of_set {layers changed : Layers} {value : Value} {atGlobal : Bool}
    (h : layers.set .validthis value atGlobal = .ok changed) : atGlobal = false := by
  cases atGlobal with
  | false => rfl
  | true =>
    rw [set] at h
    split at h
    · cases h
    · cases h

open Parse in
/-- A run that starts without `validthis` accepts it only inside functions. Where that happens in
the head of an outermost function, before the overlay of the function is open, the value is written
into the overlay of global code and stays there. So `validthis` is on in global code exactly if the
last value that was accepted like that is on. -/
theorem validthis_accepted_in_heads (source : String) (options : Options)
    (globals : Option Predefined.Globals)
    (hBase : ∀ value, ("validthis", value) ∈ options.entries → value.isOn = false) :
    let start := Session.start source options globals
    (∃ ps, start.Accepts 1 ps (left (run (Layers.ofOptions options).2 start))) ∧
    (∀ ps s, start.Accepts 1 ps s → ∀ (α : Type) (p : Parse α), Grammar.Step p →
      ∃ qs, start.Accepts 1 (ps ++ qs) (left (p s))) ∧
    ∀ ps s, start.Accepts 1 ps s → s.contexts.depth = 1 →
      let written := ps.filter fun a => a.session.layers.depth = 1 ∧ a.setting = .validthis
      (∀ a ∈ written, 1 < a.session.contexts.depth ∧ true ∉ a.session.flags) ∧
        s.layers.enabled .validthis = written.getLast?.any (·.value.isOn) := by
  intro start
  -- the run as a whole, then one more step behind any acceptances
  refine ⟨?_, fun ps s h α p hStep => ?_, fun ps s h hs => ?_⟩
  · obtain ⟨ps, hAccepts, -⟩ := Settles.left (accepting_run (Layers.ofOptions options).2 start)
    exact ⟨ps, hAccepts⟩
  · obtain ⟨qs, hAccepts, -⟩ := Settles.left (accepting_steps.step hStep s)
    exact ⟨qs, h.trans (hAccepts.mono (Nat.succ_pos _))⟩
  intro written
  -- what is written in the base layer was noted inside a function whose overlay is closed
  constructor
  · intro a ha
    obtain ⟨hMem, hWritten⟩ := List.mem_filter.mp ha
    obtain ⟨hDepth, hThis⟩ := of_decide_eq_true hWritten
    obtain ⟨earlier, layers, hEarlier, hSet⟩ := h.mem hMem
    rw [hThis] at hSet
    exact ⟨Session.one_lt_depth_of_not_inGlobalCode (Layers.atGlobal_of_set hSet),
      hEarlier.flags_of_depth hDepth⟩
  -- the base layer answers by the last setting written there
  · have hStart : (start.layers.resolve .validthis).isOn = false := by
      rw [Bool.eq_false_iff]
      intro hOn
      obtain ⟨value, hMem, hValue⟩ := Layers.mem_of_enabled_ofOptions (by decide) hOn
      rw [hBase value hMem] at hValue
      cases hValue
    have hLayers := (h.posts.settles (Nat.le_refl _) hs).1
    rw [Session.start_overlays] at hLayers
    rw [Layers.enabled, hLayers, Layers.resolve_carryOut (by decide), List.filter_map,
      List.getLast?_map]
    show Value.isOn (Option.getD (Option.map _ (Option.map _ written.getLast?)) _) = _
    cases written.getLast? with
    | none => exact hStart
    | some a => rfl

open Parse in
/-- A comment between the parentheses of a function. -/
theorem validthis_accepted_in_heads_parameters :
    let start := Session.start "function f(/*jshint validthis:true*/ a) {}" {} none
    ∃ ps s a, start.Accepts 1 ps s ∧ s.contexts.depth = 1 ∧ s.layers.enabled .validthis ∧
      a ∈ ps ∧ a.setting = .validthis ∧ a.value.isOn ∧ 1 < a.session.contexts.depth ∧
        true ∉ a.session.flags := by
  intro start
  obtain ⟨⟨ps, hAccepts⟩, -, hGlobal⟩ :=
    validthis_accepted_in_heads "function f(/*jshint validthis:true*/ a) {}" {} none
      fun _ hNone => by cases hNone
  have hRun :
      (left (run [] start)).contexts.depth = 1 ∧
      (left (run [] start)).layers.enabled .validthis := by
    decide +kernel
  obtain ⟨hHeads, hOn⟩ := hGlobal ps _ hAccepts hRun.1
  obtain ⟨a, hLast, hValue⟩ := (Option.any_eq_true _ _).mp (hOn.symm.trans hRun.2)
  have hWritten := List.mem_of_getLast? hLast
  obtain ⟨hMem, hThis⟩ := List.mem_filter.mp hWritten
  obtain ⟨hInside, hClosed⟩ := hHeads a hWritten
  exact ⟨ps, _, a, hAccepts, hRun.1, hRun.2, hMem, (of_decide_eq_true hThis).2, hValue,
    hInside, hClosed⟩

end ScriptLint
