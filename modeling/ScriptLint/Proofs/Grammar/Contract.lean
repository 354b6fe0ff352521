import ScriptLint.Proofs.Grammar.Statements

/-!
# Contracts

A contract says what a run of a parser may do to the session. A run that goes on, whether it
succeeded or gave up on its statement, is held to more than a run that stops.

- `Parse.Ends`: all runs of a parser end as described.
- `Contract`: a description that is closed under doing nothing and under doing one thing after
  another, so that it can be kept by whole parsers.
- `Parse.Resolves`: the contract is kept, and the parser never gives up on its statement.
-/

namespace ScriptLint

namespace Parse

variable {α β : Type} {p : Parse α} {s t : Session} {a : α} {e : Abort}

/-! ## Runs -/

/-- A run goes on from its result. -/
theorem bind_of_ok {f : α → Parse β} (h : p s = .ok a t) : (p >>= f) s = f a t := by
  show EStateM.bind p f s = _
  rw [EStateM.bind, h]

/-- A run that gave up does not go on. -/
theorem bind_of_error {f : α → Parse β} (h : p s = .error e t) : (p >>= f) s = .error e t := by
  show EStateM.bind p f s = _
  rw [EStateM.bind, h]

/-- Of two parsers in a row that succeed, both do. -/
theorem exists_of_bind {f : α → Parse β} {u : Session} {b : β} (h : (p >>= f) s = .ok b u) :
    ∃ a t, p s = .ok a t ∧ f a t = .ok b u := by
  cases hr : p s with
  | ok a t =>
    rw [bind_of_ok hr] at h
    exact ⟨a, t, rfl, h⟩
  | error e t =>
    rw [bind_of_error hr] at h
    cases h

/-- Giving up is no success. -/
theorem failAt_ne_ok {a : α} (f : Finding) (u : Token) : (failAt f u : Parse α) s ≠ .ok a t := by
  intro h
  obtain ⟨_, _, -, hThrow⟩ := exists_of_bind h
  cases hThrow

/-- What is ensured is done behind a result. -/
theorem ensuring_of_ok {after : Session → Session} (h : p s = .ok a t) :
    p.ensuring after s = .ok a (after t) := by
  rw [ensuring, h]

/-- What is ensured is done behind an error. -/
theorem ensuring_of_error {after : Session → Session} (h : p s = .error e t) :
    p.ensuring after s = .error e (after t) := by
  rw [ensuring, h]

/-- A result was there before the rest was done. -/
theorem exists_of_ensuring {after : Session → Session} (h : p.ensuring after s = .ok a t) :
    ∃ m, p s = .ok a m ∧ t = after m := by
  cases hr : p s with
  | ok b m =>
    rw [ensuring_of_ok hr] at h
    obtain ⟨rfl, rfl⟩ := EStateM.Result.ok.inj h
    exact ⟨m, rfl, rfl⟩
  | error e m =>
    rw [ensuring_of_error hr] at h
    cases h

/-- Nothing is recovered from behind a result. -/
theorem recover_of_ok {q : Parse α} (h : p s = .ok a t) : p.recover q s = .ok a t := by
  rw [recover, h]

/-- An error of syntax is recovered from. -/
theorem recover_of_badSyntax {q : Parse α} (h : p s = .error .badSyntax t) :
    p.recover q s = q t := by
  rw [recover, h]

/-- A stop is not. -/
theorem recover_of_halt {q : Parse α} (h : p s = .error .halt t) :
    p.recover q s = .error .halt t := by
  rw [recover, h]

theorem outcome_of_ok (h : p s = .ok a t) : p.outcome s = .ok (.ok a) t := by
  rw [outcome, h]

theorem outcome_of_error (h : p s = .error e t) : p.outcome s = .ok (.error e) t := by
  rw [outcome, h]

/-- The session with which a run ends. -/
def left : EStateM.Result Abort Session α → Session
  | .ok _ t => t
  | .error _ t => t

/-- If the parts of a function succeed, the outcome is that of closing it. -/
theorem insideFunction_of_ok {kind : Grammar.FunctionKind} {name : Option String}
    {line column : Nat} (h : p (Grammar.withFunction s kind name line column) = .ok a t) :
    Grammar.insideFunction kind name line column p s =
      (do Grammar.closeFunction line column; return a : Parse α) t := by
  show (outcome p >>= _) (Grammar.withFunction s kind name line column) = _
  rw [bind_of_ok (outcome_of_ok h)]
  cases hc : Grammar.closeFunction line column t with
  | ok u v =>
    rw [bind_of_ok (outcome_of_ok hc), bind_of_ok hc]
    rfl
  | error e v =>
    rw [bind_of_ok (outcome_of_error hc), bind_of_error hc]
    rfl

/-- If the parts of a function fail, it is closed and the failure stands. -/
theorem insideFunction_of_error {kind : Grammar.FunctionKind} {name : Option String}
    {line column : Nat} (h : p (Grammar.withFunction s kind name line column) = .error e t) :
    Grammar.insideFunction kind name line column p s =
      .error e (left (Grammar.closeFunction line column t)) := by
  show (outcome p >>= _) (Grammar.withFunction s kind name line column) = _
  rw [bind_of_ok (outcome_of_error h)]
  cases hc : Grammar.closeFunction line column t with
  | ok u v =>
    rw [bind_of_ok (outcome_of_ok hc)]
    rfl
  | error e v =>
    rw [bind_of_ok (outcome_of_error hc)]
    rfl

/-! ## How runs end -/

/-- The session with which a result leaves the run: `goes` holds of it, or `stops` if the run
stops. -/
def Settles (goes stops : Session → Prop) : EStateM.Result Abort Session α → Prop
  | .ok _ t => goes t
  | .error .badSyntax t => goes t
  | .error .halt t => stops t

/-- How a run ends may be stated more weakly. -/
theorem Settles.imp {goes stops goes' stops' : Session → Prop} {r : EStateM.Result Abort Session α}
    (h : Settles goes stops r) (hg : ∀ t, goes t → goes' t) (hs : ∀ t, stops t → stops' t) :
    Settles goes' stops' r := by
  cases r with
  | ok a t => exact hg t h
  | error e t =>
    cases e with
    | badSyntax => exact hg t h
    | halt => exact hs t h

/-- What is ensured is done however the run ends. -/
theorem Settles.ensuring {goes stops goes' stops' : Session → Prop} {after : Session → Session}
    (h : Settles goes stops (p s)) (hg : ∀ t, goes t → goes' (after t))
    (hs : ∀ t, stops t → stops' (after t)) : Settles goes' stops' (p.ensuring after s) := by
  cases hr : p s with
  | ok a t =>
    rw [hr] at h
    rw [ensuring_of_ok hr]
    exact hg t h
  | error e t =>
    rw [hr] at h
    rw [ensuring_of_error hr]
    cases e with
    | badSyntax => exact hg t h
    | halt => exact hs t h

/-- Where both ways of ending agree, the session left is such a one. -/
theorem Settles.left {goes : Session → Prop} {r : EStateM.Result Abort Session α}
    (h : Settles goes goes r) : goes (left r) := by
  cases r with
  | ok a t => exact h
  | error e t => cases e <;> exact h

/-- A run that is gone on from. -/
theorem Settles.bind {goes stops goes' stops' : Session → Prop} {f : α → Parse β}
    (h : Settles goes stops (p s)) (hf : ∀ a t, goes t → Settles goes' stops' (f a t))
    (hg : ∀ t, goes t → goes' t) (hs : ∀ t, stops t → stops' t) :
    Settles goes' stops' ((p >>= f) s) := by
  cases hr : p s with
  | ok a t =>
    rw [hr] at h
    rw [bind_of_ok hr]
    exact hf a t h
  | error e t =>
    rw [hr] at h
    rw [bind_of_error hr]
    cases e with
    | badSyntax => exact hg t h
    | halt => exact hs t h

/-- Closing a function gives `goes'` of what its parts left as `goes` says. -/
theorem Settles.insideFunction {goes stops goes' stops' : Session → Prop}
    {kind : Grammar.FunctionKind} {name : Option String} {line column : Nat}
    (h : Settles goes stops (p (Grammar.withFunction s kind name line column)))
    (hg : ∀ t, goes t → Settles goes' goes' (Grammar.closeFunction line column t))
    (hs : ∀ t, stops t → Settles stops' stops' (Grammar.closeFunction line column t))
    (hw : ∀ t, goes' t → stops' t) :
    Settles goes' stops' (Grammar.insideFunction kind name line column p s) := by
  cases hp : p (Grammar.withFunction s kind name line column) with
  | ok a t =>
    rw [hp] at h
    rw [insideFunction_of_ok hp]
    exact Settles.bind (hg t h) (fun _ _ ht => ht) (fun _ => id) hw
  | error e t =>
    rw [hp] at h
    rw [insideFunction_of_error hp]
    cases e with
    | badSyntax => exact (hg t h).left
    | halt => exact (hs t h).left

variable {goes stops goes' stops' : Session → Session → Prop}

/-- Every run that goes on changes the session as `goes` says, every run that stops as `stops`
says. -/
def Ends (p : Parse α) (goes stops : Session → Session → Prop) : Prop :=
  ∀ s, Settles (goes s) (stops s) (p s)

namespace Ends

variable {p q : Parse α}

/-- What a parser may do may be stated more weakly. -/
theorem imp (h : p.Ends goes stops) (hg : ∀ s t, goes s t → goes' s t)
    (hs : ∀ s t, stops s t → stops' s t) : p.Ends goes' stops' :=
  fun s => (h s).imp (hg s) (hs s)

/-- Doing one thing after another, where the two are described differently. -/
theorem bind {goes₁ stops₁ goes₂ stops₂ : Session → Session → Prop} {f : α → Parse β}
    (hp : p.Ends goes₁ stops₁) (hf : ∀ a, (f a).Ends goes₂ stops₂)
    (hGives : ∀ s t, goes₁ s t → goes s t) (hStops : ∀ s t, stops₁ s t → stops s t)
    (hTrans : ∀ s t u, goes₁ s t → goes₂ t u → goes s u)
    (hStop : ∀ s t u, goes₁ s t → stops₂ t u → stops s u) : (p >>= f).Ends goes stops := by
  intro s
  refine (hp s).bind (fun a t ht => ?_) (hGives s) (hStops s)
  exact (hf a t).imp (fun u => hTrans s t u ht) fun u => hStop s t u ht

/-- Something is changed before a parser and something after it. -/
theorem around {before after : Session → Session} (h : p.Ends goes stops)
    (hg : ∀ s t, goes (before s) t → goes' s (after t))
    (hs : ∀ s t, stops (before s) t → stops' s (after t)) :
    (do modify before; p.ensuring after : Parse α).Ends goes' stops' :=
  fun s => (h (before s)).ensuring (hg s) (hs s)

end Ends

end Parse

/-- What runs may do to the session. -/
structure Contract where
  Goes : Session → Session → Prop
  Stops : Session → Session → Prop
  refl (s : Session) : Goes s s
  trans {s t u : Session} : Goes s t → Goes t u → Goes s u
  stop {s t u : Session} : Goes s t → Stops t u → Stops s u

namespace Contract

open Parse

variable (C : Contract) {α β : Type} {p q : Parse α}

/-- All runs of the parser keep to the contract. -/
def Keeps (p : Parse α) : Prop := p.Ends C.Goes C.Stops

theorem pure (a : α) : C.Keeps (pure a) := C.refl

theorem giveUp : C.Keeps (throw .badSyntax : Parse α) := C.refl

/-- One parser after the other. -/
theorem bind {f : α → Parse β} (hp : C.Keeps p) (hf : ∀ a, C.Keeps (f a)) : C.Keeps (p >>= f) :=
  Ends.bind hp hf (fun _ _ => id) (fun _ _ => id) (fun _ _ _ => C.trans) fun _ _ _ => C.stop

/-- Discarding the value changes nothing. -/
theorem discard (hp : C.Keeps p) : C.Keeps (discard p) := by
  rw [discard_eq_bind]
  exact C.bind hp fun _ => C.pure ()

/-- What is done may depend on the session. -/
theorem read {f : Session → Parse α} (h : ∀ s, C.Keeps (f s)) : C.Keeps (get >>= f) :=
  fun s => h s s

/-- A change of the session that the contract allows. -/
theorem modify {f : Session → Session} (h : ∀ s, C.Goes s (f s)) : C.Keeps (modify f) := h

/-- The session that was read is still the current one. -/
theorem readAt {f : Session → Parse α} (h : ∀ s, Settles (C.Goes s) (C.Stops s) (f s s)) :
    C.Keeps (get >>= f) := h

/-- A session is put in the place of the current one. -/
theorem setAt {s t : Session} (ht : C.Goes s t) (h : C.Keeps p) :
    Settles (C.Goes s) (C.Stops s) ((do set t; p : Parse α) s) :=
  (h t).imp (fun _ => C.trans ht) fun _ => C.stop ht

/-- Either branch keeps the contract. -/
theorem ite (c : Prop) [Decidable c] (hp : C.Keeps p) (hq : C.Keeps q) :
    C.Keeps (if c then p else q) := by
  split
  · exact hp
  · exact hq

/-- Only one of the branches does something before both go on in the same way. -/
theorem when (c : Prop) [Decidable c] {p : Parse Unit} {f : Unit → Parse α} (hp : C.Keeps p)
    (hf : ∀ u, C.Keeps (f u)) : C.Keeps (if c then p >>= f else f ()) :=
  C.ite c (C.bind hp hf) (hf ())

/-- Every round over a list keeps the contract. -/
theorem forM {l : List β} {f : β → Parse PUnit} (h : ∀ b ∈ l, C.Keeps (f b)) :
    C.Keeps (l.forM f) := by
  induction l with
  | nil => exact C.pure _
  | cons b rest ih =>
    refine C.bind (h b (List.mem_cons_self ..)) fun _ => ih fun c hc => ?_
    exact h c (List.mem_cons_of_mem _ hc)

/-- What recovers keeps the contract if both parts do. -/
theorem recover (hp : C.Keeps p) (hq : C.Keeps q) : C.Keeps (p.recover q) := by
  intro s
  have hs := hp s
  cases hr : p s with
  | ok a t =>
    rw [hr] at hs
    rw [recover_of_ok hr]
    exact hs
  | error e t =>
    rw [hr] at hs
    -- only an error of syntax is recovered from
    cases e with
    | halt =>
      rw [recover_of_halt hr]
      exact hs
    | badSyntax =>
      rw [recover_of_badSyntax hr]
      exact (hq t).imp (fun _ => C.trans hs) fun _ => C.stop hs

/-- By induction on the number of rounds: a step of the loop keeps the contract. -/
theorem rounds {f : α → Parse (Round α)} (halts : ∀ s, C.Stops s s)
    (h : ∀ a, C.Keeps (f a)) (n : Nat) (a : α) : C.Keeps (rounds f n a) := by
  induction n generalizing a with
  | zero => exact halts
  | succ n ih =>
    refine C.bind (h a) fun r => ?_
    cases r with
    | again a => exact ih a
    | done a => exact C.pure a

/-- A loop keeps the contract if its body does and running out of rounds may stop. -/
theorem loop {f : α → Parse (Round α)} (halts : ∀ s, C.Stops s s) (h : ∀ a, C.Keeps (f a)) (a : α) :
    C.Keeps (loop f a) :=
  C.read fun s => C.rounds halts h s.budget a

/-- One statement of a prologue peeks at the token after it. -/
theorem prologueRound (hPeek : C.Keeps (peek 0)) (h : ∀ t, C.Keeps (Grammar.prologueStatement t)) :
    C.Keeps (Grammar.prologueRound ()) := by
  refine C.read fun s => C.ite _ (C.pure _) ?_
  refine C.bind hPeek fun _ => C.ite _ (C.pure _) ?_
  exact C.bind (h _) fun _ => C.pure _

/-- A recursion keeps the contract if every level does. -/
theorem recursive {f : Parse α → Parse α} (halts : ∀ s, C.Stops s s)
    (h : ∀ p, C.Keeps p → C.Keeps (f p)) : C.Keeps (recursive f) := by
  refine C.read fun s => ?_
  induction s.budget with
  | zero => exact halts
  | succ n ih => exact h _ ih

/-- A parser that ends alike in any outcome goes on from its outcome. -/
theorem outcome (h : p.Ends C.Goes C.Goes) : C.Keeps (outcome p) := by
  intro s
  have hs := h s
  cases hr : p s with
  | ok a t =>
    rw [hr] at hs
    rw [outcome_of_ok hr]
    exact hs
  | error e t =>
    rw [hr] at hs
    rw [outcome_of_error hr]
    cases e <;> exact hs

end Contract

/-! ## Parsers that go on or stop -/

namespace Parse

variable {α β : Type} {goes stops : Session → Prop}

/-- The session with which a result leaves the run, which does not give up on the statement. -/
def Resolved (goes stops : Session → Prop) : EStateM.Result Abort Session α → Prop
  | .ok _ t => goes t
  | .error .badSyntax _ => False
  | .error .halt t => stops t

/-- What goes on or stops settles, since it never gives up. -/
theorem Resolved.settles {r : EStateM.Result Abort Session α} (h : Resolved goes stops r) :
    Settles goes stops r := by
  cases r with
  | ok a t => exact h
  | error e t =>
    cases e with
    | badSyntax => exact h.elim
    | halt => exact h

/-- A stopped run leaves a session such as the contract has it. -/
theorem Resolved.stopped {p : Parse α} {s t : Session} (h : Resolved goes stops (p s))
    (ht : p s = .error .halt t) : stops t := by
  rw [ht] at h
  exact h

/-- How a run ends may be stated more weakly. -/
theorem Resolved.imp {goes' stops' : Session → Prop} {r : EStateM.Result Abort Session α}
    (h : Resolved goes stops r) (hg : ∀ t, goes t → goes' t) (hs : ∀ t, stops t → stops' t) :
    Resolved goes' stops' r := by
  cases r with
  | ok a t => exact hg t h
  | error e t =>
    cases e with
    | badSyntax => exact h
    | halt => exact hs t h

/-- Two statements about one run. -/
theorem Resolved.and {goes' stops' : Session → Prop} {r : EStateM.Result Abort Session α}
    (h : Resolved goes stops r) (h' : Resolved goes' stops' r) :
    Resolved (fun t => goes t ∧ goes' t) (fun t => stops t ∧ stops' t) r := by
  cases r with
  | ok a t => exact ⟨h, h'⟩
  | error e t =>
    cases e with
    | badSyntax => exact h
    | halt => exact ⟨h, h'⟩

/-- A run that is gone on from. -/
theorem Resolved.bind {goes' stops' : Session → Prop} {p : Parse α} {f : α → Parse β} {s : Session}
    (h : Resolved goes stops (p s)) (hf : ∀ a t, goes t → Resolved goes' stops' (f a t))
    (hs : ∀ t, stops t → stops' t) : Resolved goes' stops' ((p >>= f) s) := by
  cases hr : p s with
  | ok a t =>
    rw [hr] at h
    rw [bind_of_ok hr]
    exact hf a t h
  | error e t =>
    rw [hr] at h
    rw [bind_of_error hr]
    cases e with
    | badSyntax => exact h
    | halt => exact hs t h

variable {C : Contract} {p q : Parse α}

/-- All runs of the parser keep to the contract, and none gives up on the statement. -/
def Resolves (C : Contract) (p : Parse α) : Prop := ∀ s, Resolved (C.Goes s) (C.Stops s) (p s)

/-- A parser that never gives up keeps the contract. -/
theorem Resolves.keeps (h : Resolves C p) : C.Keeps p := fun s => (h s).settles

namespace Resolves

theorem pure (a : α) : Resolves C (pure a) := C.refl

/-- One parser after the other, none of which gives up. -/
theorem bind {f : α → Parse β} (hp : Resolves C p) (hf : ∀ a, Resolves C (f a)) :
    Resolves C (p >>= f) :=
  fun s =>
    (hp s).bind (fun a t ht => (hf a t).imp (fun _ => C.trans ht) fun _ => C.stop ht) fun _ => id

theorem read {f : Session → Parse α} (h : ∀ s, Resolves C (f s)) : Resolves C (get >>= f) :=
  fun s => h s s

theorem readAt {f : Session → Parse α} (h : ∀ s, Resolved (C.Goes s) (C.Stops s) (f s s)) :
    Resolves C (get >>= f) := h

theorem setAt {s t : Session} (ht : C.Goes s t) (h : Resolves C p) :
    Resolved (C.Goes s) (C.Stops s) ((do set t; p : Parse α) s) :=
  (h t).imp (fun _ => C.trans ht) fun _ => C.stop ht

theorem modify {f : Session → Session} (h : ∀ s, C.Goes s (f s)) : Resolves C (modify f) := h

theorem ite (c : Prop) [Decidable c] (hp : Resolves C p) (hq : Resolves C q) :
    Resolves C (if c then p else q) := by
  split
  · exact hp
  · exact hq

/-- Only one of the branches does something before both go on in the same way. -/
theorem when (c : Prop) [Decidable c] {p : Parse Unit} {q : Parse α} (hp : Resolves C p)
    (hq : Resolves C q) : Resolves C (if c then p >>= fun _ => q else q) :=
  ite c (bind hp fun _ => hq) hq

theorem forM {l : List β} {f : β → Parse PUnit} (h : ∀ b ∈ l, Resolves C (f b)) :
    Resolves C (l.forM f) := by
  induction l with
  | nil => exact pure _
  | cons b rest ih =>
    refine bind (h b (List.mem_cons_self ..)) fun _ => ih fun c hc => ?_
    exact h c (List.mem_cons_of_mem _ hc)

end Resolves

end Parse

end ScriptLint
