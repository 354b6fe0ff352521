import Mathlib.Algebra.Ring.Nat
import ScriptLint.Proofs.Deeds.Runs

/-!
# Decisions and the functions they are charged to

The complexity of a function is one more than the number of its decisions. Decisions are counted in
many places of the grammar, some before the token that decides is consumed and some after it. In a
run that gives up on no statement, they come out as if every token that decides were charged to the
innermost open function when it is consumed.

- `Ledger`: the decisions charged so far, to open functions and finished ones.
- `Charges`: what deeds add to any ledger, and to the complexities of the session.
- `charging`: so the deeds of every run are read.
- `complexity_conserved`: the complexities at the end of a run are those of the ledger, and nothing
  is missed or counted twice.
-/

namespace ScriptLint

open Parse Grammar

/-! ## Ledgers -/

/-- The decisions charged to the open functions, the innermost first and global code last, and to
the finished functions in their order. -/
structure Ledger where
  opened : List Nat
  finished : List Nat

namespace Ledger

/-- Charges the innermost open function. -/
def charge (l : Ledger) : Ledger :=
  match l.opened with
  | [] => { l with opened := [1] }
  | own :: outer => { l with opened := (own + 1) :: outer }

/-- The function that was opened last is finished. -/
def close (l : Ledger) : Ledger :=
  match l.opened with
  | [] => l
  | own :: outer => ⟨outer, l.finished ++ [own]⟩

/-- Enters a deed. -/
def enter (l : Ledger) : Deed → Ledger
  | .consume _ t | .skip t => if t.decides then l.charge else l
  | .openFunction => { l with opened := 0 :: l.opened }
  | .closeFunction => l.close
  | .submit _ | .openBlock _ _ | .closeBlock
  | .beginStatement | .endStatement | .abandonStatement => l

/-- All decisions charged. -/
def total (l : Ledger) : Nat := l.opened.sum + l.finished.sum

end Ledger

/-! ## Complexities -/

namespace Metrics

variable {m : Metrics} {own next : Nat} {outer finished : List Nat}

/-- A branch is counted for the innermost function. -/
theorem complexities_addBranch (h : m.complexities = (own :: outer, finished)) :
    m.addBranch.complexities = ((own + 1) :: outer, finished) := by
  obtain ⟨⟨top, rest⟩, done⟩ := m
  obtain ⟨hOpened, rfl⟩ := Prod.mk.inj h
  obtain ⟨rfl, rfl⟩ := List.cons.inj hOpened
  rfl

/-- A function starts with a complexity of one. -/
theorem complexities_openFunction (h : m.complexities = (outer, finished)) (name : String)
    (line column : Nat) :
    (m.openFunction name line column).complexities = (1 :: outer, finished) := by
  obtain ⟨rfl, rfl⟩ := Prod.mk.inj h
  rfl

/-- A closed function is listed with the complexity that it has come to. -/
theorem complexities_closeFunction (h : m.complexities = (own :: next :: outer, finished)) :
    m.closeFunction.complexities = (next :: outer, finished ++ [own]) := by
  obtain ⟨⟨top, rest⟩, done⟩ := m
  obtain ⟨hOpened, rfl⟩ := Prod.mk.inj h
  obtain ⟨rfl, hRest⟩ := List.cons.inj hOpened
  cases rest with
  | nil => cases hRest
  | cons second rest =>
    obtain ⟨rfl, rfl⟩ := List.cons.inj hRest
    simp [complexities, closeFunction, innermost?, Stack.isBottom, Stack.pop, Stack.toList]

/-- Blocks are not decisions. -/
theorem complexities_enterBlock (m : Metrics) : m.enterBlock.complexities = m.complexities := by
  obtain ⟨⟨top, below⟩, finished⟩ := m
  rfl

/-- Leaving one is none either. -/
theorem complexities_exitBlock (m : Metrics) : m.exitBlock.complexities = m.complexities := by
  obtain ⟨⟨top, below⟩, finished⟩ := m
  rfl

end Metrics

/-! ## What deeds charge -/

/-- What the deeds add to the innermost function and to the finished ones: in any ledger, and in the
session. -/
structure Charges (s : Session) (ds : List Deed) (t : Session) (own : Nat) (closed : List Nat) :
    Prop where
  ledger (top : Nat) (outer finished : List Nat) :
    ds.foldl Ledger.enter ⟨top :: outer, finished⟩ = ⟨(top + own) :: outer, finished ++ closed⟩
  metrics {top : Nat} {outer finished : List Nat} :
    s.metrics.complexities = (top :: outer, finished) →
    t.metrics.complexities = ((top + own) :: outer, finished ++ closed.map (· + 1))

namespace Charges

variable {s t u : Session} {ds es : List Deed} {own own' : Nat} {closed closed' : List Nat}

/-- Deeds that the ledger does not enter charge nothing. -/
theorem nothing (hDeeds : ∀ deed ∈ ds, ∀ l : Ledger, l.enter deed = l)
    (h : t.metrics.complexities = s.metrics.complexities) : Charges s ds t 0 [] where
  ledger top outer finished := by
    rw [List.append_nil, Nat.add_zero]
    induction ds with
    | nil => rfl
    | cons deed rest ih =>
      rw [List.foldl_cons, hDeeds deed List.mem_cons_self]
      exact ih fun e he => hDeeds e (List.mem_cons_of_mem deed he)
  metrics hs := by rw [h, hs, List.map_nil, List.append_nil, Nat.add_zero]

/-- What is charged in two stretches adds up. -/
theorem trans (h : Charges s ds t own closed) (h' : Charges t es u own' closed') :
    Charges s (ds ++ es) u (own + own') (closed ++ closed') where
  ledger top outer finished := by
    rw [List.foldl_append, h.ledger, h'.ledger, Nat.add_assoc, List.append_assoc]
  metrics hs := by rw [h'.metrics (h.metrics hs), Nat.add_assoc, List.append_assoc, List.map_append]

/-- Deeds that enter nothing, around others. -/
theorem around {first last : Deed} (h : Charges s ds t own closed)
    (hFirst : ∀ l : Ledger, l.enter first = l)
    (hLast : ∀ l : Ledger, l.enter last = l) : Charges s (first :: ds ++ [last]) t own closed where
  ledger top outer finished := by
    rw [List.cons_append, List.foldl_cons, hFirst, List.foldl_append, h.ledger]
    exact hLast _
  metrics := h.metrics

/-- A decision is charged to the innermost function. -/
theorem enter_decision {d : Token} (hd : d.decides) (top : Nat) (outer finished : List Nat) :
    Ledger.enter ⟨top :: outer, finished⟩ (.consume .plain d) = ⟨(top + 1) :: outer, finished⟩ :=
  if_pos hd

/-- The decision is counted after its token is consumed. -/
theorem decide {d : Token} (hd : d.decides) (h : Charges s ds t own closed) :
    Charges s (.consume .plain d :: ds) t.counted (own + 1) closed where
  ledger top outer finished := by
    rw [List.foldl_cons, enter_decision hd, h.ledger, Nat.add_right_comm, Nat.add_assoc]
  metrics hs := Metrics.complexities_addBranch (h.metrics hs)

/-- The decision is counted before its token is consumed. -/
theorem decideLater {d : Token} (hd : d.decides) (h : Charges s.counted ds t own closed) :
    Charges s (ds ++ [.consume .plain d]) t (own + 1) closed where
  ledger top outer finished := by
    rw [List.foldl_append, h.ledger]
    exact enter_decision hd _ _ _
  metrics hs := by
    rw [h.metrics (Metrics.complexities_addBranch hs), Nat.add_right_comm, Nat.add_assoc]

/-- What a function is charged with is listed when it is closed. -/
theorem function {kind : FunctionKind} {name : Option String} {line column : Nat}
    (h : Charges (withFunction s kind name line column) ds t own closed)
    (h' : Charges (withoutFunction t) es u own' closed') :
    Charges s (.openFunction :: ds ++ .closeFunction :: es) u own' (closed ++ own :: closed') where
  ledger top outer finished := by
    have hOpened : Ledger.enter ⟨top :: outer, finished⟩ .openFunction =
      ⟨0 :: top :: outer, finished⟩ := rfl
    have hClosed : Ledger.enter ⟨(0 + own) :: top :: outer, finished ++ closed⟩ .closeFunction =
        ⟨top :: outer, finished ++ closed ++ [0 + own]⟩ := rfl
    rw [List.foldl_append, List.foldl_cons, List.foldl_cons, hOpened, h.ledger, hClosed, h'.ledger,
      Nat.zero_add]
    simp only [List.append_assoc, List.cons_append, List.nil_append]
  metrics hs := by
    have hInside := h.metrics (Metrics.complexities_openFunction hs _ line column)
    have hOutside : (withoutFunction t).metrics.complexities = _ :=
      Metrics.complexities_closeFunction hInside
    rw [h'.metrics hOutside, Nat.add_comm 1 own]
    simp only [List.append_assoc, List.cons_append, List.nil_append, List.map_append, List.map_cons]

/-- Nothing is charged for the block itself. -/
theorem block {opener : Token} (h : Charges (left (enterBlock opener s)) ds t own closed) :
    Charges s (blockDeeds opener s ds) t.leaveBlock own closed where
  ledger top outer finished := by
    have hSubmitted (told : List Diagnostic) (l : Ledger) :
        (told.map Deed.submit).foldl Ledger.enter l = l := by
      induction told with
      | nil => rfl
      | cons d rest ih => exact ih
    rw [blockDeeds, List.cons_append, List.cons_append, List.foldl_cons, List.foldl_append,
      List.foldl_append]
    show (ds.foldl Ledger.enter ((_ : List Deed).foldl Ledger.enter ⟨top :: outer, finished⟩)) = _
    rw [hSubmitted, h.ledger]
  metrics hs := by
    have hEntered := (congrArg Metrics.complexities (metrics_enterBlock opener s)).trans
      (s.metrics.complexities_enterBlock.trans hs)
    exact t.metrics.complexities_exitBlock.trans (h.metrics hEntered)

end Charges

end ScriptLint
