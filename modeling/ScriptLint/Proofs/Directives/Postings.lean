import ScriptLint.Proofs.Balance
import ScriptLint.Proofs.Directives.Settings

/-!
# What directives set in the course of a run

Directives take effect wherever the parser passes a comment, and functions open and close overlays
in between. What a run does to the settings is a sequence of changes: values are set, functions are
entered, open their overlay and are left.

- `Session.Posts`: such a sequence with the values that were set on the way. It may be bound to stay
  inside the contexts that were open at its start.
- `Session.Posts.settles`: back at the contexts of its start, a sequence has carried out exactly the
  values that were set while the overlays of its start were the only ones.
- `posting`: the contract to be such a sequence.
-/

namespace ScriptLint

open Setting

namespace Grammar

/-- The session after the overlay of the innermost function was opened. -/
def withOverlay (s : Session) : Session :=
  { s with
    layers := s.layers.push
    contexts := s.contexts.modifyTop ({ · with overlayOpen := true }) }

end Grammar

namespace Session

open Grammar

/-- Neither the settings nor what they hang on changes. -/
structure SameOverlays (s t : Session) : Prop where
  layers : t.layers = s.layers
  contexts : t.contexts.below = s.contexts.below
  overlayOpen : t.context.overlayOpen = s.context.overlayOpen

theorem SameOverlays.of_eq {s t : Session} (h : (t.layers, t.contexts) = (s.layers, s.contexts)) :
    s.SameOverlays t := by
  obtain ⟨hLayers, hContexts⟩ := Prod.mk.inj h
  exact ⟨hLayers, congrArg Stack.below hContexts, congrArg (·.top.overlayOpen) hContexts⟩

/-- Unchanged contexts are as deep. -/
theorem SameOverlays.depth {s t : Session} (h : s.SameOverlays t) :
    t.contexts.depth = s.contexts.depth :=
  congrArg (·.length + 1) h.contexts

/-- The values are set on the way from one session to the other. No more than `floor` contexts are
open where the way leads out of a function, and those stay open. -/
inductive Posts (floor : Nat) (s : Session) : List Posting → Session → Prop
  | refl : Posts floor s [] s
  | quiet {ps : List Posting} {t u : Session} (h : Posts floor s ps t) (hSame : t.SameOverlays u) :
    Posts floor s ps u
  | sets {ps : List Posting} {t : Session} {setting : Setting} {value : Value} {atGlobal : Bool}
    {layers : Layers} (h : Posts floor s ps t)
    (hSet : t.layers.set setting value atGlobal = .ok layers) :
    Posts floor s (ps ++ [⟨t.layers.depth, setting, value⟩]) { t with layers }
  | enters {ps : List Posting} {t : Session} (h : Posts floor s ps t) (kind : FunctionKind)
    (name : Option String) (line column : Nat) :
    Posts floor s ps (withFunction t kind name line column)
  | opens {ps : List Posting} {t : Session} (h : Posts floor s ps t)
    (hFloor : floor < t.contexts.depth)
    (hClosed : t.context.overlayOpen = false) : Posts floor s ps (withOverlay t)
  | leaves {ps : List Posting} {t : Session} (h : Posts floor s ps t)
    (hFloor : floor < t.contexts.depth) : Posts floor s ps (withoutFunction t)

namespace Posts

variable {floor : Nat} {s t u : Session} {ps qs : List Posting}

/-- Postings of one stretch are followed by those of the next. -/
theorem trans (h : s.Posts floor ps t) (h' : t.Posts floor qs u) : s.Posts floor (ps ++ qs) u := by
  induction h' with
  | refl =>
    rw [List.append_nil]
    exact h
  | quiet _ hSame ih => exact ih.quiet hSame
  | sets _ hSet ih =>
    rw [← List.append_assoc]
    exact ih.sets hSet
  | enters _ kind name line column ih => exact ih.enters kind name line column
  | opens _ hFloor hClosed ih => exact ih.opens hFloor hClosed
  | leaves _ hFloor ih => exact ih.leaves hFloor

end Posts

/-! ## Back at the start -/

/-- For each open context, innermost first, whether its overlay is open. -/
def flags (s : Session) : List Bool := s.contexts.toList.map (·.overlayOpen)

/-- There is one flag for each context. -/
theorem length_flags (s : Session) : s.flags.length = s.contexts.depth := List.length_map _

theorem SameOverlays.flags {s t : Session} (h : s.SameOverlays t) : t.flags = s.flags := by
  show t.context.overlayOpen :: t.contexts.below.map _ =
    s.context.overlayOpen :: s.contexts.below.map _
  rw [h.overlayOpen, h.contexts]

/-- Leaving a function drops its flag. -/
theorem flags_withoutFunction {t : Session} {b : Bool} {rest : List Bool} (h : t.flags = b :: rest)
    (hRest : rest ≠ []) : t.context.overlayOpen = b ∧ (withoutFunction t).flags = rest := by
  obtain ⟨hTop, hBelow⟩ := List.cons.inj h
  refine ⟨hTop, ?_⟩
  show t.contexts.pop.toList.map _ = rest
  unfold Stack.pop
  cases hContexts : t.contexts.below with
  | nil =>
    rw [hContexts] at hBelow
    exact absurd hBelow.symm hRest
  | cons next below =>
    rw [hContexts] at hBelow
    exact hBelow

variable {floor : Nat} {s t : Session} {ps : List Posting}

/-- By induction on the changes: on top of the contexts and the overlays of the start there are
those of the functions entered since. The overlays of the start have taken in what was set while no
other was open. -/
theorem Posts.upon (h : s.Posts floor ps t) (hFloor : s.contexts.depth ≤ floor) :
    ∃ entered opened, t.flags = entered ++ s.flags ∧ opened.length = entered.count true ∧
      Layers.Covered (s.layers.carryOut s.layers.depth ps) opened t.layers := by
  -- where the way leads out of a function, one was entered
  have hInside {t : Session} {entered : List Bool} (hFlags : t.flags = entered ++ s.flags)
      (hLess : floor < t.contexts.depth) : ∃ b rest, entered = b :: rest := by
    cases entered with
    | nil =>
      rw [← length_flags, hFlags, List.nil_append, length_flags] at hLess
      omega
    | cons b rest => exact ⟨b, rest, rfl⟩
  -- on the way: what is entered and opened above the start, newest first
  induction h with
  | refl => exact ⟨[], [], rfl, rfl, .refl _⟩
  | quiet _ hSame ih =>
    obtain ⟨entered, opened, hFlags, hCount, hCovered⟩ := ih
    exact ⟨entered, opened, hSame.flags.trans hFlags, hCount, hSame.layers ▸ hCovered⟩
  | @sets ps t setting value atGlobal layers _ hSet ih =>
    obtain ⟨entered, opened, hFlags, hCount, hCovered⟩ := ih
    obtain rfl := Layers.eq_put_of_set hSet
    have hDepth := hCovered.depth
    rw [Layers.depth_carryOut] at hDepth
    rw [Layers.carryOut_append]
    -- a setting goes to the newest overlay, or to the layers of the start when none is open
    cases opened with
    | nil =>
      refine ⟨entered, [], hFlags, hCount, ?_⟩
      have hHere : t.layers.depth = s.layers.depth := hDepth.trans (Nat.zero_add _)
      have hOne : (s.layers.carryOut s.layers.depth ps).carryOut s.layers.depth
          [⟨t.layers.depth, setting, value⟩] = t.layers.put setting value := by
        rw [← hCovered.eq]
        exact if_pos hHere
      rw [hOne]
      exact .refl _
    | cons overlay opened =>
      obtain ⟨overlay', hPut⟩ := hCovered.put setting value
      refine ⟨entered, overlay' :: opened, hFlags, hCount, ?_⟩
      have hAbove : t.layers.depth ≠ s.layers.depth := by
        rw [List.length_cons] at hDepth
        omega
      have hNone : (s.layers.carryOut s.layers.depth ps).carryOut s.layers.depth
          [⟨t.layers.depth, setting, value⟩] = s.layers.carryOut s.layers.depth ps := if_neg hAbove
      rw [hNone]
      exact hPut
  | enters _ kind name line column ih =>
    obtain ⟨entered, opened, hFlags, hCount, hCovered⟩ := ih
    exact ⟨false :: entered, opened, congrArg (List.cons false) hFlags, hCount, hCovered⟩
  | @opens ps t _ hLess hClosed ih =>
    obtain ⟨entered, opened, hFlags, hCount, hCovered⟩ := ih
    obtain ⟨b, rest, rfl⟩ := hInside hFlags hLess
    obtain ⟨hTop, hBelow⟩ := List.cons.inj hFlags
    obtain rfl : b = false := hTop.symm.trans hClosed
    refine ⟨true :: rest, {} :: opened, congrArg (List.cons true) hBelow, ?_, hCovered.push⟩
    rw [List.count_cons_self, List.length_cons, hCount]
    rfl
  | @leaves ps t _ hLess ih =>
    obtain ⟨entered, opened, hFlags, hCount, hCovered⟩ := ih
    obtain ⟨b, rest, rfl⟩ := hInside hFlags hLess
    have hOuter : rest ++ s.flags ≠ [] := by
      intro hNil
      cases (List.append_eq_nil_iff.mp hNil).2
    obtain ⟨hTop, hLeft⟩ := flags_withoutFunction hFlags hOuter
    -- a function left takes its overlay along, if it had opened one
    cases b with
    | false =>
      refine ⟨rest, opened, hLeft, hCount, ?_⟩
      rw [withoutFunction, hTop]
      exact hCovered
    | true =>
      rw [List.count_cons_self] at hCount
      obtain ⟨overlay, opened, rfl⟩ := List.exists_cons_of_length_eq_add_one hCount
      refine ⟨rest, opened, hLeft, Nat.succ.inj hCount, ?_⟩
      rw [withoutFunction, hTop]
      exact hCovered.pop

/-- Back at the contexts of the start, what was set in between has taken effect if it was set while
the overlays of the start were the only ones, and has left no trace otherwise. -/
theorem Posts.settles (h : s.Posts floor ps t) (hFloor : s.contexts.depth ≤ floor)
    (hBack : t.contexts.depth = s.contexts.depth) :
    t.layers = s.layers.carryOut s.layers.depth ps ∧ t.context.overlayOpen =
      s.context.overlayOpen := by
  obtain ⟨entered, opened, hFlags, hCount, hCovered⟩ := h.upon hFloor
  have hLength := congrArg List.length hFlags
  rw [List.length_append, length_flags, length_flags, hBack] at hLength
  obtain rfl : entered = [] := List.eq_nil_of_length_eq_zero (by omega)
  obtain rfl : opened = [] := List.eq_nil_of_length_eq_zero hCount
  exact ⟨hCovered.eq, (List.cons.inj hFlags).1⟩

end Session

/-! ## Runs -/

/-- The contract to do nothing to the settings but what directives and functions do, and to come
back to the contexts of the start. -/
def posting : Contract where
  Goes s t := ∃ ps, s.Posts s.contexts.depth ps t ∧ t.contexts.depth = s.contexts.depth
  Stops s t := ∃ ps, s.Posts s.contexts.depth ps t ∧ t.contexts.depth = s.contexts.depth
  refl _ := ⟨[], .refl, rfl⟩
  trans := by
    rintro s t u ⟨ps, h, hBack⟩ ⟨qs, h', hBack'⟩
    rw [hBack] at h' hBack'
    exact ⟨ps ++ qs, h.trans h', hBack'⟩
  stop := by
    rintro s t u ⟨ps, h, hBack⟩ ⟨qs, h', hBack'⟩
    rw [hBack] at h' hBack'
    exact ⟨ps ++ qs, h.trans h', hBack'⟩

end ScriptLint
