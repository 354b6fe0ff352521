import ScriptLint.Proofs.Deeds.Errors

/-!
# Blocks and how they are nested

Blocks are counted by function: a function starts with none, and when it is closed as many are open
as before. A block that is given up on is left all the same, so that the blocks and functions of a
run are nested like brackets, and what is reported on the depth of a block stands right behind the
place where the block is entered.

- `Deed.nest`, `openBlocks`: the blocks that are open after some deeds.
- `deepBlocks`: what is reported on a block within as many others.
- `Nests`: deeds whose blocks and functions are nested, with the reports on blocks.
- `Nests.fits`: what this says about each block and each report.
- `nesting`: so the deeds of every run are read.
-/

namespace ScriptLint

open Parse Grammar

/-! ## Open blocks -/

/-- How many blocks are open in each of the open functions after the deed, in the innermost one
first. -/
def Deed.nest (depths : List Nat) : Deed → List Nat
  | openBlock _ _ => depths.modifyHead (· + 1)
  | closeBlock => depths.modifyHead (· - 1)
  | openFunction => 0 :: depths
  | closeFunction => depths.tail
  | submit _ | consume _ _ | skip _ | beginStatement | endStatement | abandonStatement => depths

/-- What is reported on a block within as many others. -/
def deepBlocks (opener : Token) (limit : Option Nat) (others : Nat) : List Diagnostic :=
  if limit.any (others + 1 == depthBeyond ·) then
    [(Finding.nestedTooDeeply (others + 1)).diagnostic opener.line opener.column]
  else []

/-- The block that is reported, if any, as a list. -/
theorem toList_deepBlock? (opener : Token) (s : Session) :
    (deepBlock? opener s).toList =
    deepBlocks opener (s.layers.limit? .maxdepth) s.metrics.depth := by
  unfold deepBlock? deepBlocks
  dsimp only
  split <;> rfl

/-! ## Nested deeds -/

namespace Deed

/-- Whether the deed leaves blocks and functions alone, and does not report on blocks. -/
def isFlat : Deed → Bool
  | submit d => d.code ≠ "W073"
  | consume _ _ | skip _ | beginStatement | endStatement | abandonStatement => true
  | openBlock _ _ | closeBlock | openFunction | closeFunction => false

/-- A block is entered within as many others, and reported if it is too deep. -/
def entering (opener : Token) (limit : Option Nat) (others : Nat) : List Deed :=
  .openBlock opener limit :: (deepBlocks opener limit others).map .submit

variable {deed : Deed}

/-- A flat deed opens and closes nothing. -/
theorem nest_of_isFlat (h : deed.isFlat) (depths : List Nat) : deed.nest depths = depths := by
  cases deed <;> first | rfl | cases h

/-- It stays flat while tokens are skipped. -/
theorem isFlat_skipping (h : deed.isFlat) : deed.skipping.isFlat := by
  cases deed <;> exact h

/-- A diagnostic that is not about the depth of a block is flat. -/
theorem isFlat_submit {d : Diagnostic} (h : d.code ≠ "W073") : (submit d).isFlat := decide_eq_true h

/-- Entering a block is not a matter of skipped tokens. -/
theorem map_skipping_entering (opener : Token) (limit : Option Nat) (others : Nat) :
    (entering opener limit others).map skipping = entering opener limit others := by
  rw [entering, List.map_cons, List.map_map]
  rfl

/-- Entering a block adds one level to the innermost function. -/
theorem foldl_nest_entering (opener : Token) (limit : Option Nat) (others depth : Nat)
    (outer : List Nat) :
    (entering opener limit others).foldl nest (depth :: outer) = (depth + 1) :: outer := by
  unfold entering deepBlocks
  split <;> rfl

/-- Where a deed stands among those that start with entering a block. -/
theorem split_entering {opener : Token} {limit : Option Nat} {others : Nat}
    {rest before after : List Deed}
    (h : entering opener limit others ++ rest = before ++ deed :: after) :
    (before = [] ∧ deed = .openBlock opener limit ∧
    after = (deepBlocks opener limit others).map .submit ++ rest) ∨
      (before = [.openBlock opener limit] ∧ ∃ d, deed = .submit d) ∨
      ∃ inside, before = entering opener limit others ++ inside ∧ rest =
        inside ++ deed :: after := by
  rw [entering, List.cons_append] at h
  rcases before with _ | ⟨first, before⟩
  · obtain ⟨hDeed, hAfter⟩ := List.cons.inj h
    exact .inl ⟨rfl, hDeed.symm, hAfter.symm⟩
  obtain ⟨rfl, hRest⟩ := List.cons.inj h
  rw [entering]
  unfold deepBlocks at hRest ⊢
  split at hRest
  · next hDeep =>
    rw [if_pos hDeep]
    rcases before with _ | ⟨second, before⟩
    · exact .inr (.inl ⟨rfl, _, (List.cons.inj hRest).1.symm⟩)
    · obtain ⟨rfl, hInside⟩ := List.cons.inj hRest
      exact .inr (.inr ⟨before, rfl, hInside⟩)
  · next hShallow =>
    rw [if_neg hShallow]
    exact .inr (.inr ⟨before, rfl, hRest⟩)

end Deed

/-- Blocks and functions are nested, within as many open blocks. A block opens at a brace, and is
reported when it is entered if it is one of the first beyond the limit. -/
inductive Nests : Nat → List Deed → Prop
  | nil {depth : Nat} : Nests depth []
  | flat {depth : Nat} {deed : Deed} {later : List Deed} : deed.isFlat → Nests depth later →
    Nests depth (deed :: later)
  | block {depth : Nat} {opener : Token} {limit : Option Nat} {body later : List Deed} :
    opener.isPunctuator .leftBrace → Nests (depth + 1) body → Nests depth later →
    Nests depth (Deed.entering opener limit depth ++ (body ++ .closeBlock :: later))
  | function {depth : Nat} {body later : List Deed} : Nests 0 body → Nests depth later →
    Nests depth (.openFunction :: (body ++ .closeFunction :: later))

namespace Deed

/-- The deed fits in where it stands, with as many blocks open. A block opens at a brace, is
reported right behind its start or not at all, and is closed behind what is nested in it; whatever
is reported on blocks stands right behind the start of one. -/
def Fits (others : Nat) (before after : List Deed) : Deed → Prop
  | openBlock opener limit => opener.isPunctuator .leftBrace ∧ ∃ body later,
      after = (deepBlocks opener limit others).map .submit ++ (body ++ .closeBlock :: later) ∧
        Nests (others + 1) body
  | submit d => d.code = "W073" → ∃ front opener limit, before = front ++ [.openBlock opener limit]
  | _ => True

variable {deed : Deed}

/-- Something is done before that and after it. -/
theorem Fits.extend {others : Nat} {before after : List Deed} (h : deed.Fits others before after)
    (first last : List Deed) : deed.Fits others (first ++ before) (after ++ last) := by
  cases deed with
  | openBlock opener limit =>
    obtain ⟨hOpener, body, later, rfl, hBody⟩ := h
    refine ⟨hOpener, body, later ++ last, ?_, hBody⟩
    rw [List.append_assoc, List.append_assoc, List.cons_append]
  | submit d =>
    intro hCode
    obtain ⟨front, opener, limit, rfl⟩ := h hCode
    exact ⟨first ++ front, opener, limit, (List.append_assoc ..).symm⟩
  | _ => trivial

/-- A flat deed fits anywhere. -/
theorem fits_of_isFlat (h : deed.isFlat) (others : Nat) (before after : List Deed) :
    deed.Fits others before after := by
  cases deed with
  | submit d => exact fun hCode => absurd hCode (of_decide_eq_true h)
  | openBlock => cases h
  | _ => trivial

end Deed

namespace Nests

variable {depth : Nat} {deeds later before after : List Deed}

/-- Deeds of the same depth one after the other. -/
theorem append (h : Nests depth deeds) (h' : Nests depth later) : Nests depth (deeds ++ later) := by
  induction h with
  | nil => exact h'
  | flat hDeed _ ih => exact .flat hDeed (ih h')
  | block hOpener hBody _ _ ih =>
    rw [List.append_assoc, List.append_assoc, List.cons_append]
    exact .block hOpener hBody (ih h')
  | function hBody _ _ ih =>
    rw [List.cons_append, List.append_assoc, List.cons_append]
    exact .function hBody (ih h')

/-- So they are where they skip what is left of a statement. -/
theorem skipping (h : Nests depth deeds) : Nests depth (deeds.map Deed.skipping) := by
  induction h with
  | nil => exact .nil
  | flat hDeed _ ih => exact .flat (Deed.isFlat_skipping hDeed) ih
  | block hOpener _ _ ihBody ih =>
    rw [List.map_append, List.map_append, List.map_cons, Deed.map_skipping_entering]
    exact .block hOpener ihBody ih
  | function _ _ ihBody ih =>
    rw [List.map_cons, List.map_append, List.map_cons]
    exact .function ihBody ih

/-- All blocks and functions are left again. -/
theorem foldl_nest (h : Nests depth deeds) (outer : List Nat) :
    deeds.foldl Deed.nest (depth :: outer) = depth :: outer := by
  induction h generalizing outer with
  | nil => rfl
  | flat hDeed _ ih =>
    rw [List.foldl_cons, Deed.nest_of_isFlat hDeed]
    exact ih outer
  | block _ _ _ ihBody ih =>
    rw [List.foldl_append, Deed.foldl_nest_entering, List.foldl_append, ihBody]
    exact ih outer
  | @function depth body later _ _ ihBody ih =>
    show (body ++ .closeFunction :: later).foldl Deed.nest (0 :: depth :: outer) = _
    rw [List.foldl_append, ihBody]
    exact ih outer

/-- By induction on the deeds: each of them fits in where it stands. -/
theorem fits (h : Nests depth deeds) (outer : List Nat) {deed : Deed}
    (hSplit : deeds = before ++ deed :: after) :
    deed.Fits ((before.foldl Deed.nest (depth :: outer)).headD 0) before after := by
  -- the deed lies inside a block or a function, or behind it, or is the one that opens or closes it
  induction h generalizing outer before after with
  | nil => simp at hSplit
  | @flat depth other later hOther _ ih =>
    rcases before with _ | ⟨first, before⟩
    · obtain ⟨rfl, rfl⟩ := List.cons.inj hSplit
      exact Deed.fits_of_isFlat hOther _ _ _
    · obtain ⟨rfl, hLater⟩ := List.cons.inj hSplit
      have hFits := (ih outer hLater).extend [other] []
      rw [List.append_nil] at hFits
      rw [List.foldl_cons, Deed.nest_of_isFlat hOther]
      exact hFits
  | @block depth opener limit body later hOpener hBody _ ihBody ih =>
    rcases Deed.split_entering hSplit with ⟨rfl, rfl, rfl⟩ | ⟨rfl, d, rfl⟩ | ⟨inside, rfl, hInside⟩
    · exact ⟨hOpener, body, later, rfl, hBody⟩
    · exact fun _ => ⟨[], opener, limit, rfl⟩
    rw [List.foldl_append, Deed.foldl_nest_entering]
    rcases append_cons_eq_append_cons hInside.symm with ⟨zs, rfl, rfl⟩ | ⟨-,
      rfl, -⟩ | ⟨zs, rfl, hIn⟩
    · exact (ihBody outer rfl).extend _ _
    · trivial
    · have hLeft : (body ++ .closeBlock :: zs).foldl Deed.nest ((depth + 1) :: outer) =
          zs.foldl Deed.nest (depth :: outer) := by
        rw [List.foldl_append, hBody.foldl_nest]
        rfl
      rw [hLeft]
      have hFits :=
        (ih outer hIn).extend (Deed.entering opener limit depth ++ (body ++ [.closeBlock])) []
      simpa only [List.append_nil, List.append_assoc, List.cons_append, List.nil_append] using hFits
  | @function depth body later hBody _ ihBody ih =>
    rcases before with _ | ⟨first, before⟩
    · obtain ⟨rfl, -⟩ := List.cons.inj hSplit
      trivial
    obtain ⟨rfl, hInside⟩ := List.cons.inj hSplit
    rw [List.foldl_cons]
    rcases append_cons_eq_append_cons hInside.symm with ⟨zs, rfl, rfl⟩ | ⟨-,
      rfl, -⟩ | ⟨zs, rfl, hIn⟩
    · exact (ihBody (depth :: outer) rfl).extend [.openFunction] _
    · trivial
    · have hClosed :
        (body ++ .closeFunction :: zs).foldl Deed.nest (Deed.nest (depth :: outer) .openFunction) =
          zs.foldl Deed.nest (depth :: outer) := by
        show (body ++ .closeFunction :: zs).foldl Deed.nest (0 :: depth :: outer) = _
        rw [List.foldl_append, hBody.foldl_nest]
        rfl
      rw [hClosed]
      have hFits := (ih outer hIn).extend (.openFunction :: (body ++ [.closeFunction])) []
      simpa only [List.append_nil, List.append_assoc, List.cons_append, List.nil_append] using hFits

end Nests

/-! ## The depths of a session -/

namespace Metrics

variable {m n : Metrics} {own : Nat} {outer : List Nat}

/-- The depth is that of the innermost function. -/
theorem depth_of_depths (h : m.depths = own :: outer) : m.depth = own := (List.cons.inj h).1

/-- There is always an innermost function. -/
theorem depths_eq_cons (m : Metrics) : ∃ outer, m.depths = m.depth :: outer := ⟨_, rfl⟩

/-- Metrics with the same depths have the same depth. -/
theorem depth_congr (h : n.depths = m.depths) : n.depth = m.depth := (List.cons.inj h).1

/-- Decisions open no block. -/
theorem depths_addBranch (m : Metrics) : m.addBranch.depths = m.depths := by
  obtain ⟨⟨top, below⟩, finished⟩ := m
  rfl

/-- A block is entered in the innermost function. -/
theorem depths_enterBlock (h : m.depths = own :: outer) :
    m.enterBlock.depths = (own + 1) :: outer := by
  obtain ⟨⟨top, below⟩, finished⟩ := m
  obtain ⟨rfl, rfl⟩ := List.cons.inj h
  rfl

/-- And left there. -/
theorem depths_exitBlock (h : m.depths = own :: outer) :
    m.exitBlock.depths = (own - 1) :: outer := by
  obtain ⟨⟨top, below⟩, finished⟩ := m
  obtain ⟨rfl, rfl⟩ := List.cons.inj h
  rfl

/-- Only functions are closed, not global code. -/
theorem depths_closeFunction (h : m.depths = own :: n.depths) :
    m.closeFunction.depths = n.depths := by
  obtain ⟨⟨top, below⟩, finished⟩ := m
  obtain ⟨-, hBelow⟩ := List.cons.inj h
  cases below with
  | nil => cases hBelow
  | cons next rest => exact hBelow

end Metrics

/-! ## The deeds of runs -/

/-- As many blocks are open as before in each function, and what is done in between is nested. -/
structure Session.KeepsDepths (s : Session) (ds : List Deed) (t : Session) : Prop where
  depths : t.metrics.depths = s.metrics.depths
  nests : Nests s.metrics.depth ds

namespace Session.KeepsDepths

variable {s t u : Session} {ds es : List Deed}

/-- A flat deed leaves the depths as they are. -/
theorem flat {deed : Deed} (h : deed.isFlat) (hDepths : t.metrics.depths = s.metrics.depths) :
    s.KeepsDepths [deed] t := ⟨hDepths, .flat h .nil⟩

/-- One stretch after the other. -/
theorem trans (h : s.KeepsDepths ds t) (h' : t.KeepsDepths es u) : s.KeepsDepths (ds ++ es) u :=
  ⟨h'.depths.trans h.depths, h.nests.append (Metrics.depth_congr h.depths ▸ h'.nests)⟩

/-- A report of something else. -/
theorem submit {d : Diagnostic} (h : d.code ≠ "W073") (s : Session) :
    s.KeepsDepths [.submit d] (left (emit d s)) :=
  flat (Deed.isFlat_submit h) (congrArg Metrics.depths (metrics_emit d s))

/-- Inside a function the blocks are counted from none. -/
theorem function {kind : FunctionKind} {name : Option String} {line column : Nat}
    (h : (withFunction s kind name line column).KeepsDepths ds t)
    (h' : (withoutFunction t).KeepsDepths es u) :
    s.KeepsDepths (.openFunction :: ds ++ .closeFunction :: es) u := by
  have hInside : t.metrics.depths = 0 :: s.metrics.depths := h.depths
  have hOutside : (withoutFunction t).metrics.depths = s.metrics.depths :=
    Metrics.depths_closeFunction hInside
  exact ⟨h'.depths.trans hOutside, .function h.nests (Metrics.depth_congr hOutside ▸ h'.nests)⟩

/-- Inside a block the depth is one more. -/
theorem block {opener : Token} (hOpener : opener.isPunctuator .leftBrace)
    (h : (left (enterBlock opener s)).KeepsDepths ds t) :
    s.KeepsDepths (blockDeeds opener s ds) t.leaveBlock := by
  obtain ⟨outer, hOuter⟩ := s.metrics.depths_eq_cons
  have hEntered : (left (enterBlock opener s)).metrics.depths = (s.metrics.depth + 1) :: outer := by
    rw [metrics_enterBlock]
    exact Metrics.depths_enterBlock hOuter
  have hInside := h.nests
  rw [Metrics.depth_of_depths hEntered] at hInside
  refine ⟨(Metrics.depths_exitBlock (h.depths.trans hEntered)).trans hOuter.symm, ?_⟩
  rw [blockDeeds, toList_deepBlock?, List.append_assoc]
  exact .block hOpener hInside .nil

end Session.KeepsDepths

/-- Blocks are nested and left again, also in runs that give up on their statement. -/
def nesting : Reading where
  Goes := Session.KeepsDepths
  Drops := Session.KeepsDepths
  quiet h := ⟨h.depths, .nil⟩
  trans := .trans
  drop := .trans
  dropQuiet h hQuiet := ⟨hQuiet.depths.trans h.depths, h.nests⟩
  submit hPlain := .submit hPlain.shallow
  fail hError := .submit (Diagnostic.shallow_of_isSyntaxError hError)
  consume _ _ := .flat rfl rfl
  decide {_ u _ _} _ h := ⟨u.metrics.depths_addBranch.trans h.depths, .flat rfl h.nests⟩
  decideLater {s _ _ _} _ h :=
    have hDepths := s.metrics.depths_addBranch
    ⟨h.depths.trans hDepths, (Metrics.depth_congr hDepths ▸ h.nests).append (.flat rfl .nil)⟩
  dropCounted {s _ _} h :=
    have hDepths := s.metrics.depths_addBranch
    ⟨h.depths.trans hDepths, Metrics.depth_congr hDepths ▸ h.nests⟩
  function := .function
  dropFunction h h' _ := .function h h'
  block := .block
  dropBlock := .block
  ended h := ⟨h.depths, .flat rfl (h.nests.append (.flat rfl .nil))⟩
  abandoned h h' :=
    ⟨h'.depths.trans h.depths,
      .flat rfl (h.nests.append (.flat rfl (Metrics.depth_congr h.depths ▸ h'.nests.skipping)))⟩

end ScriptLint
