/-!
# Stacks that are never empty

Overlays, function contexts, open functions and active frames all form stacks whose bottom entry
stands for global code and is never removed. The bottom being part of the type, the top always
exists.
-/

namespace ScriptLint

/-- A stack with at least one entry; `below` lists the entries under the top, nearest first. -/
structure Stack (α : Type) where
  top : α
  below : List α := []

namespace Stack

variable {α : Type}

/-- A stack that holds only its bottom entry. -/
def singleton (bottom : α) : Stack α := ⟨bottom, []⟩

/-- Entries from the top down. -/
def toList (s : Stack α) : List α := s.top :: s.below

/-- Number of entries, the bottom one included. -/
def depth (s : Stack α) : Nat := s.below.length + 1

/-- Whether only the bottom entry is left. -/
def isBottom (s : Stack α) : Bool := s.below.isEmpty

/-- Puts an entry on top. -/
def push (s : Stack α) (a : α) : Stack α := ⟨a, s.toList⟩

/-- Removes the top entry; the bottom entry stays. -/
def pop (s : Stack α) : Stack α :=
  match s.below with
  | [] => s
  | next :: rest => ⟨next, rest⟩

/-- Changes the top entry. -/
def modifyTop (s : Stack α) (f : α → α) : Stack α := ⟨f s.top, s.below⟩

theorem toList_inj {s t : Stack α} : s.toList = t.toList ↔ s = t := by
  constructor
  · intro h
    obtain ⟨hTop, hBelow⟩ := List.cons.inj h
    show mk s.top s.below = mk t.top t.below
    rw [hTop, hBelow]
  · exact congrArg toList

theorem pop_of_below {s t : Stack α} (h : t.below = s.toList) : t.pop = s := by
  rw [pop, h]
  rfl

theorem depth_pop_of_depth {s t : Stack α} (h : t.depth = s.depth + 1) : t.pop.depth = s.depth := by
  obtain ⟨top, below⟩ := t
  cases below with
  | nil => cases h
  | cons next rest => exact Nat.succ.inj h

end Stack

end ScriptLint
