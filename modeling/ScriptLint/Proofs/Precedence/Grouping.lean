import Mathlib.Data.List.Basic
import ScriptLint.Grammar.Summary

/-!
# How operators group

The operators between names group by levels: an operator of a tighter level takes its operands
first, and of the operators of one level the left ones do, except for powers, where the right ones
do. So a row of operators and operands has one tree. The binding powers of the grammar say the same
in numbers.

- `Level`: the levels, loosest first, and `Level.ofToken?_eq`: the powers they stand for.
- `Grouping.Grouped`: the trees in which all operators group by their levels.
- `group`: the tree of a row.
- `grouped_group`, `first_group`, `rest_group`, `group_of_grouped`: it is the only one.
-/

namespace ScriptLint

/-! ## Levels -/

/-- The levels of the operators between two operands, loosest first. -/
inductive Level where
  | disjunction
  | conjunction
  | bitOr
  | bitXor
  | bitAnd
  | equality
  | relation
  | shift
  | addition
  | multiplication
  | power
deriving DecidableEq

namespace Level

/-- The level of a token that is an operator between two operands. -/
def ofKind? : TokenKind → Option Level
  | .punctuator .or | .punctuator .coalesce => some disjunction
  | .punctuator .and => some conjunction
  | .punctuator .bitOr => some bitOr
  | .punctuator .bitXor => some bitXor
  | .punctuator .bitAnd => some bitAnd
  | .punctuator .equal | .punctuator .notEqual | .punctuator .identical
  | .punctuator .notIdentical => some equality
  | .punctuator .less | .punctuator .atMost | .punctuator .greater | .punctuator .atLeast =>
    some relation
  | .keyword .inWord | .keyword .instanceofWord => some relation
  | .punctuator .shiftLeft | .punctuator .shiftRight | .punctuator .shiftRightZero => some shift
  | .punctuator .plus | .punctuator .minus => some addition
  | .punctuator .times | .punctuator .divide | .punctuator .remainder => some multiplication
  | .punctuator .power => some power
  | _ => none

/-- How tight the level is. -/
def strength : Level → Nat
  | disjunction => 0
  | conjunction => 1
  | bitOr => 2
  | bitXor => 3
  | bitAnd => 4
  | equality => 5
  | relation => 6
  | shift => 7
  | addition => 8
  | multiplication => 9
  | power => 10

/-- Whether the right ones of several operators of the level take their operands first. -/
def groupsRight (level : Level) : Bool := level = power

/-- An operator of the level `inner` in the left operand of an operator takes its operands first. -/
def TakesLeft (outer inner : Level) : Prop :=
  outer.strength < inner.strength ∨ outer = inner ∧ outer.groupsRight = false

/-- An operator of the level `inner` in the right operand of an operator takes its operands
first. -/
def TakesRight (outer inner : Level) : Prop :=
  outer.strength < inner.strength ∨ outer = inner ∧ outer.groupsRight

instance (outer inner : Level) : Decidable (outer.TakesLeft inner) :=
  inferInstanceAs
    (Decidable (outer.strength < inner.strength ∨ outer = inner ∧ outer.groupsRight = false))

/-- The power of the level towards the left operand. -/
def leftPower (level : Level) : Nat := 40 + 10 * level.strength

/-- The power of the level towards the right operand. -/
def rightPower (level : Level) : Nat := level.leftPower + if level.groupsRight then 0 else 1

/-- No two levels bind equally. -/
theorem strength_injective : Function.Injective strength := by
  intro a b h
  cases a <;> cases b <;> first | rfl | cases h

variable {outer inner : Level}

/-- A row on the left is taken if its operator binds tighter. -/
theorem takesLeft_iff : outer.TakesLeft inner ↔ outer.leftPower < inner.rightPower := by
  have hSame : outer = inner ↔ outer.strength = inner.strength :=
    ⟨congrArg strength, @strength_injective outer inner⟩
  unfold TakesLeft rightPower leftPower
  rcases Nat.lt_trichotomy outer.strength inner.strength with h | h | h
  · simp only [h, true_or, true_iff]
    omega
  · obtain rfl := hSame.mpr h
    cases outer.groupsRight <;> simp
  · rw [hSame]
    cases inner.groupsRight <;> simp <;> omega

/-- A row on the right is taken if its operator binds tighter, or as tight to its right. -/
theorem takesRight_iff : outer.TakesRight inner ↔ outer.rightPower ≤ inner.leftPower := by
  have hSame : outer = inner ↔ outer.strength = inner.strength :=
    ⟨congrArg strength, @strength_injective outer inner⟩
  unfold TakesRight rightPower leftPower
  rw [hSame]
  cases outer.groupsRight with
  | false =>
    rw [if_neg Bool.false_ne_true]
    simp only [Bool.false_eq_true, and_false, or_false]
    omega
  | true =>
    rw [if_pos rfl]
    simp only [and_true]
    omega

theorem leftPower_le_rightPower (level : Level) :
    level.leftPower ≤ level.rightPower := Nat.le_add_right _ _

/-- The powers of a level differ by one at most. -/
theorem rightPower_le_succ (level : Level) : level.rightPower ≤ level.leftPower + 1 := by
  unfold rightPower
  split <;> omega

/-- Of two operators, one takes its operands first. -/
theorem takesRight_of_not_takesLeft (h : ¬outer.TakesLeft inner) : inner.TakesRight outer := by
  rw [takesLeft_iff, Nat.not_lt] at h
  exact takesRight_iff.mpr h

/-- The powers of the grammar are those of the levels. -/
theorem ofToken?_eq {t : Token} {level : Level} (h : ofKind? t.kind = some level) :
    Power.ofToken? t false = some (level.leftPower, level.rightPower) := by
  unfold Power.ofToken?
  unfold ofKind? at h
  split at h <;> cases h <;> rename_i hKind <;> rw [hKind] <;> rfl

end Level

/-! ## Operators and operands -/

/-- A token that is an operator between two operands. -/
structure Operator where
  token : Token
  level : Level
  isOperator : Level.ofKind? token.kind = some level

/-- A name that is an operand by itself, whatever follows it. -/
structure Operand where
  token : Token
  name : String
  isName : token.kind = .identifier name
  isPlain : name ∉ ["async", "await", "yield"]

namespace Operator

/-- What an expression with the operator turns out to be. -/
def form (op : Operator) : Form :=
  match op.level, op.token.kind with
  | .disjunction, _ | .conjunction, _ => .logical
  | _, .punctuator p => .binary p
  | _, _ => .other

/-- The punctuator of an operator that compares its operands. -/
def comparison? (op : Operator) : Option Punctuator :=
  match op.level, op.token.kind with
  | .equality, .punctuator p | .relation, .punctuator p => some p
  | _, _ => none

end Operator

/-! ## Trees -/

/-- Operands with operators between them. -/
inductive Grouping where
  | operand (x : Operand)
  | binary (op : Operator) (left right : Grouping)

namespace Grouping

/-- The first operand. -/
def first : Grouping → Operand
  | operand x => x
  | binary _ left _ => left.first

/-- The operators with the operands behind them. -/
def rest : Grouping → List (Operator × Operand)
  | operand _ => []
  | binary op left right => left.rest ++ (op, right.first) :: right.rest

/-- The operator that takes its operands last. -/
def root? : Grouping → Option Operator
  | operand _ => none
  | binary op _ _ => some op

/-- What the expression turns out to be. -/
def summary : Grouping → Summary
  | operand x => .startingAt x.token (.name x.name)
  | binary op left _ => left.summary.within op.form

/-- How many right operands lie within one another. -/
def depth : Grouping → Nat
  | operand _ => 0
  | binary _ left right => max left.depth (right.depth + 1)

/-- Every operator takes its operands after those within them. -/
inductive Grouped : Grouping → Prop
  | operand (x : Operand) : Grouped (operand x)
  | binary {op : Operator} {left right : Grouping} (hl : left.Grouped) (hr : right.Grouped)
    (hLeft : ∀ inner ∈ left.root?, op.level.TakesLeft inner.level)
    (hRight : ∀ inner ∈ right.root?, op.level.TakesRight inner.level) :
    Grouped (binary op left right)

/-- One more operator and operand behind the others. The operator takes as its left operand what
does not take its operands later. -/
def append : Grouping → Operator → Operand → Grouping
  | operand y, op, x => binary op (operand y) (operand x)
  | binary root left right, op, x =>
    if op.level.TakesLeft root.level then binary op (binary root left right) (operand x)
    else binary root left (right.append op x)

variable {g left right : Grouping} {op : Operator} {x : Operand}

/-- Appending leaves the first operand where it is. -/
theorem first_append (g : Grouping) (op : Operator) (x : Operand) :
    (g.append op x).first = g.first := by
  unfold append
  split
  · rfl
  · split <;> rfl

/-- What is appended comes last. -/
theorem rest_append (g : Grouping) (op : Operator) (x : Operand) :
    (g.append op x).rest = g.rest ++ [(op, x)] := by
  induction g with
  | operand y => rfl
  | binary root left right _ ih =>
    rw [append]
    split
    · rfl
    · rw [rest, ih, first_append, rest, List.append_assoc, List.cons_append]

/-- The root of what was appended to is its old root or the new operator. -/
theorem root?_append (g : Grouping) (op : Operator) (x : Operand) :
    ∀ inner ∈ (g.append op x).root?, inner = op ∨ inner ∈ g.root? := by
  intro inner hInner
  unfold append at hInner
  split at hInner
  · exact .inl (Option.some.inj hInner).symm
  · split at hInner
    · exact .inl (Option.some.inj hInner).symm
    · exact .inr hInner

/-- By induction on the tree: where the operator belongs to a right operand, it is tighter than the
operator before that. -/
theorem grouped_append (h : g.Grouped) (op : Operator) (x : Operand) : (g.append op x).Grouped := by
  have hNone (P : Operator → Prop) (y : Operand) (inner : Operator)
      (h : inner ∈ (operand y).root?) : P inner :=
    absurd h (Option.not_mem_none inner)
  induction h with
  | operand y => exact .binary (.operand y) (.operand x) (hNone _ y) (hNone _ x)
  | @binary root left right hl hr hLeft hRight _ ih =>
    rw [append]
    split
    · next hTakes =>
      refine .binary (.binary hl hr hLeft hRight) (.operand x) (fun inner hInner => ?_) (hNone _ x)
      exact Option.some.inj hInner ▸ hTakes
    · next hTakes =>
      refine .binary hl ih hLeft fun inner hInner => ?_
      rcases root?_append right op x inner hInner with rfl | hOld
      · exact Level.takesRight_of_not_takesLeft hTakes
      · exact hRight inner hOld

/-- All operators of a right operand are tighter than the operator before it, if the last of them
is. -/
theorem takesRight_rest {level : Level} (h : g.Grouped)
    (hRoot : ∀ inner ∈ g.root?, level.TakesRight inner.level) :
    ∀ p ∈ g.rest, level.TakesRight p.1.level := by
  induction h with
  | operand x => exact fun p hp => absurd hp List.not_mem_nil
  | @binary op left right hl hr hLeft hRight ihLeft ihRight =>
    have hOp := hRoot op rfl
    have hPowers := op.level.leftPower_le_rightPower
    rw [Level.takesRight_iff] at hOp
    intro p hp
    rcases List.mem_append.mp hp with hp | hp
    · refine ihLeft (fun inner hInner => ?_) p hp
      have hInner := Level.takesLeft_iff.mp (hLeft inner hInner)
      have hNext := inner.level.rightPower_le_succ
      exact Level.takesRight_iff.mpr (by omega)
    · rcases List.mem_cons.mp hp with rfl | hp
      · exact Level.takesRight_iff.mpr hOp
      · refine ihRight (fun inner hInner => ?_) p hp
        have hInner := Level.takesRight_iff.mp (hRight inner hInner)
        exact Level.takesRight_iff.mpr (by omega)

end Grouping

/-! ## Rows -/

/-- The tree of an operand with more operators and operands behind it. -/
def group (x : Operand) (rest : List (Operator × Operand)) : Grouping :=
  rest.foldl (fun g p => g.append p.1 p.2) (.operand x)

namespace Grouping

/-- Appending keeps a tree grouped. -/
theorem grouped_foldl {g : Grouping} (h : g.Grouped) (rest : List (Operator × Operand)) :
    (rest.foldl (fun g p => g.append p.1 p.2) g).Grouped := by
  induction rest generalizing g with
  | nil => exact h
  | cons p rest ih => exact ih (grouped_append h p.1 p.2)

/-- Appending all of a row gives the row. -/
theorem row_foldl (g : Grouping) (rest : List (Operator × Operand)) :
    (rest.foldl (fun g p => g.append p.1 p.2) g).first = g.first ∧
      (rest.foldl (fun g p => g.append p.1 p.2) g).rest = g.rest ++ rest := by
  induction rest generalizing g with
  | nil => exact ⟨rfl, (List.append_nil _).symm⟩
  | cons p rest ih =>
    obtain ⟨hFirst, hRest⟩ := ih (g.append p.1 p.2)
    refine ⟨hFirst.trans (first_append ..), hRest.trans ?_⟩
    rw [rest_append, List.append_assoc, List.singleton_append]

theorem grouped_group (x : Operand) (rest : List (Operator × Operand)) : (group x rest).Grouped :=
  grouped_foldl (.operand x) rest

theorem first_group (x : Operand) (rest : List (Operator × Operand)) : (group x rest).first = x :=
  (row_foldl (.operand x) rest).1

theorem rest_group (x : Operand) (rest : List (Operator × Operand)) : (group x rest).rest = rest :=
  (row_foldl (.operand x) rest).2

/-- Tighter operators leave an operator before them alone. -/
theorem foldl_binary (op : Operator) (left g : Grouping) {rest : List (Operator × Operand)}
    (h : ∀ p ∈ rest, op.level.TakesRight p.1.level) :
    rest.foldl (fun g p => g.append p.1 p.2) (binary op left g) =
      binary op left (rest.foldl (fun g p => g.append p.1 p.2) g) := by
  induction rest generalizing g with
  | nil => rfl
  | cons p rest ih =>
    obtain ⟨hFirst, hRest⟩ := List.forall_mem_cons.mp h
    have hNot : ¬p.1.level.TakesLeft op.level := by
      rw [Level.takesLeft_iff, Nat.not_lt]
      exact Level.takesRight_iff.mp hFirst
    rw [List.foldl_cons, List.foldl_cons, append, if_neg hNot]
    exact ih _ hRest

/-- A row has one tree only. By induction on the tree: the operators of the right operand join it
one by one. -/
theorem group_of_grouped {g : Grouping} (h : g.Grouped) : group g.first g.rest = g := by
  induction h with
  | operand x => rfl
  | @binary op left right hl hr hLeft hRight ihLeft ihRight =>
    have hAppend : left.append op right.first = binary op left (operand right.first) := by
      cases left with
      | operand y => rfl
      | binary root _ _ => exact if_pos (hLeft root rfl)
    calc group (binary op left right).first (binary op left right).rest
      _ =
        right.rest.foldl (fun g p => g.append p.1 p.2)
        ((group left.first left.rest).append op right.first) :=
        List.foldl_append
      _ =
        right.rest.foldl (fun g p => g.append p.1 p.2) (binary op left (operand right.first)) := by
        rw [ihLeft, hAppend]
      _ = binary op left (group right.first right.rest) :=
        foldl_binary op left _ (takesRight_rest hr hRight)
      _ = binary op left right := by rw [ihRight]

end Grouping

end ScriptLint
