import ScriptLint.Grammar.Summary
import ScriptLint.Parse.Advance

/-!
# Parsers one level deeper

Statements, expressions, binding patterns and `new` expressions contain one another. Each parser of
this library takes the parsers for what is nested in it as an argument, so that the recursion of the
grammar is one recursion on the number of levels left.
-/

namespace ScriptLint

/-- How deeply statements, expressions and patterns may be nested. -/
def maxNesting : Nat := 200

namespace Parse

variable {α : Type}

/-- Runs a parser one level deeper. -/
def below (p : Parse α) : Parse α := do
  modify fun s => { s with nesting := s.nesting + 1 }
  p.ensuring fun s => { s with nesting := s.nesting - 1 }

/-- Runs a parser one level deeper, unless the program is nested too deeply. -/
def deeper (p : Parse α) : Parse α := do
  if (← get).nesting < maxNesting then below p else tooDeep

end Parse

/-- The parsers that go one level deeper. -/
structure Nested where
  statement : Parse Flow
  /-- An expression whose operators all bind at least as strongly as the power given. -/
  expression : (power : Nat) → Parse Summary
  /-- A name or a pattern to be declared. -/
  binding : Scope.BindingKind → Parse Unit
  /-- A `new` expression. -/
  construction : Parse Summary

namespace Nested

/-- Beyond the last level the run stops. -/
def exhausted : Nested where
  statement := Parse.tooDeep
  expression := fun _ => Parse.tooDeep
  binding := fun _ => Parse.tooDeep
  construction := Parse.tooDeep

/-- The same parsers, each of which counts as a level. -/
def deeper (parsers : Nested) : Nested where
  statement := parsers.statement.deeper
  expression := fun power => (parsers.expression power).deeper
  binding := fun kind => (parsers.binding kind).deeper
  construction := parsers.construction.deeper

/-- An expression with commas. -/
def wholeExpression (inner : Nested) : Parse Summary := inner.expression 0

/-- An expression up to a comma. -/
def assignment (inner : Nested) : Parse Summary := inner.expression Power.assignment

/-- An initial value after an equals sign, if there is one. -/
def defaultValue (inner : Nested) : Parse Unit := do
  if ← Parse.eat .assign then discard inner.assignment

end Nested

end ScriptLint
