/-
# The troops under inspection

While a troop is tested it is bound to the alias `this_unit`, and the bindings of
nested tests pile up.  Formulas see the innermost binding of an alias.

A binding is held by a *guard*.  Giving a guard up removes the innermost binding,
whichever guard it came from; so bindings and guards correspond as long as guards
are given up in the opposite order of their making, and their numbers agree in
any order.
-/

import Muster.Location

namespace Muster

/-- A troop bound to an alias at a location. -/
structure Binding where
  «alias» : String
  id : String
  location : Location
deriving DecidableEq

/-- The bindings in force, the innermost first. -/
structure Scope where
  bindings : List Binding := []
deriving DecidableEq

namespace Scope

/-- The alias of the troop under test. -/
def thisUnit : String := "this_unit"

/-- The scope without bindings. -/
def empty : Scope := {}

/-- The number of bindings. -/
def depth (s : Scope) : Nat := s.bindings.length

/-- The innermost binding of an alias. -/
def current? (s : Scope) (name : String) : Option Binding := s.bindings.find? fun b => b.alias == name

/-- The scope with one more binding inside. -/
def push (s : Scope) (b : Binding) : Scope := ⟨b :: s.bindings⟩

/-- The scope without its innermost binding. -/
def pop (s : Scope) : Scope := ⟨s.bindings.tail⟩

@[simp] theorem depth_empty : empty.depth = 0 := rfl

@[simp] theorem depth_push (s : Scope) (b : Binding) : (s.push b).depth = s.depth + 1 := rfl

@[simp] theorem pop_push (s : Scope) (b : Binding) : (s.push b).pop = s := rfl

theorem current?_push (s : Scope) (b : Binding) (name : String) :
    (s.push b).current? name = if b.alias = name then some b else s.current? name := by
  by_cases h : b.alias = name <;> simp [current?, push, h]

end Scope

/-- A scope with the guards that hold its bindings, numbered in the order of
their making. -/
structure GuardedScope where
  scope : Scope := .empty
  /-- How many guards have been made. -/
  made : Nat := 0
  /-- The guards not yet given up, the latest first. -/
  held : List Nat := []

namespace GuardedScope

/-- Bind a troop; the new guard has the number of those made before. -/
def bind (g : GuardedScope) (b : Binding) : GuardedScope :=
  ⟨g.scope.push b, g.made + 1, g.made :: g.held⟩

/-- Whether a guard is held. -/
def holds (g : GuardedScope) (guard : Nat) : Bool := g.held.contains guard

/-- Give a guard up; nothing happens where it is not held. -/
def drop (g : GuardedScope) (guard : Nat) : GuardedScope :=
  if g.holds guard then ⟨g.scope.pop, g.made, g.held.erase guard⟩ else g

end GuardedScope
end Muster
