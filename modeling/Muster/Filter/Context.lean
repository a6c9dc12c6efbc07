/-
# What filters run in

A filter looks at a board, and may call two plug-ins: one that evaluates formulas
and one that runs named scripts.  A *session* is what changes during a run: the
scope of the troops under inspection, and whatever state the plug-ins keep.

All that a filter needs of the world is a *setting*: the board, an answer to
each formula and script, and a way to test a troop while it is bound.  A context
is one setting (`Context.setting`), where no formula holds without an evaluator
and every script holds without a script host.
-/

import Muster.Board
import Muster.Scope

namespace Muster

/-- The state of a run; `σ` is the state of the plug-ins. -/
structure Session (σ : Type) where
  scope : Scope
  host : σ

/-- A computation in a session. -/
abbrev Run (σ : Type) := StateM (Session σ)

namespace Run

variable {σ : Type}

/-- Run with a troop bound to `this_unit` at a location. -/
def withThisUnit {α : Type} (t : Troop) (l : Location) (body : Run σ α) : Run σ α := do
  modify fun s => { s with scope := s.scope.push ⟨Scope.thisUnit, t.id, l⟩ }
  let result ← body
  modify fun s => { s with scope := s.scope.pop }
  return result

theorem run_withThisUnit {α : Type} (t : Troop) (l : Location) (body : Run σ α) (s : Session σ) :
    (withThisUnit t l body).run s =
      let after := body.run { s with scope := s.scope.push ⟨Scope.thisUnit, t.id, l⟩ }
      (after.1, { after.2 with scope := after.2.scope.pop }) := rfl

section

variable {m : Type → Type} [Monad m] {α : Type}

/-- The members of a list that pass a test, asked in order. -/
def select (test : α → m Bool) : List α → m (List α)
  | [] => pure []
  | a :: as => do
    let keep ← test a
    let rest ← select test as
    return if keep then a :: rest else rest

/-- The first member of a list that passes a test; those behind it are not asked. -/
def first? (test : α → m Bool) : List α → m (Option α)
  | [] => pure none
  | a :: as => do
    if ← test a then return some a
    first? test as

end

end Run

/-- A board with what filters call on, in the monad in which they run. -/
structure Setting (m : Type → Type) extends Board where
  /-- The answer to a formula for a troop at a location. -/
  formula : String → Location → Troop → m Bool
  /-- The answer to a script for a troop. -/
  script : String → Troop → m Bool
  /-- Ask the own tests of a troop checked at a location. -/
  testing : Troop → Location → m Bool → m Bool

/-- A board with its plug-ins. -/
structure Context (σ : Type) extends Board where
  /-- Evaluates a formula for a troop at a location. -/
  formula : Option (Board → String → Location → Troop → Run σ Bool) := none
  /-- Runs a script by its name for a troop. -/
  script : Option (String → Troop → Run σ Bool) := none

/-- The setting of a context: a troop is bound to `this_unit` while it is tested,
unless its location is invalid. -/
def Context.setting {σ : Type} (ctx : Context σ) : Setting (Run σ) where
  toBoard := ctx.toBoard
  formula text l t :=
    match ctx.formula with
    | some evaluate => evaluate ctx.toBoard text l t
    | none => return false
  script name t :=
    match ctx.script with
    | some call => call name t
    | none => return true
  testing t l own := if l.isValid then Run.withThisUnit t l own else own

end Muster
