/-
# Troops

A troop is what a scenario calls a unit: it has an id and a type, belongs to a
side, carries attacks, abilities and variables, and stands at a location or off
the map.  Two tables say how it fares on each terrain; on a terrain without an
entry it is always hit and cannot move.
-/

import Muster.Config.Basic
import Muster.Grid
import Muster.Table
import Muster.Troop.Uid

namespace Muster

/-- The gender of a troop. -/
inductive Gender where
  | male
  | female
deriving DecidableEq

namespace Gender

/-- The written name. -/
def name : Gender → String
  | male => "male"
  | female => "female"

/-- Female where a text says so, male for every other text. -/
def ofText (s : String) : Gender := if Text.trimmed s = "female" then female else male

@[simp] theorem ofText_name (g : Gender) : ofText g.name = g := by cases g <;> decide

end Gender

/-- A weapon: its id, its range, and the damage and number of its blows. -/
structure Attack where
  id : String
  range : String
  damage : Int32
  number : Int32
deriving DecidableEq

/-- A troop. -/
structure Troop where
  id : String
  type : String
  uid : Uid := ⟨0⟩
  name : String := ""
  /-- Empty unless the type is a variation of its base type. -/
  variation : String := ""
  race : String := ""
  side : Int32 := 1
  gender : Gender := .male
  role : String := ""
  isGuardian : Bool := false
  canRecruit : Bool := false
  recallCost : Int64 := 20
  level : Int64 := 1
  hitpoints : Int32 := 30
  maxHitpoints : Int32 := 30
  experience : Int32 := 0
  attacks : List Attack := []
  abilities : List String := []
  /-- The chance to be hit, by terrain code. -/
  defense : Table String Int32 := Table.empty
  /-- The cost to enter, by terrain code. -/
  movement : Table String Int32 := Table.empty
  /-- The patterns of the terrain that conceals the troop. -/
  concealment : List String := []
  «variables» : Config := .empty
  location : Location := .offMap

namespace Troop

/-- The chance to be hit on a terrain without an entry. -/
def defaultDefense : Int32 := 100

/-- The cost of a terrain without an entry. -/
def unreachable : Int32 := 99

/-- Whether the troop has an ability. -/
def hasAbility (t : Troop) (ability : String) : Bool := t.abilities.contains ability

/-- Whether the troop has a weapon. -/
def hasWeapon (t : Troop) (weapon : String) : Bool := t.attacks.any (·.id == weapon)

/-- The chance to be hit on a terrain. -/
def defenseOn (t : Troop) (code : String) : Int32 := (t.defense.get? code).getD defaultDefense

/-- The cost to enter a terrain. -/
def movementOn (t : Troop) (code : String) : Int32 := (t.movement.get? code).getD unreachable

/-- Whether the terrain of a location conceals the troop; none does off the map. -/
def isConcealed (t : Troop) (l : Location) (g : Grid) : Bool :=
  g.holds l && t.concealment.any fun pattern => Text.Wildcard.accepts pattern (g.terrain l)

end Troop
end Muster
