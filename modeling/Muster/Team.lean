/-
# Sides and their teams

Each side is played by one team, which has names, a controller, possibly fog,
and a set of enemies.  Teams that share a name are allied: unless set otherwise,
the enemies of a team are the other sides with whose team it shares none.
-/

import Muster.Location
import Muster.Table
import Muster.Text.Pieces

namespace Muster

/-- Who plays a side; `empty` is a side without a player. -/
inductive Controller where
  | human
  | ai
  | empty
deriving DecidableEq

namespace Controller

/-- The written name. -/
def name : Controller → String
  | human => "human"
  | ai => "ai"
  | empty => "null"

/-- The controller of a name. -/
def parse? (s : String) : Option Controller :=
  [human, ai, empty].find? (·.name == Text.trimmed s)

@[simp] theorem parse?_name (c : Controller) : parse? c.name = some c := by cases c <;> decide

end Controller

/-- A team. -/
structure Team where
  side : Int32
  names : List String
  controller : Controller := .human
  hasFog : Bool := false
  cleared : KeySet Location := Table.empty
  enemies : KeySet Int32 := Table.empty

namespace Team

/-- The team of a side under the name of its number. -/
def ofSide (side : Int32) : Team := { side, names := [String.ofList (Text.Numerals.write side.toInt)] }

/-- The team under the names of a comma list. -/
def withNames (t : Team) (names : String) : Team := { t with names := Text.splitList names }

/-- The team with a location cleared of fog. -/
def clear (t : Team) (l : Location) : Team := { t with cleared := t.cleared.insert l ⟨⟩ }

/-- Whether fog hides a location from the team. -/
def isFogged (t : Team) (l : Location) : Bool := t.hasFog && !t.cleared.contains l

/-- Whether a side is an enemy. -/
def isEnemy (t : Team) (side : Int32) : Bool := t.enemies.contains side

/-- The team with a side declared an enemy or not. -/
def setEnemy (t : Team) (side : Int32) (hostile : Bool) : Team :=
  { t with enemies := if hostile then t.enemies.insert side ⟨⟩ else t.enemies.erase side }

theorem isEnemy_setEnemy (t : Team) (side : Int32) (hostile : Bool) (side' : Int32) :
    (t.setEnemy side hostile).isEnemy side' = if side' = side then hostile else t.isEnemy side' := by
  by_cases h : side' = side <;> cases hostile <;>
    simp [setEnemy, isEnemy, Table.contains, Table.get?_insert, Table.get?_erase, h]

theorem isFogged_clear (t : Team) (l l' : Location) :
    (t.clear l).isFogged l' = (t.isFogged l' && l' ≠ l) := by
  by_cases h : l' = l <;>
    simp [clear, isFogged, Table.contains, Table.get?_insert, h]

/-- Whether two teams have a name in common. -/
def sharesName (t u : Team) : Bool := t.names.any u.names.contains

end Team

/-- The team of a side: the first of that number. -/
def teamOf? (teams : List Team) (side : Int32) : Option Team := teams.find? (·.side == side)

/-- The teams with their enemies set by their names alone. -/
def recomputeAlliances (teams : List Team) : List Team :=
  teams.map fun t =>
    { t with
      enemies := KeySet.ofKeys ((teams.filter fun u => u.side != t.side && !u.sharesName t).map Team.side) }

end Muster
