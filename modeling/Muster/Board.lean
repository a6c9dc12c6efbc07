/-
# The board

A board holds all that a query may look at: the map, the troops on it, the
teams, the known troop types, the stored variables if there are any, the time of
day, and how far the light of single locations changes its bonus.
-/

import Muster.Roster
import Muster.Team
import Muster.TimeOfDay
import Muster.Troop.Types
import Muster.Variables

namespace Muster

/-- All that a query may look at. -/
structure Board where
  map : Grid
  roster : Roster := .empty
  teams : List Team := []
  types : TroopTypes := Table.empty
  «variables» : Option Variables := none
  timeOfDay : TimeOfDay := .dawn
  /-- The changes of the lawful bonus at single locations. -/
  light : Table Location Int := Table.empty

namespace Board

/-- The board with the given teams, allied by their names. -/
def withTeams (b : Board) (teams : List Team) : Board := { b with teams := recomputeAlliances teams }

/-- The board with one more troop, unless its location is off the map or occupied. -/
def place? (b : Board) (t : Troop) : Option Board :=
  if b.map.holds t.location then (b.roster.insert? t).map fun r => { b with roster := r } else none

/-- The board with one more troop, or as it is where the troop cannot be placed. -/
def place (b : Board) (t : Troop) : Board := (b.place? t).getD b

/-- The board with the lawful bonus of a location changed by the given amount. -/
def withLight (b : Board) (l : Location) (change : Int) : Board := { b with light := b.light.insert l change }

/-- The team of a side. -/
def team? (b : Board) (side : Int32) : Option Team := teamOf? b.teams side

/-- The time of day at a location; `flat` leaves the local light out. -/
def timeAt (b : Board) (l : Location) (flat : Bool) : TimeOfDay :=
  if flat then b.timeOfDay
  else { b.timeOfDay with lawfulBonus := b.timeOfDay.lawfulBonus + (b.light.get? l).getD 0 }

end Board
end Muster
