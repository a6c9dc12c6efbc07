/-
# Single tests

The tests that a query can ask of a troop, a side or a place by itself, without
asking another query.  Each looks at the board and answers at once.
-/

import Muster.Board
import Muster.Config.Match
import Muster.Location.Ranges
import Muster.Range
import Muster.Troop.Snapshot

namespace Muster

/-- A test of a troop checked at a location. -/
inductive TroopTest where
  | name (name : String)
  | id (ids : List String)
  | speaker (id : String)
  /-- The location lies off the map. -/
  | recalled
  /-- No location will do. -/
  | nowhere
  | coordinates (columns rows : String)
  | type (types : List String)
  | variation (variations : List String)
  /-- The type that hosts the troop's variations has one of these. -/
  | hasVariation (variations : List String)
  | ability (abilities : List String)
  | race (races : List String)
  | gender (gender : Gender)
  /-- The side is this number, or is written in the list. -/
  | side (number : Int64) (written : List String)
  | weapon (id : String)
  | role (role : String)
  | guardian (expected : Bool)
  | canRecruit (expected : Bool)
  | recallCost (cost : Int64)
  | level (level : Int64)
  | defense (chance : Int64)
  | movement (cost : Int64)
  /-- The troop's variables match a pattern. -/
  | stored (pattern : Config)
  /-- The troop's snapshot matches a pattern. -/
  | snapshot (pattern : Config)
  /-- Some viewer sees the troop, or some viewer does not. -/
  | seen (viewers : List Int32) (expected : Bool)
  /-- A stored array has an item with the troop's id. -/
  | listedIn (path : String)

/-- A test of a side. -/
inductive SideTest where
  | number (numbers : RangeSet)
  | teamName (names : List String)
  | controller (controller : Controller)

/-- A test of a location on the map; `flat` leaves the local light out. -/
inductive PlaceTest where
  | coordinates (columns rows : String)
  | terrain (patterns : List String)
  | alignment (flat : Bool) (alignments : List Alignment)
  | timeOfDay (flat : Bool) (ids : List String)

namespace Board

/-- Whether a troop at a location is out of a side's sight: in fog or concealed. -/
def hides (b : Board) (team : Team) (t : Troop) (l : Location) : Bool :=
  team.isFogged l || t.isConcealed l b.map

/-- Whether the team of a troop counts another side among its enemies. -/
def isHostile (b : Board) (t : Troop) (side : Int32) : Bool :=
  (b.team? t.side).any (·.isEnemy side)

end Board

namespace TroopTest

/-- Whether a troop checked at a location passes. -/
def holds (b : Board) (t : Troop) (l : Location) : TroopTest → Bool
  | name expected => t.name == expected
  | id ids => ids.contains t.id
  | speaker expected => t.id == expected
  | recalled => !b.map.holds l
  | nowhere => false
  | coordinates columns rows => l.fits columns rows
  | type ids => ids.contains t.type
  | variation variations => variations.contains t.variation
  | hasVariation variations =>
    (b.types.variationHost? t.type t.variation).any fun host => variations.any host.hasVariation
  | ability abilities => abilities.any t.hasAbility
  | race races => races.contains t.race
  | gender expected => t.gender == expected
  | side number written =>
    t.side.toInt64 == number || written.contains (String.ofList (Text.Numerals.write t.side.toInt))
  | weapon expected => t.hasWeapon expected
  | role expected => t.role == expected
  | guardian expected => t.isGuardian == expected
  | canRecruit expected => t.canRecruit == expected
  | recallCost cost => t.recallCost == cost
  | level expected => t.level == expected
  | defense chance => (t.defenseOn (b.map.terrain l)).toInt64 == chance
  | movement cost => (t.movementOn (b.map.terrain l)).toInt64 == cost
  | stored pattern => t.variables.matchesPattern pattern
  | snapshot pattern => t.snapshot.matchesPattern pattern
  | seen viewers expected =>
    viewers.any fun viewer => (b.team? viewer).any fun team => b.hides team t l != expected
  | listedIn path =>
    match b.variables with
    | none => true
    | some store =>
      match store.array path with
      | .ok items => items.any fun item => (item.get "id").prints t.id
      | .error _ => false

end TroopTest

namespace SideTest

/-- Whether a team passes. -/
def holds (team : Team) : SideTest → Bool
  | number numbers => numbers.contains team.side.toInt
  | teamName names => team.names.any names.contains
  | controller expected => team.controller == expected

end SideTest

namespace PlaceTest

/-- Whether a location passes. -/
def holds (b : Board) (l : Location) : PlaceTest → Bool
  | coordinates columns rows => l.fits columns rows
  | terrain patterns => patterns.any fun pattern => Text.Wildcard.accepts pattern (b.map.terrain l)
  | alignment flat alignments => alignments.contains (Alignment.ofBonus (b.timeAt l flat).lawfulBonus)
  | timeOfDay flat ids => ids.contains (b.timeAt l flat).id

end PlaceTest
end Muster
