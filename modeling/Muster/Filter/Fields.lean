/-
# The fields of a query

The attributes of a query are single tests of its subject.  An absent field asks
nothing, and neither does a list-valued field without items.  A numeric field
that cannot be read stands for -1, the number of a side for -999.

The tests of a troop come in three groups, since clauses about its location, its
side and its neighbours are asked in between.
-/

import Muster.Filter.Basic
import Muster.ListField

namespace Muster
namespace Query

/-- The test of a list-valued field, if the list has items. -/
def listTest {α : Type} (v : Value) (test : List String → α) : List α :=
  match (ListField.ofValue v).items with
  | [] => []
  | items => [test items]

/-- The test of a field that is used as written. -/
def textTest {α : Type} (v : Value) (test : String → α) : List α := (v.map fun a => test a.text).toList

/-- The test of an integer field. -/
def intTest {α : Type} (v : Value) (test : Int64 → α) : List α :=
  (v.map fun a => test (Value.toInt (some a) (-1))).toList

/-- The test of a field that is a truth value, false where it cannot be read. -/
def boolTest {α : Type} (v : Value) (test : Bool → α) : List α :=
  (v.map fun a => test (Value.toBool (some a) false)).toList

/-- The tests of a troop that come first. -/
def identityTests (get : String → Value) : List TroopTest :=
  textTest (get "name") .name ++ listTest (get "id") .id ++ textTest (get "speaker") .speaker

/-- The test of the coordinates of a troop: both `recall` asks for a troop off the
map, and two empty ones are met by none. -/
def coordinateTests (x y : Value) : List TroopTest :=
  if x.isNone && y.isNone then []
  else if x.prints "recall" && y.prints "recall" then [.recalled]
  else if x.isEmpty && y.isEmpty then [.nowhere]
  else [.coordinates x.text y.text]

/-- The tests of a troop that come after its location and its side. -/
def traitTests (get : String → Value) : List TroopTest :=
  coordinateTests (get "x") (get "y") ++ listTest (get "type") .type ++
    listTest (get "variation") .variation ++ listTest (get "has_variation") .hasVariation ++
    listTest (get "ability") .ability ++ listTest (get "race") .race ++
    textTest (get "gender") (fun s => .gender (Gender.ofText s)) ++
    listTest (get "side") (.side ((get "side").toInt (-999))) ++
    textTest (get "has_weapon") .weapon ++ textTest (get "role") .role ++
    textTest (get "ai_special") (fun s => .guardian (s == "guardian")) ++
    boolTest (get "canrecruit") .canRecruit ++ intTest (get "recall_cost") .recallCost ++
    intTest (get "level") .level ++ intTest (get "defense") .defense ++
    intTest (get "movement_cost") .movement

/-- The tests of a troop that come last. -/
def lookupTests (get : String → Value) : List (Filter .troop) :=
  textTest (get "find_in") (fun path => .troopTest (.listedIn path)) ++
    textTest (get "formula") .formula ++ textTest (get "lua_function") .script

/-- The tests of a side; an unknown controller asks nothing. -/
def teamTests (get : String → Value) : List SideTest :=
  textTest (get "side") (fun s => SideTest.number (.parse s)) ++
    listTest (get "team_name") SideTest.teamName ++
    (((get "controller").bind fun a => Controller.parse? a.text).map SideTest.controller).toList

/-- The test of the alignments of a list, unknown ones passed over. -/
def alignmentTests (flat : Bool) (v : Value) : List PlaceTest :=
  match (ListField.ofValue v).items.filterMap Alignment.parse? with
  | [] => []
  | alignments => [.alignment flat alignments]

/-- The tests of a place. -/
def placeTests (flat : Bool) (get : String → Value) : List PlaceTest :=
  .coordinates (get "x").text (get "y").text :: listTest (get "terrain") PlaceTest.terrain ++
    alignmentTests flat (get "time_of_day") ++
    listTest (get "time_of_day_id") (PlaceTest.timeOfDay flat)

/-- What a child asks of the neighbours: any direction and one to six of them,
unless it says otherwise. -/
def adjacency (get : String → Value) : Adjacency where
  directions := (get "adjacent").elim Direction.all fun a => Direction.parseList a.text
  hostile := (get "is_enemy").map fun a => Value.toBool (some a) false
  counts := .parse ((get "count").elim "1-6" Scalar.text)

/-- The test of a pattern for the snapshot; one that has variables to say
something about and nothing else is matched against the variables alone. -/
def patternTest (pattern : Config) : TroopTest :=
  match pattern.attributes.isEmpty, pattern.children with
  | true, [("variables", inner)] => .stored inner
  | _, _ => .snapshot pattern

end Query
end Muster
