/-
# Snapshots of troops

A snapshot is a config that shows everything about a troop, so that a pattern can
be matched against it.  The coordinates count from one, and both read `recall`
for a troop that is at no valid location; a variation, a role and the mark of a
guardian are left out where there is none.
-/

import Muster.Troop.Basic

namespace Muster

/-- The config of a weapon. -/
def Attack.snapshot (a : Attack) : Config :=
  .ofAttributes
    [("name", .str a.id), ("range", .str a.range), ("damage", .int a.damage.toInt64),
      ("number", .int a.number.toInt64)]

namespace Troop

/-- The attributes that every snapshot has. -/
def commonAttributes (t : Troop) : List (String × Scalar) :=
  [("id", .str t.id), ("underlying_id", .int t.uid.signed), ("name", .str t.name), ("type", .str t.type),
    ("race", .str t.race), ("side", .int t.side.toInt64), ("gender", .str t.gender.name),
    ("canrecruit", .bool t.canRecruit), ("recall_cost", .int t.recallCost), ("level", .int t.level),
    ("hitpoints", .int t.hitpoints.toInt64), ("max_hitpoints", .int t.maxHitpoints.toInt64),
    ("experience", .int t.experience.toInt64)]

/-- The attributes that only some snapshots have. -/
def optionalAttributes (t : Troop) : List (String × Scalar) :=
  (if t.variation.isEmpty then [] else [("variation", .str t.variation)]) ++
    (if t.role.isEmpty then [] else [("role", .str t.role)]) ++
    if t.isGuardian then [("ai_special", .str "guardian")] else []

/-- The attributes that tell where the troop stands. -/
def placeAttributes (t : Troop) : List (String × Scalar) :=
  if t.location.isValid then
    [("x", .int (Int64.ofInt (t.location.x + 1))), ("y", .int (Int64.ofInt (t.location.y + 1)))]
  else [("x", .str "recall"), ("y", .str "recall")]

/-- The child that lists the abilities, each by a child of its own name. -/
def abilitiesSnapshot (t : Troop) : Config :=
  .node Table.empty (t.abilities.map fun a => (a, .ofAttributes [("id", .str a)]))

/-- The config that shows a troop. -/
def snapshot (t : Troop) : Config :=
  .node (Table.ofList (t.commonAttributes ++ t.optionalAttributes ++ t.placeAttributes))
    (t.attacks.map (fun a => ("attack", a.snapshot)) ++
      (if t.abilities.isEmpty then [] else [("abilities", t.abilitiesSnapshot)]) ++
      [("variables", t.variables)])

end Troop
end Muster
