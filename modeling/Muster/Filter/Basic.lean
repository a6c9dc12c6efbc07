/-
# Filters

A filter answers yes or no about a subject: a troop at a location, a side, or a
place.  Filters over different subjects contain each other:

| filter | holds of | when |
| --- | --- | --- |
| `standing f` | a troop | its location passes `f` |
| `ofSide f` | a troop | its side passes `f` |
| `adjacent a f` | a troop | as many neighbours as `a` asks for pass `f` |
| `enemyOf f` | a side | some sides pass `f`, and all of them are enemies |
| `alliedWith f` | a side | some sides pass `f`, and none of them is an enemy |
| `hasTroop f` | a side | one of its troops on the map passes `f` |
| `occupied f` | a place | a troop is there and passes `f` |

`ask` is the meaning of a filter in any setting, and `run` its meaning in a
context.  `both` stops at the first test that fails; `joined` always asks its
second filter.  A troop is bound to `this_unit` for the duration of its own tests
(`bound`), unless its location is invalid.
-/

import Muster.Filter.Conditional
import Muster.Filter.Context
import Muster.Filter.Test

namespace Muster

/-- What a filter is about. -/
inductive Subject where
  | troop
  | side
  | place
deriving DecidableEq

namespace Subject

/-- What a filter over the subject is asked about. -/
abbrev Candidate : Subject → Type
  | troop => Troop × Location
  | side => Int32
  | place => Location

end Subject

/-- Which neighbours of a troop are counted, and how many there must be. -/
structure Adjacency where
  directions : List Direction
  /-- Whether a neighbour must be an enemy, or must not be one. -/
  hostile : Option Bool
  counts : RangeSet

/-- A compiled query over a subject. -/
inductive Filter : Subject → Type where
  /-- Everything passes. -/
  | pass {s : Subject} : Filter s
  /-- Passes both filters; the second is asked only where the first passes. -/
  | both {s : Subject} (first second : Filter s) : Filter s
  /-- The verdict of the first filter joined with that of the second. -/
  | joined {s : Subject} (c : Conditional) (sofar next : Filter s) : Filter s
  | troopTest (test : TroopTest) : Filter .troop
  | sideTest (test : SideTest) : Filter .side
  | placeTest (test : PlaceTest) : Filter .place
  /-- A formula says so. -/
  | formula (text : String) : Filter .troop
  /-- A script says so. -/
  | script (name : String) : Filter .troop
  /-- Passes while the troop is bound to `this_unit`. -/
  | bound (own : Filter .troop) : Filter .troop
  | standing (f : Filter .place) : Filter .troop
  | ofSide (f : Filter .side) : Filter .troop
  | adjacent (a : Adjacency) (f : Filter .troop) : Filter .troop
  /-- Has a team, and passes. -/
  | teamed (f : Filter .side) : Filter .side
  | enemyOf (f : Filter .side) : Filter .side
  | alliedWith (f : Filter .side) : Filter .side
  | hasTroop (f : Filter .troop) : Filter .side
  /-- Lies on the map, and passes. -/
  | onMap (f : Filter .place) : Filter .place
  | occupied (f : Filter .troop) : Filter .place

namespace Filter

section

variable {m : Type → Type} [Monad m]

/-- The verdict of a filter on a candidate, in any setting. -/
def ask (S : Setting m) : {s : Subject} → Filter s → s.Candidate → m Bool
  | _, pass, _ => return true
  | _, both first second, x => do
    if ← ask S first x then ask S second x else return false
  | _, joined c sofar next, x => do
    let before ← ask S sofar x
    let verdict ← ask S next x
    return c.join before verdict
  | _, troopTest test, (t, l) => return test.holds S.toBoard t l
  | _, sideTest test, side => return (S.team? side).any (test.holds ·)
  | _, placeTest test, l => return test.holds S.toBoard l
  | _, formula text, (t, l) => S.formula text l t
  | _, script name, (t, _) => S.script name t
  | _, bound own, (t, l) => S.testing t l (ask S own (t, l))
  | _, standing f, (_, l) => ask S f l
  | _, ofSide f, (t, _) => ask S f t.side
  | _, adjacent a f, (t, l) => do
    let neighbors := a.directions.filterMap fun d => S.roster.at? (l.neighbor d)
    let passing ← Run.select (fun n => ask S f (n, n.location)) neighbors
    let counted := passing.filter fun n => a.hostile.all (S.isHostile t n.side == ·)
    return a.counts.contains counted.length
  | _, teamed f, side => if (S.team? side).isSome then ask S f side else return false
  | _, enemyOf f, side => do
    let others ← Run.select (ask S f) (S.teams.map Team.side)
    return !others.isEmpty && (S.team? side).any fun team => others.all team.isEnemy
  | _, alliedWith f, side => do
    let others ← Run.select (ask S f) (S.teams.map Team.side)
    return !others.isEmpty && (S.team? side).any fun team => !others.any team.isEnemy
  | _, hasTroop f, side => do
    let found ← Run.first? (fun t => ask S f (t, t.location)) (S.roster.troops.filter (·.side == side))
    return found.isSome
  | _, onMap f, l => if S.map.holds l then ask S f l else return false
  | _, occupied f, l =>
    match S.roster.at? l with
    | some t => ask S f (t, t.location)
    | none => return false

/-- The sides that pass in a setting, ascending; a number that several teams have
comes as often. -/
def sidesIn (S : Setting m) (f : Filter .side) : m (List Int32) := do
  let passing ← Run.select (f.ask S) (S.teams.map Team.side)
  return passing.mergeSort fun a b => decide (a ≤ b)

end

variable {σ : Type}

/-- The verdict of a filter on a candidate. -/
def run (ctx : Context σ) {s : Subject} (f : Filter s) (x : s.Candidate) : Run σ Bool := f.ask ctx.setting x

/-- The filter that asks the given ones in order, up to the first that fails. -/
def all {s : Subject} (fs : List (Filter s)) : Filter s := fs.foldr both pass

/-- Whether this is the filter of an empty query. -/
def isNull {s : Subject} : Filter s → Bool
  | pass => true
  | _ => false

/-- The sides that pass, ascending; a number that several teams have comes as often. -/
def sides (ctx : Context σ) (f : Filter .side) : Run σ (List Int32) := f.sidesIn ctx.setting

/-- The places of the map that pass, row by row. -/
def places (ctx : Context σ) (f : Filter .place) : Run σ (List Location) :=
  Run.select (f.run ctx) ctx.map.locations

/-- The verdict on a troop as if it stood at a location. -/
def matchesAt (ctx : Context σ) (f : Filter .troop) (t : Troop) (l : Location) : Run σ Bool :=
  f.run ctx (t, l)

/-- The verdict on a troop where it stands. -/
def matchesTroop (ctx : Context σ) (f : Filter .troop) (t : Troop) : Run σ Bool :=
  f.matchesAt ctx t t.location

/-- The troops on the map that pass, in the order of the roster. -/
def allOnMap (ctx : Context σ) (f : Filter .troop) : Run σ (List Troop) :=
  Run.select (f.matchesTroop ctx) ctx.roster.troops

/-- The first troop on the map that passes. -/
def firstOnMap (ctx : Context σ) (f : Filter .troop) : Run σ (Option Troop) :=
  Run.first? (f.matchesTroop ctx) ctx.roster.troops

end Filter
end Muster
