/-
# The clauses of a query

The children of a query are queries of their own, and their tags say what they
are about:

| query about | tag | child query about | clause |
| --- | --- | --- | --- |
| any | `and`, `or`, `not` | the same | a conditional |
| a troop | `filter_location` | a place | `standing`, at most once |
| a troop | `filter_side` | a side | `ofSide`, at most once |
| a troop | `filter_adjacent` | a troop | `adjacent` |
| a troop | `filter_vision` | a side | `seen`, the viewers being the sides that pass |
| a troop | `filter_wml` | none | a pattern for the snapshot |
| a side | `enemy_of`, `allied_with` | a side | `enemyOf`, `alliedWith`, the last one counts |
| a side | `has_unit` | a troop | `hasTroop`, the last one counts |
| a place | `filter` | a troop | `occupied`, at most once |

Other tags are passed over.
-/

import Muster.Filter.Fields

namespace Muster

/-- The part that a child query plays in a query over another subject, or over
the same one. -/
inductive Part : Subject → Subject → Type where
  | conditional {s : Subject} (c : Conditional) : Part s s
  | location : Part .troop .place
  | side : Part .troop .side
  | adjacent : Part .troop .troop
  | vision : Part .troop .side
  | enemyOf : Part .side .side
  | alliedWith : Part .side .side
  | hasTroop : Part .side .troop
  | occupant : Part .place .troop

/-- What a tag means in a query over a subject. -/
inductive TagMeaning (s : Subject) where
  | ignored
  /-- The child is no query, and makes a test by itself. -/
  | pattern (test : Config → Filter s)
  /-- The child is a query. -/
  | part (inner : Subject) (p : Part s inner)

namespace TagMeaning

/-- The meaning of a tag that is no conditional. -/
def ofOwnTag : (s : Subject) → String → TagMeaning s
  | .troop, "filter_location" => part _ .location
  | .troop, "filter_side" => part _ .side
  | .troop, "filter_adjacent" => part _ .adjacent
  | .troop, "filter_vision" => part _ .vision
  | .troop, "filter_wml" => pattern fun child => .troopTest (Query.patternTest child)
  | .side, "enemy_of" => part _ .enemyOf
  | .side, "allied_with" => part _ .alliedWith
  | .side, "has_unit" => part _ .hasTroop
  | .place, "filter" => part _ .occupant
  | _, _ => ignored

/-- The meaning of a tag. -/
def ofTag (s : Subject) (tag : String) : TagMeaning s :=
  match Conditional.ofTag? tag with
  | some c => part _ (.conditional c)
  | none => ofOwnTag s tag

end TagMeaning

/-- The place of a clause among the own tests of a filter. -/
inductive Slot where
  | location
  | side
  | pattern
  | vision
  | adjacent
  | enemyOf
  | alliedWith
  | hasTroop
  | occupant
deriving DecidableEq

/-- A compiled child. -/
inductive Clause (s : Subject) where
  | conditional (c : Conditional) (f : Filter s)
  | own (slot : Slot) (f : Filter s)

namespace Clause

variable {m : Type → Type} [Monad m] {s : Subject}

/-- The clause that a compiled child query makes; `get` looks up the child's own
fields.  The viewers of a vision clause are found here and now. -/
def ofPart (S : Setting m) (get : String → Value) :
    {s inner : Subject} → Part s inner → Filter inner → m (Clause s)
  | _, _, .conditional c, f => return conditional c f
  | _, _, .location, f => return own .location (.standing f)
  | _, _, .side, f => return own .side (.ofSide f)
  | _, _, .adjacent, f => return own .adjacent (.adjacent (Query.adjacency get) f)
  | _, _, .vision, f => do
    let viewers ← f.sidesIn S
    return own .vision (.troopTest (.seen viewers ((get "visible").toBool true)))
  | _, _, .enemyOf, f => return own .enemyOf (.enemyOf f)
  | _, _, .alliedWith, f => return own .alliedWith (.alliedWith f)
  | _, _, .hasTroop, f => return own .hasTroop (.hasTroop f)
  | _, _, .occupant, f => return own .occupant (.occupied f)

/-- The filters in a slot, in document order. -/
def inSlot (slot : Slot) (cs : List (Clause s)) : List (Filter s) :=
  cs.filterMap fun
    | own slot' f => if slot' = slot then some f else none
    | conditional _ _ => none

/-- The last filter in a slot, if there is one. -/
def lastInSlot (slot : Slot) (cs : List (Clause s)) : List (Filter s) :=
  (inSlot slot cs).getLast?.toList

/-- Join the conditionals to a filter, in document order. -/
def joinConditionals : Filter s → List (Clause s) → Filter s
  | f, [] => f
  | f, conditional c g :: cs => joinConditionals (.joined c f g) cs
  | f, own _ _ :: cs => joinConditionals f cs

end Clause
end Muster
