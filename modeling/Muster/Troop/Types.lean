/-
# Troop types

A type lists its variations.  A type that is itself a variation of another names
that one as its base, and every other type names itself.
-/

import Muster.Table

namespace Muster

/-- A troop type. -/
structure TroopType where
  id : String
  base : String := id
  race : String := ""
  variations : List String := []
deriving DecidableEq

namespace TroopType

/-- Whether the type lists a variation. -/
def hasVariation (t : TroopType) (variation : String) : Bool := t.variations.contains variation

end TroopType

/-- The known types, by their ids. -/
abbrev TroopTypes := Table String TroopType

namespace TroopTypes

/-- The types with one more, which replaces one of the same id. -/
def add (ts : TroopTypes) (t : TroopType) : TroopTypes := ts.insert t.id t

/-- The type whose variations a troop may have: its own, or the base of its own
type where the troop is a variation. -/
def variationHost? (ts : TroopTypes) (type variation : String) : Option TroopType :=
  (ts.get? type).bind fun own => if variation.isEmpty then some own else ts.get? own.base

end TroopTypes
end Muster
