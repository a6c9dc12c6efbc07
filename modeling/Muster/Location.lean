/-
# Hex locations

A location is a column and a row, counted from zero; odd columns are shifted
half a hex down, so the step to a neighbour depends on the parity of the column:

| direction | even column | odd column |
| --- | --- | --- |
| `n`, `s` | (0, -1), (0, 1) | (0, -1), (0, 1) |
| `ne`, `nw` | (±1, -1) | (±1, 0) |
| `se`, `sw` | (±1, 0) | (±1, 1) |

What is read and shown counts from one.  Troops that stand nowhere on the map
are at the location *off map*, both of whose coordinates are negative.
-/

import Muster.Direction
import Muster.Text.Numeral

namespace Muster

/-- A column and a row, counted from zero. -/
structure Location where
  x : Int
  y : Int
deriving DecidableEq

namespace Location

/-- The location of the hex with the given column and row counted from one. -/
def ofOneBased (x y : Int) : Location := ⟨x - 1, y - 1⟩

/-- Where troops in reserve are. -/
def offMap : Location := ⟨-1000, -1000⟩

instance : Inhabited Location := ⟨offMap⟩

/-- Whether both coordinates are at least zero; a valid location may still lie
off a given map. -/
def isValid (l : Location) : Bool := 0 ≤ l.x && 0 ≤ l.y

/-- 1 in an odd column, 0 in an even one. -/
def shift (l : Location) : Int := l.x % 2

/-- The neighbour in a direction. -/
def neighbor (l : Location) : Direction → Location
  | .north => ⟨l.x, l.y - 1⟩
  | .northEast => ⟨l.x + 1, l.y - 1 + l.shift⟩
  | .southEast => ⟨l.x + 1, l.y + l.shift⟩
  | .south => ⟨l.x, l.y + 1⟩
  | .southWest => ⟨l.x - 1, l.y + l.shift⟩
  | .northWest => ⟨l.x - 1, l.y - 1 + l.shift⟩

/-- The six neighbours, clockwise from north. -/
def neighbors (l : Location) : List Location := Direction.all.map l.neighbor

/-- Locations are ordered by column, then by row. -/
instance : Ord Location := ⟨compareLex (compareOn Location.x) (compareOn Location.y)⟩

instance : Std.TransOrd Location :=
  inferInstanceAs (Std.TransCmp (compareLex (compareOn Location.x) (compareOn Location.y)))

instance : Std.LawfulEqOrd Location where
  eq_of_compare {a b} h := by
    have h : compareLex (compareOn Location.x) (compareOn Location.y) a b = .eq := h
    simp only [compareLex, Ordering.then_eq_eq, compareOn, Std.LawfulEqOrd.compare_eq_iff_eq] at h
    cases a; cases b; simp_all

/-- The column and the row counted from one. -/
def text (l : Location) : String :=
  String.ofList (Text.Numerals.write (l.x + 1) ++ ',' :: Text.Numerals.write (l.y + 1))

end Location
end Muster
