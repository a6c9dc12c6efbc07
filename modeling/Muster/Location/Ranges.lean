/-
# Coordinate lists

A location is tested against a list of columns and a list of rows, both counted
from one.  The pieces between commas are paired by position, the shorter list
being filled up with empty pieces, and one pair that fits is enough.

| piece | coordinates |
| --- | --- |
| empty | any |
| `4` | 4 |
| `2-5` | 2 to 5, none if the bounds are reversed |

A number that cannot be read counts as 0, which no location on a map has.
-/

import Muster.Location
import Muster.Text.Pieces

namespace Muster
namespace Location

open Text

/-- The number that a bound stands for. -/
def bound (cs : List Char) : Int := (Numerals.int32.read? cs).getD 0

/-- Whether a coordinate counted from zero fits one piece of a coordinate list. -/
def coordinateFits (n : Int) (piece : List Char) : Bool :=
  let piece := trim piece
  if piece.isEmpty then true
  else
    match piece.dropWhile (· ≠ '-') with
    | [] => bound piece = n + 1
    | _ :: upper => bound (trim (piece.takeWhile (· ≠ '-'))) ≤ n + 1 && n + 1 ≤ bound (trim upper)

/-- The members of two lists paired by position, the shorter list filled up. -/
def pairUp {α : Type} (filler : α) : List α → List α → List (α × α)
  | [], ys => ys.map fun y => (filler, y)
  | x :: xs, [] => (x, filler) :: pairUp filler xs []
  | x :: xs, y :: ys => (x, y) :: pairUp filler xs ys

/-- Whether the location fits a list of columns and a list of rows. -/
def fits (l : Location) (columns rows : String) : Bool :=
  (pairUp [] (commaPieces columns) (commaPieces rows)).any fun p =>
    coordinateFits l.x p.1 && coordinateFits l.y p.2

end Location
end Muster
