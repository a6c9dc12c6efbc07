/-
# Compass directions

The six directions of a hex, clockwise from north.  A direction is named by one
of `n`, `ne`, `se`, `s`, `sw`, `nw`, and each minus in front of the name turns
it around; blanks may stand at either end and around each minus.
-/

import Muster.Text.Pieces

namespace Muster

open Text

/-- One of the six neighbours of a hex, clockwise from north. -/
inductive Direction where
  | north
  | northEast
  | southEast
  | south
  | southWest
  | northWest
deriving DecidableEq

namespace Direction

/-- The six directions, clockwise from north. -/
def all : List Direction := [north, northEast, southEast, south, southWest, northWest]

/-- The direction that leads back. -/
def opposite : Direction → Direction
  | north => south
  | northEast => southWest
  | southEast => northWest
  | south => north
  | southWest => northEast
  | northWest => southEast

theorem mem_all (d : Direction) : d ∈ all := by cases d <;> decide

@[simp] theorem opposite_opposite (d : Direction) : d.opposite.opposite = d := by cases d <;> rfl

/-- The written name. -/
def name : Direction → String
  | north => "n"
  | northEast => "ne"
  | southEast => "se"
  | south => "s"
  | southWest => "sw"
  | northWest => "nw"

/-- The direction of a name. -/
def named? (s : String) : Option Direction := all.find? (·.name == s)

@[simp] theorem named?_name (d : Direction) : named? d.name = some d := by cases d <;> decide

/-- Whether a character may stand between the signs in front of a name. -/
def isLead (c : Char) : Bool := c == '-' || isBlank c

/-- Read a direction: a name behind any number of minus signs, an odd number of
which turns it around. -/
def parse? (s : String) : Option Direction :=
  let body := trim s.toList
  let named := named? (String.ofList (body.dropWhile isLead))
  if (body.takeWhile isLead).count '-' % 2 = 0 then named else named.map opposite

/-- The directions of a comma list, items that are none passed over. -/
def parseList (s : String) : List Direction := (splitList s).filterMap parse?

end Direction
end Muster
