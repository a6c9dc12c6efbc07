/-
# Terrain grids

The map is a rectangle of terrain codes, stored row by row: the code of column
`x` in row `y` is at position `y · width + x`.  Outside it every location has
the code `_off^_usr`.

Sides, area and positions are signed 32-bit numbers.  A grid carries the bound on its
size, so the positions of its tiles are such numbers too; of a size whose area does not
fit there is no grid.
-/

import Muster.Location
import Muster.Text.Wildcard

namespace Muster

/-- The terrain code outside every map. -/
def offMapTerrain : String := "_off^_usr"

namespace Grid

/-- A size that a grid can have: its sides and its area fit a signed 32-bit integer. -/
structure IsSize (width height : Nat) : Prop where
  width_lt : width < 0x80000000
  height_lt : height < 0x80000000
  area_lt : width * height < 0x80000000

/-- The bounds on a size, as one condition that can be computed. -/
theorem isSize_iff {width height : Nat} :
    IsSize width height ↔ width < 0x80000000 ∧ height < 0x80000000 ∧ width * height < 0x80000000 :=
  ⟨fun ⟨hwidth, hheight, harea⟩ => ⟨hwidth, hheight, harea⟩, fun ⟨hwidth, hheight, harea⟩ => ⟨hwidth, hheight, harea⟩⟩

/-- Whether a grid can have a size is decided by the bounds. -/
instance (width height : Nat) : Decidable (IsSize width height) := decidable_of_iff' _ isSize_iff

end Grid

/-- A rectangle of terrain codes, row by row, of a size that a grid can have. -/
structure Grid where
  width : Nat
  height : Nat
  isSize : Grid.IsSize width height
  tiles : Vector String (width * height)

namespace Grid

/-- The grid of a size whose code at a column and a row is given. -/
def ofFn {width height : Nat} (h : IsSize width height) (code : Nat → Nat → String) : Grid :=
  ⟨width, height, h, Vector.ofFn fun i => code (i % width) (i / width)⟩

/-- The grid without locations. -/
def empty : Grid := ofFn (show IsSize 0 0 by decide) fun _ _ => offMapTerrain

/-- A grid of one terrain, if there can be one of that size; a negative side counts as zero. -/
def filled? (width height : Int) (code : String) : Option Grid :=
  if h : IsSize width.toNat height.toNat then some (ofFn h fun _ _ => code) else none

/-- A grid of one terrain, the empty one where none can have the size. -/
def filled (width height : Int) (code : String) : Grid := (filled? width height code).getD empty

/-- The code at a position of a row, which repeats its last code without end; an
empty row has none. -/
def rowCode (row : List String) (x : Nat) : String := (row[x]?.or row.getLast?).getD offMapTerrain

/-- The length of the longest row. -/
def longest (rows : List (List String)) : Nat := (rows.map List.length).max?.getD 0

/-- The grid of the given rows, as wide as the longest, if there can be one of that size. -/
def ofRows? (rows : List (List String)) : Option Grid :=
  if h : IsSize (longest rows) rows.length then
    some (ofFn h fun x y => rowCode (rows[y]?.getD []) x)
  else none

/-- The grid of the given rows, the empty one where none can have their size. -/
def ofRows (rows : List (List String)) : Grid := (ofRows? rows).getD empty

/-- Whether a location lies on the grid. -/
def holds (g : Grid) (l : Location) : Bool :=
  0 ≤ l.x && l.x < g.width && 0 ≤ l.y && l.y < g.height

/-- The position of the code of a location. -/
def position (g : Grid) (l : Location) : Nat := l.y.toNat * g.width + l.x.toNat

/-- A location of the grid has its tile within the area. -/
theorem position_lt {g : Grid} {l : Location} (h : g.holds l = true) :
    g.position l < g.width * g.height := by
  simp only [holds, Bool.and_eq_true, decide_eq_true_eq] at h
  have hy : l.y.toNat + 1 ≤ g.height := by omega
  have hx : l.x.toNat < g.width := by omega
  calc g.position l < l.y.toNat * g.width + g.width := Nat.add_lt_add_left hx _
    _ = g.width * (l.y.toNat + 1) := by rw [Nat.mul_add, Nat.mul_one, Nat.mul_comm]
    _ ≤ g.width * g.height := Nat.mul_le_mul_left _ hy

/-- The code of a location. -/
def terrain (g : Grid) (l : Location) : String :=
  if h : g.holds l = true then g.tiles.get ⟨g.position l, position_lt h⟩ else offMapTerrain

/-- The grid with another code at a location, if that lies on it. -/
def set? (g : Grid) (l : Location) (code : String) : Option Grid :=
  if h : g.holds l = true then some { g with tiles := g.tiles.set (g.position l) code (position_lt h) }
  else none

/-- Every location of the grid, row by row. -/
def locations (g : Grid) : List Location :=
  (List.range g.height).flatMap fun y => (List.range g.width).map fun x => ⟨(x : Nat), (y : Nat)⟩

end Grid
end Muster
