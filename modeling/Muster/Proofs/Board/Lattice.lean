/-
# The hexagonal lattice

Odd columns are shifted half a hex down, so by how many rows a step leads up or down depends
on the column it is made from.  Measured in half hexes it does not: if the hex at column `x`
and row `y` is put at `(x, 2y + x mod 2)` in the plane, a step adds the same vector
everywhere (`plane_neighbor`):

| direction | vector | direction | vector |
| --- | --- | --- | --- |
| `n` | (0, -2) | `s` | (0, 2) |
| `ne` | (1, -1) | `sw` | (-1, 1) |
| `se` | (1, 1) | `nw` | (-1, -1) |

Different hexes are at different places of the plane (`plane_inj`), so every law of the six
vectors is a law of steps.  A walk adds the sum of its vectors (`plane_walk`), and a sum does
not depend on the order of its terms (`walk_perm`).
-/

import Mathlib.Algebra.BigOperators.Group.List.Basic
import Mathlib.Algebra.Group.Prod
import Mathlib.Algebra.Ring.Int.Defs
import Muster.Location

namespace Muster

namespace Direction

/-- The next direction clockwise. -/
def clockwise : Direction → Direction
  | north => northEast
  | northEast => southEast
  | southEast => south
  | south => southWest
  | southWest => northWest
  | northWest => north

/-- By how many columns and half hexes a step leads on. -/
def vector : Direction → Int × Int
  | north => (0, -2)
  | northEast => (1, -1)
  | southEast => (1, 1)
  | south => (0, 2)
  | southWest => (-1, 1)
  | northWest => (-1, -1)

variable {d e : Direction}

/-- Different directions have different vectors. -/
theorem vector_inj : d.vector = e.vector ↔ d = e := by
  refine ⟨fun h => ?_, fun h => h ▸ rfl⟩
  cases d <;> cases e <;> first | rfl | exact absurd h (by decide)

/-- No direction stays where it is. -/
theorem vector_ne_zero (d : Direction) : d.vector ≠ 0 := by cases d <;> decide

/-- **The opposite direction** leads back by the same vector. -/
theorem vector_opposite (d : Direction) : d.opposite.vector = -d.vector := by cases d <;> rfl

/-- **Two directions with one in between** lead on as far as the one in between. -/
theorem vector_add_clockwise (d : Direction) : d.vector + d.clockwise.clockwise.vector = d.clockwise.vector := by
  cases d <;> rfl

end Direction

namespace Location

/-- The place of a hex in the plane, in columns and half hexes. -/
def plane (l : Location) : Int × Int := (l.x, 2 * l.y + l.shift)

/-- The hex at the end of several steps. -/
def walk (l : Location) (ds : List Direction) : Location := ds.foldl neighbor l

variable {l m : Location} {d e : Direction}

/-- **Different hexes are at different places.** -/
theorem plane_inj : l.plane = m.plane ↔ l = m := by
  refine ⟨fun h => ?_, fun h => h ▸ rfl⟩
  obtain ⟨x, y⟩ := l
  obtain ⟨x', y'⟩ := m
  obtain ⟨rfl, hy⟩ : x = x' ∧ 2 * y + x % 2 = 2 * y' + x' % 2 := Prod.ext_iff.1 h
  obtain rfl : y = y' := by omega
  rfl

/-- **A step adds its vector,** from whatever column it is made. -/
theorem plane_neighbor (l : Location) (d : Direction) : (l.neighbor d).plane = l.plane + d.vector := by
  obtain ⟨x, y⟩ := l
  refine Prod.ext ?_ ?_
  · cases d <;> simp [plane, neighbor, Direction.vector] <;> omega
  · cases d <;> simp [plane, neighbor, Direction.vector, shift] <;> omega

/-- **A walk adds the vectors of its steps.** -/
theorem plane_walk (l : Location) (ds : List Direction) : (l.walk ds).plane = l.plane + (ds.map Direction.vector).sum := by
  induction ds generalizing l with
  | nil => simp [walk]
  | cons d ds ih =>
    have hrest : (l.walk (d :: ds)).plane = (l.neighbor d).plane + (ds.map Direction.vector).sum := ih (l.neighbor d)
    rw [hrest, plane_neighbor, List.map_cons, List.sum_cons, add_assoc]

/-! ### Steps -/

/-- **Different directions lead to different neighbours.** -/
theorem neighbor_inj : l.neighbor d = l.neighbor e ↔ d = e := by
  rw [← plane_inj, plane_neighbor, plane_neighbor, add_right_inj, Direction.vector_inj]

/-- No hex is its own neighbor. -/
theorem neighbor_ne (l : Location) (d : Direction) : l.neighbor d ≠ l := by
  rw [Ne, ← plane_inj, plane_neighbor, add_eq_left]
  exact d.vector_ne_zero

/-- **The opposite direction leads back.** -/
theorem neighbor_opposite (l : Location) (d : Direction) : (l.neighbor d).neighbor d.opposite = l := by
  rw [← plane_inj, plane_neighbor, plane_neighbor, Direction.vector_opposite, add_neg_cancel_right]

/-- **Steps commute.** -/
theorem neighbor_comm (l : Location) (d e : Direction) : (l.neighbor d).neighbor e = (l.neighbor e).neighbor d := by
  simp only [← plane_inj, plane_neighbor]
  exact add_right_comm ..

/-- **Three neighbours around a corner:** a step and the one after the next clockwise come
to where the one in between leads. -/
theorem neighbor_clockwise (l : Location) (d : Direction) :
    (l.neighbor d).neighbor d.clockwise.clockwise = l.neighbor d.clockwise := by
  rw [← plane_inj, plane_neighbor, plane_neighbor, plane_neighbor, add_assoc, Direction.vector_add_clockwise]

/-- Different directions lead to different neighbors. -/
theorem nodup_map_neighbor (l : Location) {ds : List Direction} (h : ds.Nodup) : (ds.map l.neighbor).Nodup :=
  List.pairwise_map.2 (h.imp fun hne heq => hne (neighbor_inj.1 heq))

/-- The neighbors are what the six directions lead to. -/
theorem mem_neighbors : m ∈ l.neighbors ↔ ∃ d, l.neighbor d = m := by
  simp [neighbors, Direction.mem_all]

/-- **Neighbours are mutual.** -/
theorem mem_neighbors_comm : m ∈ l.neighbors ↔ l ∈ m.neighbors := by
  have back : ∀ {l m : Location}, m ∈ l.neighbors → l ∈ m.neighbors := by
    intro l m h
    obtain ⟨d, rfl⟩ := mem_neighbors.1 h
    exact mem_neighbors.2 ⟨d.opposite, l.neighbor_opposite d⟩
  exact ⟨back, back⟩

/-! ### Walks -/

/-- **Where a walk ends** does not depend on the order of its steps. -/
theorem walk_perm (l : Location) {ds es : List Direction} (h : ds.Perm es) : l.walk ds = l.walk es := by
  rw [← plane_inj, plane_walk, plane_walk, (h.map Direction.vector).sum_eq]

/-- **Neighbours form the hexagonal lattice,** around every location.  The opposite direction
leads back, steps commute, and a step followed by the one two places clockwise leads to where
the one between them does.  The six neighbours differ from each other and from the location.
So neighbours are mutual, and where a walk ends depends only on how often it goes in each
direction. -/
theorem hexagonal_lattice (l : Location) :
    (∀ d, (l.neighbor d).neighbor d.opposite = l) ∧
      (∀ d e, (l.neighbor d).neighbor e = (l.neighbor e).neighbor d) ∧
      (∀ d, (l.neighbor d).neighbor d.clockwise.clockwise = l.neighbor d.clockwise) ∧
      (l.neighbors.length = 6 ∧ l.neighbors.Nodup ∧ l ∉ l.neighbors) ∧
      (∀ m, m ∈ l.neighbors ↔ l ∈ m.neighbors) ∧
      ∀ ds es, (∀ d : Direction, ds.count d = es.count d) → l.walk ds = l.walk es := by
  refine ⟨l.neighbor_opposite, l.neighbor_comm, l.neighbor_clockwise, ⟨rfl, l.nodup_map_neighbor (by decide), ?_⟩,
    fun m => mem_neighbors_comm, fun ds es h => l.walk_perm (List.perm_iff_count.2 h)⟩
  intro hmem
  obtain ⟨d, hd⟩ := mem_neighbors.1 hmem
  exact l.neighbor_ne d hd

/-- What `hexagonal_lattice` says of two walks from an odd column left of the map: they pass
through different hexes and end at the same one. -/
theorem hexagonal_lattice_detour :
    (∀ d, [Direction.northEast, .northEast, .south, .northWest].count d =
        [Direction.south, .northWest, .northEast, .northEast].count d) ∧
      (⟨-3, 0⟩ : Location).walk [.northEast, .northEast, .south, .northWest] =
        (⟨-3, 0⟩ : Location).walk [.south, .northWest, .northEast, .northEast] ∧
      (⟨-3, 0⟩ : Location).walk [.northEast, .northEast, .south, .northWest] = ⟨-2, 0⟩ := by
  obtain ⟨-, -, -, -, -, hwalk⟩ := hexagonal_lattice ⟨-3, 0⟩
  have hcount : ∀ d, [Direction.northEast, .northEast, .south, .northWest].count d =
      [Direction.south, .northWest, .northEast, .northEast].count d := fun d => by cases d <;> rfl
  exact ⟨hcount, hwalk _ _ hcount, by decide⟩

end Location
end Muster
