/-
# Terrain grids as tables

A grid keeps its codes in one row of tiles.  The location at column `x` and row `y` has the
tile at position `y · width + x`, and on the grid no two locations share a tile
(`position_inj`).  So setting a code changes the terrain at one location
(`terrain_of_set?`), and after several settings a location has the last code that was set
there, or its first one (`terrain_paintAll`).

Rows are laid out code by code on a grid of another terrain.  That this gives every
location the code of its row (`paintAll_rowPaints`) is a case of the same law.

Of a size that fits there is a grid of given rows, and one of each terrain (`exists_ofRows?`,
`exists_filled?`).  It carries the bound from then on, so a position never needs more than 32
bits (`position_small`).
-/

import Mathlib.Data.List.Basic
import Mathlib.Data.List.Nodup
import Muster.Grid

namespace Muster

/-- A terrain code and the location to set it at. -/
structure Paint where
  location : Location
  code : String

namespace Grid

/-- The grid after a setting, which does nothing off the grid. -/
def paint (g : Grid) (p : Paint) : Grid := (g.set? p.location p.code).getD g

/-- The grid after several settings. -/
def paintAll (g : Grid) (ps : List Paint) : Grid := ps.foldl paint g

/-- The code of the last setting at a location. -/
def lastCode? (ps : List Paint) (l : Location) : Option String :=
  ((ps.filter fun p => decide (p.location = l)).getLast?).map Paint.code

/-- The settings by which rows are laid out in a given width, one row after the other. -/
def rowPaints (rows : List (List String)) (width : Nat) : List Paint :=
  rows.zipIdx.flatMap fun r => (List.range width).map fun x => ⟨⟨(x : Nat), (r.2 : Nat)⟩, rowCode r.1 x⟩

/-- A grid that shows rows of codes: a short row goes on with its last code, and a row without
codes with the one off the grid. -/
structure ShowsRows (g : Grid) (rows : List (List String)) : Prop where
  height : g.height = rows.length
  /-- The grid is as wide as the longest row. -/
  width : g.width = (rows.map List.length).max?.getD 0
  terrain : ∀ (x y : Nat) row, rows[y]? = some row → x < g.width →
    g.terrain ⟨x, y⟩ = (row[x]?.or row.getLast?).getD offMapTerrain
  /-- It is made by laying the rows out on a grid without terrain. -/
  laid : (filled? g.width g.height offMapTerrain).map (paintAll · (rowPaints rows g.width)) = some g

/-- A grid that is a table of codes by location. -/
structure IsTable (g : Grid) : Prop where
  size : IsSize g.width g.height
  tiles : g.tiles.toList.length = g.width * g.height
  inside : ∀ l, g.holds l = true → g.position l < g.tiles.toList.length
  /-- A position is a signed 32-bit integer. -/
  small : ∀ l, g.holds l = true → g.position l < 0x80000000
  apart : ∀ l m, g.holds l = true → g.holds m = true → g.position l = g.position m → l = m
  off : ∀ l, g.holds l = false → g.terrain l = offMapTerrain
  settable : ∀ l code, (g.set? l code).isSome = g.holds l
  set : ∀ l code g', g.set? l code = some g' → ∀ m, g'.terrain m = if m = l then code else g.terrain m
  listed : ∀ l, l ∈ g.locations ↔ g.holds l = true
  once : g.locations.Nodup
  rowByRow : g.locations.Pairwise fun l m => l.y < m.y ∨ l.y = m.y ∧ l.x < m.x

variable {g g' : Grid} {l m : Location} {code : String}

/-! ### Positions -/

/-- A location is on the grid when its column and its row are in range. -/
theorem holds_iff : g.holds l = true ↔ 0 ≤ l.x ∧ l.x < g.width ∧ 0 ≤ l.y ∧ l.y < g.height := by
  simp only [holds, Bool.and_eq_true, decide_eq_true_eq, and_assoc]

/-- For natural coordinates only the upper bounds matter. -/
theorem holds_natCast_iff {x y : Nat} : g.holds ⟨x, y⟩ = true ↔ x < g.width ∧ y < g.height := by
  rw [holds_iff]
  simp

/-- **A location of the grid** is a column and a row in range. -/
theorem exists_of_holds (h : g.holds l = true) : ∃ x y : Nat, l = ⟨x, y⟩ ∧ x < g.width ∧ y < g.height := by
  obtain ⟨hx, hwidth, hy, hheight⟩ := holds_iff.1 h
  obtain ⟨x, y⟩ := l
  obtain ⟨x, rfl⟩ := Int.eq_ofNat_of_zero_le hx
  obtain ⟨y, rfl⟩ := Int.eq_ofNat_of_zero_le hy
  exact ⟨x, y, rfl, Int.ofNat_lt.1 hwidth, Int.ofNat_lt.1 hheight⟩

/-- The position of natural coordinates needs no cast. -/
theorem position_natCast (g : Grid) (x y : Nat) : g.position ⟨x, y⟩ = y * g.width + x := rfl

/-- **A position is a signed 32-bit integer,** as the area of the grid is one. -/
theorem position_small (h : g.holds l = true) : g.position l < 0x80000000 :=
  Nat.lt_trans (position_lt h) g.isSize.area_lt

/-- **Different locations have different tiles.** -/
theorem position_inj (hl : g.holds l = true) (hm : g.holds m = true) : g.position l = g.position m ↔ l = m := by
  refine ⟨fun h => ?_, fun h => h ▸ rfl⟩
  obtain ⟨x, y, rfl, hx, -⟩ := exists_of_holds hl
  obtain ⟨x', y', rfl, hx', -⟩ := exists_of_holds hm
  rw [position_natCast, position_natCast] at h
  -- the column is what the position leaves over after whole rows
  have hcolumn : x = x' := by
    have hmod := congrArg (· % g.width) h
    simpa only [Nat.mul_add_mod_of_lt hx, Nat.mul_add_mod_of_lt hx'] using hmod
  subst hcolumn
  have hrow : y = y' := Nat.eq_of_mul_eq_mul_right (Nat.zero_lt_of_lt hx) (Nat.add_right_cancel h)
  rw [hrow]

/-! ### Terrain -/

/-- On the grid the terrain is the code of the tile. -/
theorem terrain_of_holds (h : g.holds l = true) : g.terrain l = g.tiles.get ⟨g.position l, position_lt h⟩ := dif_pos h

/-- **Off the grid** all terrain has the same code. -/
theorem terrain_of_not_holds (h : g.holds l = false) : g.terrain l = offMapTerrain := by
  rw [terrain, dif_neg (by rw [h]; exact Bool.false_ne_true)]

/-- Every tile shows at some location. -/
theorem get_tiles (g : Grid) {i : Nat} (h : i < g.width * g.height) :
    g.tiles.get ⟨i, h⟩ = g.terrain ⟨(i % g.width : Nat), (i / g.width : Nat)⟩ := by
  have hwidth : 0 < g.width := Nat.pos_of_mul_pos_right (Nat.zero_lt_of_lt h)
  have hholds : g.holds ⟨(i % g.width : Nat), (i / g.width : Nat)⟩ = true :=
    holds_natCast_iff.2 ⟨Nat.mod_lt i hwidth, Nat.div_lt_of_lt_mul h⟩
  have hposition : g.position ⟨(i % g.width : Nat), (i / g.width : Nat)⟩ = i := by
    rw [position_natCast, Nat.mul_comm, Nat.div_add_mod]
  rw [terrain_of_holds hholds]
  congr 2
  exact hposition.symm

/-- **A grid is its size and its terrain.** -/
theorem ext_terrain (hwidth : g.width = g'.width) (hheight : g.height = g'.height)
    (h : ∀ l, g.terrain l = g'.terrain l) : g = g' := by
  obtain ⟨width, height, hsize, tiles⟩ := g
  obtain ⟨width', height', hsize', tiles'⟩ := g'
  obtain rfl : width = width' := hwidth
  obtain rfl : height = height' := hheight
  have htiles : tiles = tiles' := Vector.ext fun i hi => by
    have hg := get_tiles ⟨width, height, hsize, tiles⟩ hi
    have hg' := get_tiles ⟨width, height, hsize', tiles'⟩ hi
    rw [h] at hg
    exact hg.trans hg'.symm
  rw [htiles]

/-- A grid made from a function of columns and rows shows its values. -/
theorem terrain_ofFn {width height x y : Nat} (hsize : IsSize width height) (code : Nat → Nat → String)
    (hx : x < width) (hy : y < height) : (ofFn hsize code).terrain ⟨x, y⟩ = code x y := by
  have hholds : (ofFn hsize code).holds ⟨x, y⟩ = true := holds_natCast_iff.2 ⟨hx, hy⟩
  have hwidth : (ofFn hsize code).width = width := rfl
  have hdiv : (y * width + x) / width = y := by
    rw [Nat.mul_comm, Nat.mul_add_div (Nat.zero_lt_of_lt hx), Nat.div_eq_of_lt hx, Nat.add_zero]
  rw [terrain_of_holds hholds]
  refine (Vector.getElem_ofFn (position_lt hholds)).trans ?_
  simp only [position_natCast, hwidth, Nat.mul_add_mod_of_lt hx, hdiv]

/-- **Of a size that fits** there is a grid of each terrain. -/
theorem exists_filled? {width height : Int} (hsize : IsSize width.toNat height.toNat) (code : String) :
    ∃ g, filled? width height code = some g := ⟨_, dif_pos hsize⟩

-- an area of 2 ^ 32 has no grid, though both sides of it are small
example : filled? 65536 65536 "Gg" = none := dif_neg (by decide)

/-- A grid of one terrain has the size asked for and this terrain everywhere. -/
theorem terrain_filled? {width height : Int} (h : filled? width height code = some g) :
    g.width = width.toNat ∧ g.height = height.toNat ∧ ∀ l, g.holds l = true → g.terrain l = code := by
  rw [filled?, Option.dite_none_right_eq_some] at h
  obtain ⟨hsize, h⟩ := h
  obtain rfl := Option.some.inj h
  refine ⟨rfl, rfl, fun l hl => ?_⟩
  obtain ⟨x, y, rfl, hx, hy⟩ := exists_of_holds hl
  exact terrain_ofFn hsize _ hx hy

/-! ### Settings -/

/-- On the grid a setting replaces the code of the tile. -/
theorem set?_of_holds (h : g.holds l = true) :
    g.set? l code = some { g with tiles := g.tiles.set (g.position l) code (position_lt h) } := dif_pos h

/-- Off the grid no code can be set. -/
theorem set?_of_not_holds (h : g.holds l = false) : g.set? l code = none :=
  dif_neg (by rw [h]; exact Bool.false_ne_true)

/-- **A code can be set on the grid,** and nowhere else. -/
theorem isSome_set? (g : Grid) (l : Location) (code : String) : (g.set? l code).isSome = g.holds l := by
  cases h : g.holds l with
  | false => rw [set?_of_not_holds h, Option.isSome_none]
  | true => rw [set?_of_holds h, Option.isSome_some]

/-- A setting keeps the size. -/
theorem size_of_set? (h : g.set? l code = some g') : g'.width = g.width ∧ g'.height = g.height := by
  rw [set?, Option.dite_none_right_eq_some] at h
  obtain ⟨_, h⟩ := h
  obtain rfl := Option.some.inj h
  exact ⟨rfl, rfl⟩

/-- Grids of one size hold the same locations. -/
theorem holds_congr (h : g'.width = g.width ∧ g'.height = g.height) (l : Location) : g'.holds l = g.holds l := by
  rw [holds, holds, h.1, h.2]

/-- **A setting changes the terrain at its location** to the code set, and nowhere else. -/
theorem terrain_of_set? (h : g.set? l code = some g') (m : Location) :
    g'.terrain m = if m = l then code else g.terrain m := by
  have hl : g.holds l = true := by rw [← isSome_set? g l code, h, Option.isSome_some]
  have hsame := holds_congr (size_of_set? h) m
  rw [set?_of_holds hl] at h
  obtain rfl := Option.some.inj h
  cases hm : g.holds m with
  | false =>
    have hne : m ≠ l := fun heq => by rw [heq, hl] at hm; cases hm
    rw [terrain_of_not_holds (hsame.trans hm), terrain_of_not_holds hm, if_neg hne]
  | true =>
    have hget : (g.tiles.set (g.position l) code (position_lt hl)).get ⟨g.position m, position_lt hm⟩ =
        if g.position l = g.position m then code else g.tiles.get ⟨g.position m, position_lt hm⟩ :=
      Vector.getElem_set _ _
    rw [terrain_of_holds (hsame.trans hm), terrain_of_holds hm]
    refine hget.trans (if_congr ?_ rfl rfl)
    rw [position_inj hl hm, eq_comm]

/-- A setting keeps the size whether it succeeds or not. -/
theorem size_paint (g : Grid) (p : Paint) : (g.paint p).width = g.width ∧ (g.paint p).height = g.height := by
  rw [paint]
  cases h : g.set? p.location p.code with
  | none => exact ⟨rfl, rfl⟩
  | some g' => exact size_of_set? h

/-- A setting changes the terrain at its own location only. -/
theorem terrain_paint (hl : g.holds l = true) (p : Paint) :
    (g.paint p).terrain l = if p.location = l then p.code else g.terrain l := by
  rw [paint]
  cases h : g.set? p.location p.code with
  | none =>
    have hne : p.location ≠ l := by
      rintro rfl
      have hsome := isSome_set? g p.location p.code
      rw [h, hl] at hsome
      cases hsome
    rw [Option.getD_none, if_neg hne]
  | some g' =>
    rw [Option.getD_some, terrain_of_set? h]
    exact if_congr eq_comm rfl rfl

/-- **Settings keep the size.** -/
theorem size_paintAll (g : Grid) (ps : List Paint) :
    (g.paintAll ps).width = g.width ∧ (g.paintAll ps).height = g.height := by
  induction ps generalizing g with
  | nil => exact ⟨rfl, rfl⟩
  | cons p ps ih =>
    obtain ⟨hwidth, hheight⟩ := ih (g.paint p)
    exact ⟨hwidth.trans (size_paint g p).1, hheight.trans (size_paint g p).2⟩

/-- A first setting at a location counts where no later one is made there. -/
theorem lastCode?_cons (p : Paint) (ps : List Paint) (l : Location) :
    lastCode? (p :: ps) l = (lastCode? ps l).or (if p.location = l then some p.code else none) := by
  rw [lastCode?, lastCode?, List.filter_cons]
  by_cases h : p.location = l
  · rw [decide_eq_true h, if_pos rfl, if_pos h, List.getLast?_cons, Option.map_some]
    cases (ps.filter fun p => decide (p.location = l)).getLast? <;> rfl
  · rw [decide_eq_false h, if_neg Bool.false_ne_true, if_neg h, Option.or_none]

/-- **After several settings** a location has the last code that was set there, or the one
it had before. -/
theorem terrain_paintAll (hl : g.holds l = true) (ps : List Paint) :
    (g.paintAll ps).terrain l = (lastCode? ps l).getD (g.terrain l) := by
  induction ps generalizing g with
  | nil => rfl
  | cons p ps ih =>
    have hrest := ih ((holds_congr (size_paint g p) l).trans hl)
    rw [lastCode?_cons]
    refine hrest.trans ?_
    rw [terrain_paint hl]
    cases lastCode? ps l with
    | some code => rfl
    | none =>
      rw [Option.getD_none, Option.none_or]
      split <;> rfl

/-! ### Rows -/

/-- **Of rows whose size fits** there is a grid. -/
theorem exists_ofRows? {rows : List (List String)} (hsize : IsSize (longest rows) rows.length) :
    ∃ g, ofRows? rows = some g := ⟨_, dif_pos hsize⟩

/-- **The grid of rows shows their codes.** -/
theorem terrain_ofRows? {rows : List (List String)} (h : ofRows? rows = some g) :
    g.width = longest rows ∧ g.height = rows.length ∧
      ∀ (x y : Nat) row, rows[y]? = some row → x < g.width → g.terrain ⟨x, y⟩ = rowCode row x := by
  rw [ofRows?, Option.dite_none_right_eq_some] at h
  obtain ⟨hsize, h⟩ := h
  obtain rfl := Option.some.inj h
  refine ⟨rfl, rfl, fun x y row hrow hx => ?_⟩
  obtain ⟨hy, -⟩ := List.getElem?_eq_some_iff.1 hrow
  rw [terrain_ofFn hsize _ hx hy, hrow, Option.getD_some]

/-- Rows are laid out by one setting for each row and column. -/
theorem mem_rowPaints {rows : List (List String)} {width : Nat} {p : Paint} :
    p ∈ rowPaints rows width ↔ ∃ y row, rows[y]? = some row ∧ ∃ x < width, p = ⟨⟨(x : Nat), (y : Nat)⟩, rowCode row x⟩ := by
  simp only [rowPaints, List.mem_flatMap, List.mem_map, List.mem_range, Prod.exists, List.mem_zipIdx_iff_getElem?]
  constructor
  · rintro ⟨row, y, hrow, x, hx, rfl⟩
    exact ⟨y, row, hrow, x, hx, rfl⟩
  · rintro ⟨y, row, hrow, x, hx, rfl⟩
    exact ⟨row, y, hrow, x, hx, rfl⟩

/-- Where all settings at a location agree, the last one has their code. -/
theorem lastCode?_of_agree {ps : List Paint} (hmem : ∃ p ∈ ps, p.location = l)
    (hagree : ∀ p ∈ ps, p.location = l → p.code = code) : lastCode? ps l = some code := by
  obtain ⟨p, hp, hpl⟩ := hmem
  have hne : ps.filter (fun p => decide (p.location = l)) ≠ [] :=
    List.ne_nil_of_mem (List.mem_filter.2 ⟨hp, decide_eq_true hpl⟩)
  obtain ⟨hlast, hlastl⟩ := List.mem_filter.1 (List.getLast_mem hne)
  rw [lastCode?, List.getLast?_eq_some_getLast hne, Option.map_some, hagree _ hlast (of_decide_eq_true hlastl)]

/-- **Rows laid out code by code** on a grid of their size make the grid of the rows, whatever
its terrain was. -/
theorem paintAll_rowPaints {rows : List (List String)} (hrows : ofRows? rows = some g') (hwidth : g.width = g'.width)
    (hheight : g.height = g'.height) : g.paintAll (rowPaints rows g.width) = g' := by
  obtain ⟨-, hlength, hshown⟩ := terrain_ofRows? hrows
  have hsize := size_paintAll g (rowPaints rows g.width)
  refine ext_terrain (hsize.1.trans hwidth) (hsize.2.trans hheight) fun l => ?_
  have hholds := holds_congr ⟨hwidth, hheight⟩ l
  cases hl : g.holds l with
  | false => rw [terrain_of_not_holds ((holds_congr hsize l).trans hl), terrain_of_not_holds (hholds.symm.trans hl)]
  | true =>
    rw [terrain_paintAll hl]
    obtain ⟨x, y, rfl, hx, hy⟩ := exists_of_holds (hholds.symm.trans hl)
    obtain ⟨row, hrow⟩ : ∃ row, rows[y]? = some row := ⟨_, List.getElem?_eq_getElem (hlength ▸ hy)⟩
    have hlast : lastCode? (rowPaints rows g.width) ⟨x, y⟩ = some (rowCode row x) := by
      refine lastCode?_of_agree ⟨_, mem_rowPaints.2 ⟨y, row, hrow, x, hwidth ▸ hx, rfl⟩, rfl⟩ fun p hp hpl => ?_
      obtain ⟨y', row', hrow', x', -, rfl⟩ := mem_rowPaints.1 hp
      obtain ⟨hx', hy'⟩ := Location.mk.inj hpl
      obtain rfl := Int.ofNat.inj hx'
      obtain rfl := Int.ofNat.inj hy'
      obtain rfl := Option.some.inj (hrow.symm.trans hrow')
      rfl
    rw [hlast, hshown x y row hrow hx, Option.getD_some]

/-! ### Listing -/

/-- The locations listed are those on the grid. -/
theorem mem_locations : l ∈ g.locations ↔ g.holds l = true := by
  simp only [locations, List.mem_flatMap, List.mem_map, List.mem_range]
  constructor
  · rintro ⟨y, hy, x, hx, rfl⟩
    exact holds_natCast_iff.2 ⟨hx, hy⟩
  · intro h
    obtain ⟨x, y, rfl, hx, hy⟩ := exists_of_holds h
    exact ⟨y, hy, x, hx, rfl⟩

/-- Whole rows of positions, one after the other. -/
theorem flatMap_rows (width height : Nat) :
    ((List.range height).flatMap fun y => (List.range width).map fun x => y * width + x) =
      List.range (height * width) := by
  induction height with
  | zero => rw [Nat.zero_mul]; rfl
  | succ height ih =>
    rw [List.range_succ, List.flatMap_append, ih, Nat.add_mul, Nat.one_mul, List.range_add]
    simp

/-- **The locations are listed in the order of their tiles,** and every tile has one. -/
theorem map_position_locations (g : Grid) : g.locations.map g.position = List.range (g.height * g.width) := by
  rw [← flatMap_rows, locations, List.map_flatMap]
  simp only [List.map_map]
  rfl

/-- No location is listed twice, since no position is. -/
theorem nodup_locations (g : Grid) : g.locations.Nodup := by
  refine List.Nodup.of_map g.position ?_
  rw [map_position_locations]
  exact List.nodup_range

/-- **Row by row:** a location is listed before those of later rows, and before those to its
right. -/
theorem pairwise_locations (g : Grid) : g.locations.Pairwise fun l m => l.y < m.y ∨ l.y = m.y ∧ l.x < m.x := by
  rw [locations, List.pairwise_flatMap]
  refine ⟨fun y _ => List.pairwise_map.2 (List.pairwise_lt_range.imp fun h => .inr ⟨rfl, Int.ofNat_lt.2 h⟩), ?_⟩
  refine List.pairwise_lt_range.imp fun {y y'} h l hl m hm => ?_
  obtain ⟨x, -, rfl⟩ := List.mem_map.1 hl
  obtain ⟨x', -, rfl⟩ := List.mem_map.1 hm
  exact .inl (Int.ofNat_lt.2 h)

/-! ### Tables -/

/-- **Every grid is a table.** -/
theorem isTable (g : Grid) : g.IsTable where
  size := g.isSize
  tiles := Vector.length_toList
  inside _ h := Nat.lt_of_lt_of_eq (position_lt h) Vector.length_toList.symm
  small _ := position_small
  apart _ _ hl hm := (position_inj hl hm).1
  off _ := terrain_of_not_holds
  settable := g.isSome_set?
  set _ _ _ := terrain_of_set?
  listed _ := mem_locations
  once := g.nodup_locations
  rowByRow := g.pairwise_locations

/-- A grid made of rows shows them. -/
theorem showsRows_of_ofRows? {rows : List (List String)} (h : ofRows? rows = some g) : g.ShowsRows rows where
  height := (terrain_ofRows? h).2.1
  width := (terrain_ofRows? h).1
  terrain := (terrain_ofRows? h).2.2
  laid := by
    -- the grid has the size, so there is one to lay the rows out on
    have hsize : IsSize (g.width : Int).toNat (g.height : Int).toNat := g.isSize
    obtain ⟨blank, hblank⟩ := exists_filled? hsize offMapTerrain
    obtain ⟨hwidth, hheight, -⟩ := terrain_filled? hblank
    rw [Int.toNat_natCast] at hwidth hheight
    rw [hblank, Option.map_some, ← hwidth, paintAll_rowPaints h hwidth hheight]

/-- **A terrain grid is a table of codes.**  Rows of a size that fits make a grid as high as there
are rows and as wide as the longest, which shows their codes; a size that fits and one code make
a grid that shows this code.  After any settings, on the grid or off it, its size is the same and
so is the number of its tiles, each location of the grid has a tile of its own, at a position that
is a signed 32-bit integer, and the terrain is the last code that was set there, or else the first;
off the grid it is always the same.  A setting succeeds exactly on the grid and changes no other
location, and the locations are listed row by row, each of them once. -/
theorem terrain_table :
    (∀ rows, IsSize (longest rows) rows.length → ∃ g, ofRows? rows = some g ∧ g.ShowsRows rows) ∧
      (∀ (width height : Int) code, IsSize width.toNat height.toNat →
        ∃ g, filled? width height code = some g ∧ g.width = width.toNat ∧ g.height = height.toNat ∧
          ∀ l, g.holds l = true → g.terrain l = code) ∧
      ∀ (g : Grid) (ps : List Paint), (g.paintAll ps).IsTable ∧ (g.paintAll ps).width = g.width ∧
        (g.paintAll ps).height = g.height ∧
        ∀ l, g.holds l = true → (g.paintAll ps).terrain l = (lastCode? ps l).getD (g.terrain l) := by
  refine ⟨fun rows hsize => ?_, fun width height code hsize => ?_, fun g ps => ?_⟩
  · obtain ⟨g, hg⟩ := exists_ofRows? hsize
    exact ⟨g, hg, showsRows_of_ofRows? hg⟩
  · obtain ⟨g, hg⟩ := exists_filled? hsize code
    exact ⟨g, hg, terrain_filled? hg⟩
  · obtain ⟨hwidth, hheight⟩ := size_paintAll g ps
    exact ⟨(g.paintAll ps).isTable, hwidth, hheight, fun _ hl => terrain_paintAll hl ps⟩

/-- Rows of different lengths, one of them empty. -/
def raggedRows : List (List String) := [["Gg", "Ff", "Hh"], [], ["Ww"]]

/-- What `terrain_table` says of `raggedRows`, of one terrain on three columns and two rows, and of four
settings, one of them off the grid. -/
theorem terrain_table_ragged :
    let g := ofRows raggedRows
    let ps : List Paint := [⟨⟨1, 1⟩, "Re"⟩, ⟨⟨3, 1⟩, "Xu"⟩, ⟨⟨1, 1⟩, "Rd"⟩, ⟨⟨1, 2⟩, "Wo"⟩]
    (IsSize (longest raggedRows) raggedRows.length ∧ ofRows? raggedRows = some g) ∧
      (raggedRows[2]? = some ["Ww"] ∧ 2 < g.width ∧ g.terrain ⟨2, 2⟩ = "Ww") ∧
      (IsSize 3 2 ∧ ∃ plain, filled? 3 2 "Gg" = some plain ∧ plain.width = 3 ∧ plain.height = 2 ∧
        ∀ l, plain.holds l = true → plain.terrain l = "Gg") ∧
      (g.holds ⟨1, 1⟩ = true ∧ (g.paintAll ps).terrain ⟨1, 1⟩ = "Rd") ∧
      ((g.paintAll ps).holds ⟨3, 1⟩ = false ∧ (g.paintAll ps).terrain ⟨3, 1⟩ = offMapTerrain) := by
  intro g ps
  have hsize : IsSize (longest raggedRows) raggedRows.length := by decide
  have hplain : IsSize 3 2 := by decide
  obtain ⟨hrows, hfilled, hsettings⟩ := terrain_table
  obtain ⟨made, hmade, hshows⟩ := hrows raggedRows hsize
  obtain rfl : g = made := congrArg (fun made => Option.getD made empty) hmade
  obtain ⟨htable, -, -, hlast⟩ := hsettings g ps
  have hwidth : 2 < g.width := by decide
  have hholds : g.holds ⟨1, 1⟩ = true := by decide
  have hoff : (g.paintAll ps).holds ⟨3, 1⟩ = false := by decide
  exact ⟨⟨hsize, hmade⟩, ⟨rfl, hwidth, hshows.terrain 2 2 ["Ww"] rfl hwidth⟩,
    ⟨hplain, hfilled 3 2 "Gg" hplain⟩, ⟨hholds, hlast ⟨1, 1⟩ hholds⟩, hoff, htable.off ⟨3, 1⟩ hoff⟩

end Grid
end Muster
