/-
# Where the troops of a roster stand

The index of a roster can be read off its troops.  A location is indexed with a
position exactly where the troop at that position stands there
(`Roster.Indexed`), and insertions and extractions keep it so
(`Reachable.indexed`).  Hence no two troops share a location, and which troop is
found at a location does not depend on the order of the troops
(`Indexed.at?_eq_some_iff`).

Troops of different locations on the map that are placed one after the other all
find room, and stand in the roster in that order (`Board.troops_placeAll`).
-/

import Muster.Board

namespace Muster
namespace Roster

/-- The index holds the position of every troop at its location, and nothing else. -/
def Indexed (r : Roster) : Prop := ∀ l i, r.index.get? l = some i ↔ ∃ t, r.troops[i]? = some t ∧ t.location = l

variable {r r' : Roster} {l : Location} {t : Troop}

/-- The roster without troops is indexed as it should be. -/
theorem indexed_empty : empty.Indexed := by
  intro l i
  simp [empty, Table.empty, Table.get?, Table.lookup]

/-- **The troop at a location** is the one among the troops that stands there. -/
theorem Indexed.at?_eq_some_iff (hr : r.Indexed) : r.at? l = some t ↔ t ∈ r.troops ∧ t.location = l := by
  rw [at?, Option.bind_eq_some_iff]
  constructor
  · rintro ⟨i, hi, ht⟩
    obtain ⟨u, hu, hl⟩ := (hr l i).1 hi
    obtain rfl := Option.some.inj (ht.symm.trans hu)
    exact ⟨List.mem_of_getElem? ht, hl⟩
  · rintro ⟨ht, hl⟩
    obtain ⟨i, hi⟩ := List.mem_iff_getElem?.1 ht
    exact ⟨i, (hr l i).2 ⟨t, hi, hl⟩, hi⟩

/-- A location is indexed exactly if a troop stands there. -/
theorem Indexed.contains_iff (hr : r.Indexed) : r.index.contains l = true ↔ ∃ t ∈ r.troops, t.location = l := by
  rw [Table.contains, Option.isSome_iff_exists]
  constructor
  · rintro ⟨i, hi⟩
    obtain ⟨t, ht, hl⟩ := (hr l i).1 hi
    exact ⟨t, List.mem_of_getElem? ht, hl⟩
  · rintro ⟨t, ht, hl⟩
    obtain ⟨i, hi⟩ := List.mem_iff_getElem?.1 ht
    exact ⟨i, (hr l i).2 ⟨t, hi, hl⟩⟩

/-- **A troop finds room** where its location is valid and free, and comes last. -/
theorem Indexed.insert?_eq_some (hr : r.Indexed) (hvalid : t.location.isValid = true)
    (hfree : ∀ u ∈ r.troops, u.location ≠ t.location) :
    ∃ r', r.insert? t = some r' ∧ r'.troops = r.troops ++ [t] := by
  have hcontains : ¬ r.index.contains t.location = true := fun h => by
    obtain ⟨u, hu, hl⟩ := hr.contains_iff.1 h
    exact hfree u hu hl
  refine ⟨⟨r.troops ++ [t], r.index.insert t.location r.troops.length⟩, ?_, rfl⟩
  rw [insert?, if_neg (by simp [hvalid, hcontains])]

/-- The items of a list with one more at the end. -/
theorem getElem?_concat_eq_some_iff {α : Type} {as : List α} {a b : α} {i : Nat} :
    (as ++ [a])[i]? = some b ↔ as[i]? = some b ∨ i = as.length ∧ a = b := by
  rcases Nat.lt_trichotomy i as.length with h | rfl | h
  · simp [List.getElem?_append_left h, Nat.ne_of_lt h]
  · simp
  · have hnone : as[i]? = none := List.getElem?_eq_none (Nat.le_of_lt h)
    have hnone' : (as ++ [a])[i]? = none := List.getElem?_eq_none (by simpa using Nat.succ_le_of_lt h)
    simp [hnone, hnone', Nat.ne_of_gt h]

/-- **An insertion keeps the index.** -/
theorem Indexed.insert (hr : r.Indexed) (h : r.insert? t = some r') : r'.Indexed := by
  unfold insert? at h
  split at h
  · cases h
  · next hfree =>
    obtain rfl := Option.some.inj h
    have hfree : ∀ u ∈ r.troops, u.location ≠ t.location := fun u hu hl => by
      have hcontains : r.index.contains t.location = true := hr.contains_iff.2 ⟨u, hu, hl⟩
      simp [hcontains] at hfree
    intro l i
    simp only [Table.get?_insert, Std.LawfulEqOrd.compare_eq_iff_eq, getElem?_concat_eq_some_iff]
    split
    · next hl =>
      constructor
      · intro hi
        obtain rfl := Option.some.inj hi
        exact ⟨t, .inr ⟨rfl, rfl⟩, hl.symm⟩
      · rintro ⟨u, hu | ⟨rfl, rfl⟩, hul⟩
        · exact absurd (hul.trans hl) (hfree u (List.mem_of_getElem? hu))
        · rfl
    · next hl =>
      rw [hr l i]
      refine exists_congr fun u => and_congr_left fun hul => ?_
      rw [or_iff_left]
      rintro ⟨-, rfl⟩
      exact hl hul.symm

/-- Erasing an item leaves each other one at its position with the gap closed up. -/
theorem getElem?_closeUp {α : Type} (as : List α) {gone i : Nat} (h : i ≠ gone) :
    (as.eraseIdx gone)[closeUp gone i]? = as[i]? := by
  rw [closeUp, List.getElem?_eraseIdx]
  by_cases hlt : gone < i
  · rw [if_pos hlt, if_neg (by omega), Nat.sub_add_cancel (by omega)]
  · rw [if_neg hlt, if_pos (by omega)]

/-- Every position is one with the gap closed up. -/
theorem exists_closeUp (gone i : Nat) : ∃ j, j ≠ gone ∧ closeUp gone j = i := by
  by_cases hlt : i < gone
  · exact ⟨i, by omega, if_neg (by omega)⟩
  · exact ⟨i + 1, by omega, if_pos (by omega)⟩

/-- **An extraction keeps the index,** moving up what stands behind the gap. -/
theorem Indexed.extract (hr : r.Indexed) (h : r.extract? l = some (t, r')) : r'.Indexed := by
  obtain ⟨gone, hgone, h⟩ := Option.bind_eq_some_iff.1 h
  obtain ⟨u, hu, h⟩ := Option.map_eq_some_iff.1 h
  obtain ⟨-, rfl⟩ := Prod.mk.inj h
  intro l' i
  simp only [Table.get?_mapValues, Table.get?_erase, Std.LawfulEqOrd.compare_eq_iff_eq, Option.map_eq_some_iff,
    Option.ite_none_left_eq_some]
  constructor
  · rintro ⟨j, ⟨hl, hj⟩, rfl⟩
    -- What is left at another location was not at the gap.
    have hne : j ≠ gone := by
      rintro rfl
      obtain ⟨v, hv, hlv⟩ := (hr l' j).1 hj
      obtain ⟨w, hw, hlw⟩ := (hr l j).1 hgone
      obtain rfl := Option.some.inj (hv.symm.trans hw)
      exact hl (hlv.symm.trans hlw)
    rw [getElem?_closeUp _ hne]
    exact (hr l' j).1 hj
  · rintro ⟨v, hv, hlv⟩
    obtain ⟨j, hne, rfl⟩ := exists_closeUp gone i
    rw [getElem?_closeUp _ hne] at hv
    have hj : r.index.get? l' = some j := (hr l' j).2 ⟨v, hv, hlv⟩
    refine ⟨j, ⟨?_, hj⟩, rfl⟩
    rintro rfl
    exact hne (Option.some.inj (hj.symm.trans hgone))

/-- **The index of a roster can be read off its troops.** -/
theorem Reachable.indexed (hr : r.Reachable) : r.Indexed := by
  induction hr with
  | empty => exact indexed_empty
  | insert _ hu ih => exact ih.insert hu
  | extract _ hu ih => exact ih.extract hu

end Roster

/-- Locations on a map are valid. -/
theorem Grid.isValid_of_holds {g : Grid} {l : Location} (h : g.holds l = true) : l.isValid = true := by
  simp only [holds, Bool.and_eq_true, decide_eq_true_eq] at h
  simp [Location.isValid, h.1.1.1, h.1.2]

namespace Board

/-- The board with several troops placed one after the other. -/
def placeAll (b : Board) (ts : List Troop) : Board := ts.foldl place b

/-- **Placing a troop changes the roster only.** -/
theorem place_eq (b : Board) (t : Troop) : b.place t = { b with roster := (b.place t).roster } := by
  unfold place place?
  split
  · cases b.roster.insert? t <;> rfl
  · rfl

/-- Placing troops changes the roster of a board and nothing else. -/
theorem placeAll_eq (b : Board) (ts : List Troop) : b.placeAll ts = { b with roster := (b.placeAll ts).roster } := by
  induction ts generalizing b with
  | nil => rfl
  | cons t ts ih =>
    change (b.place t).placeAll ts = { b with roster := ((b.place t).placeAll ts).roster }
    rw [ih, place_eq b t]

/-- Placing a troop is a call, if it does anything. -/
theorem reachable_place {b : Board} (hb : b.roster.Reachable) (t : Troop) : (b.place t).roster.Reachable := by
  unfold place place?
  split
  · cases hr : b.roster.insert? t with
    | none => exact hb
    | some r => exact hb.insert hr
  · exact hb

/-- Placing troops is a run of calls. -/
theorem reachable_placeAll {b : Board} (hb : b.roster.Reachable) (ts : List Troop) :
    (b.placeAll ts).roster.Reachable := by
  induction ts generalizing b with
  | nil => exact hb
  | cons t ts ih => exact ih (reachable_place hb t)

/-- **A troop of a free location on the map is placed,** behind the others. -/
theorem troops_place {b : Board} (hb : b.roster.Reachable) {t : Troop} (hmap : b.map.holds t.location = true)
    (hfree : ∀ u ∈ b.roster.troops, u.location ≠ t.location) :
    (b.place t).roster.troops = b.roster.troops ++ [t] := by
  obtain ⟨r, hr, htroops⟩ := hb.indexed.insert?_eq_some (Grid.isValid_of_holds hmap) hfree
  rw [place, place?, if_pos hmap, hr]
  exact htroops

/-- **Troops of different free locations on the map are placed** in their order. -/
theorem troops_placeAll {b : Board} (hb : b.roster.Reachable) {ts : List Troop}
    (hmap : ∀ t ∈ ts, b.map.holds t.location = true)
    (hfree : ∀ u ∈ b.roster.troops, ∀ t ∈ ts, u.location ≠ t.location)
    (hts : ts.Pairwise fun t u => t.location ≠ u.location) :
    (b.placeAll ts).roster.troops = b.roster.troops ++ ts := by
  induction ts generalizing b with
  | nil => exact (List.append_nil _).symm
  | cons t ts ih =>
    obtain ⟨ht, hts⟩ := List.pairwise_cons.1 hts
    have hplaced : (b.place t).roster.troops = b.roster.troops ++ [t] :=
      troops_place hb (hmap t (List.mem_cons_self ..)) fun u hu => hfree u hu t (List.mem_cons_self ..)
    change ((b.place t).placeAll ts).roster.troops = _
    rw [ih (reachable_place hb t) _ _ hts, hplaced, List.append_assoc, List.singleton_append]
    · intro u hu
      rw [place_eq]
      exact hmap u (List.mem_cons_of_mem _ hu)
    · rw [hplaced]
      intro v hv u hu
      rcases List.mem_append.1 hv with hv | hv
      · exact hfree v hv u (List.mem_cons_of_mem _ hu)
      · obtain rfl := List.mem_singleton.1 hv
        exact ht u hu

end Board
end Muster
