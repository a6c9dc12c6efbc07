/-
# The troops on the map

A roster lists the troops on the map in the order in which they came, at most
one at a location.  Beside the list it keeps, for each occupied location, the
position of the troop that stands there; taking a troop away moves up every
position behind it.
-/

import Muster.Troop.Basic

namespace Muster

/-- The troops on the map and where to find them. -/
structure Roster where
  troops : List Troop := []
  index : Table Location Nat := Table.empty

namespace Roster

/-- The roster without troops. -/
def empty : Roster := {}

/-- The troop at a location. -/
def at? (r : Roster) (l : Location) : Option Troop := (r.index.get? l).bind fun i => r.troops[i]?

/-- The first troop of an id. -/
def withId? (r : Roster) (id : String) : Option Troop := r.troops.find? (·.id == id)

/-- The roster with one more troop, unless its location is invalid or occupied. -/
def insert? (r : Roster) (t : Troop) : Option Roster :=
  if !t.location.isValid || r.index.contains t.location then none
  else some ⟨r.troops ++ [t], r.index.insert t.location r.troops.length⟩

/-- The position that `i` moves to when the troop at position `gone` leaves. -/
def closeUp (gone i : Nat) : Nat := if gone < i then i - 1 else i

/-- The troop at a location and the roster without it. -/
def extract? (r : Roster) (l : Location) : Option (Troop × Roster) :=
  (r.index.get? l).bind fun i =>
    r.troops[i]?.map fun t => (t, ⟨r.troops.eraseIdx i, (r.index.erase l).mapValues (closeUp i)⟩)

/-- The rosters that insertions and extractions make. -/
inductive Reachable : Roster → Prop where
  | empty : Reachable empty
  | insert {r r' : Roster} {t : Troop} (h : Reachable r) (hr : r.insert? t = some r') : Reachable r'
  | extract {r r' : Roster} {l : Location} {t : Troop} (h : Reachable r) (hr : r.extract? l = some (t, r')) :
      Reachable r'

theorem mem_of_at? {r : Roster} {l : Location} {t : Troop} (h : r.at? l = some t) : t ∈ r.troops := by
  obtain ⟨i, -, hi⟩ := Option.bind_eq_some_iff.1 h
  exact List.mem_of_getElem? hi

/-- **Every troop of a roster stands at a valid location.** -/
theorem Reachable.isValid {r : Roster} (hr : r.Reachable) : ∀ t ∈ r.troops, t.location.isValid = true := by
  induction hr with
  | empty => exact fun _ h => absurd h List.not_mem_nil
  | @insert r r' u _ hu ih =>
    unfold insert? at hu
    split at hu
    · cases hu
    · next hfree =>
      obtain rfl := Option.some.inj hu
      intro t ht
      rcases List.mem_append.1 ht with ht | ht
      · exact ih t ht
      · obtain rfl := List.mem_singleton.1 ht
        simp only [Bool.or_eq_true, Bool.not_eq_true', not_or, Bool.not_eq_false] at hfree
        exact hfree.1
  | @extract r r' l u _ hu ih =>
    obtain ⟨i, -, hi⟩ := Option.bind_eq_some_iff.1 hu
    obtain ⟨t, -, ht⟩ := Option.map_eq_some_iff.1 hi
    obtain ⟨-, rfl⟩ := Prod.mk.inj ht
    exact fun v hv => ih v (List.mem_of_mem_eraseIdx hv)

end Roster
end Muster
