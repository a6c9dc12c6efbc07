/-
# Hostility between teams

Recomputing the alliances of a list of teams derives the enemies of every team from the
names and the numbers in the list, and from nothing else (`recomputeAlliances_congr`).
What was declared about enemies before is forgotten, whatever it was, and recomputing
once more changes nothing.

Several teams of one number are possible, and then a team is an enemy of the number as soon
as one of them shares no name with it.  Among teams of different numbers this is a relation
between teams, mutual and never to oneself: two of them are enemies when they share no name
(`alliances_recomputed`).
-/

import Muster.Proofs.Board.Alliances

namespace Muster

/-! ### All but the enemies -/

/-- The team without its enemies. -/
def Team.disarmed (t : Team) : Team := { t with enemies := Table.empty }

/-- A declaration is forgotten with the others. -/
@[simp] theorem Team.disarmed_setEnemy (t : Team) (side : Int32) (hostile : Bool) :
    (t.setEnemy side hostile).disarmed = t.disarmed := rfl

variable {teams teams' : List Team}

/-- What a team becomes amid others does not depend on what has been declared. -/
theorem Team.amid_disarmed (teams : List Team) (t : Team) :
    Team.amid (teams.map disarmed) t.disarmed = Team.amid teams t := by
  have hsides : ((teams.map disarmed).filter fun u => u.side != t.side && !u.sharesName t).map Team.side =
      (teams.filter fun u => u.side != t.side && !u.sharesName t).map Team.side := by
    rw [List.filter_map, List.map_map]
    rfl
  rw [amid, amid, ← hsides]
  rfl

/-- **Alliances depend on all but the enemies.** -/
theorem recomputeAlliances_congr (h : teams.map Team.disarmed = teams'.map Team.disarmed) :
    recomputeAlliances teams = recomputeAlliances teams' := by
  have hdisarmed : ∀ ts : List Team, recomputeAlliances (ts.map Team.disarmed) = recomputeAlliances ts := by
    intro ts
    rw [recomputeAlliances_eq_map, recomputeAlliances_eq_map, List.map_map]
    exact List.map_congr_left fun t _ => t.amid_disarmed ts
  rw [← hdisarmed teams, h, hdisarmed]

/-- **Recomputing changes the enemies alone.** -/
theorem map_disarmed_recomputeAlliances (teams : List Team) :
    (recomputeAlliances teams).map Team.disarmed = teams.map Team.disarmed := by
  rw [recomputeAlliances_eq_map, List.map_map]
  rfl

/-! ### Declarations -/

/-- A declaration that a side is an enemy of the team at a position, or is none. -/
structure Declaration where
  position : Nat
  side : Int32
  hostile : Bool

/-- The teams after a declaration; nothing happens where there is no team. -/
def Declaration.apply (teams : List Team) (d : Declaration) : List Team :=
  teams.modify d.position (·.setEnemy d.side d.hostile)

/-- The teams after several declarations in order. -/
def declareAll (teams : List Team) (ds : List Declaration) : List Team := ds.foldl Declaration.apply teams

/-- A declaration changes enemies alone. -/
theorem map_disarmed_apply (teams : List Team) (d : Declaration) :
    (d.apply teams).map Team.disarmed = teams.map Team.disarmed := by
  refine List.ext_getElem? fun i => ?_
  rw [Declaration.apply, List.getElem?_map, List.getElem?_map, List.getElem?_modify]
  by_cases hi : d.position = i <;> simp [hi, Function.comp_def]

/-- **Declarations change enemies alone,** however many there are. -/
theorem map_disarmed_declareAll (teams : List Team) (ds : List Declaration) :
    (declareAll teams ds).map Team.disarmed = teams.map Team.disarmed := by
  induction ds generalizing teams with
  | nil => rfl
  | cons d ds ih => exact (ih (d.apply teams)).trans (map_disarmed_apply teams d)

/-! ### Who is hostile -/

/-- Teams told apart by their sides are the same if their sides are. -/
theorem DistinctSides.eq_of_side_eq (hd : DistinctSides teams) {t u : Team} (ht : t ∈ teams) (hu : u ∈ teams)
    (h : t.side = u.side) : t = u := by
  have hteam : teamOf? teams u.side = some t := (teamOf?_eq_some_iff hd).2 ⟨ht, h⟩
  exact Option.some.inj (hteam.symm.trans ((teamOf?_eq_some_iff hd).2 ⟨hu, rfl⟩))

/-- **Among teams of different numbers** the enemies of a team are the others that share no
name with it. -/
theorem isEnemy_side_recomputeAlliances (hd : DistinctSides teams) {t u : Team} (ht : t ∈ recomputeAlliances teams)
    (hu : u ∈ recomputeAlliances teams) : t.isEnemy u.side = (u.side != t.side && !t.sharesName u) := by
  obtain ⟨u₀, hu₀, rfl⟩ := mem_recomputeAlliances.1 hu
  rw [Bool.eq_iff_iff, isEnemy_recomputeAlliances ht, Bool.and_eq_true, bne_iff_ne, Bool.not_eq_true']
  refine and_congr_right fun _ => ⟨?_, fun hnames => ⟨u₀, hu₀, rfl, hnames⟩⟩
  rintro ⟨v, hv, hside, hnames⟩
  obtain rfl : v = u₀ := hd.eq_of_side_eq hv hu₀ hside
  exact hnames

/-- **The alliances of a list of teams,** in which numbers and names may repeat and enemies
may have been declared before.  After recomputing, a team is an enemy of the number of
another side exactly where some team of that number shares no name with it.  Nothing but
the enemies has changed, recomputing once more changes nothing, and the result is the same
without the declarations.  Every team is treated by itself: the same teams in another order
give the same teams in that order.

Among teams of different numbers hostility is mutual and never to oneself, and two different
teams are hostile exactly where they share no name. -/
theorem alliances_recomputed (teams : List Team) :
    (recomputeAlliances teams).map Team.disarmed = teams.map Team.disarmed ∧
      (∀ t ∈ recomputeAlliances teams, ∀ side,
        t.isEnemy side = true ↔ side ≠ t.side ∧ ∃ u ∈ teams, u.side = side ∧ t.sharesName u = false) ∧
      (DistinctSides teams → ∀ t ∈ recomputeAlliances teams, t.isEnemy t.side = false ∧
        ∀ u ∈ recomputeAlliances teams, t.isEnemy u.side = u.isEnemy t.side ∧
          (t ≠ u → t.isEnemy u.side = !t.sharesName u ∧ t.isEnemy u.side = !u.sharesName t)) ∧
      recomputeAlliances (recomputeAlliances teams) = recomputeAlliances teams ∧
      (∀ ds, recomputeAlliances (declareAll teams ds) = recomputeAlliances teams) ∧
      ∃ recomputed : Team → Team, ∀ teams', teams.Perm teams' → recomputeAlliances teams' = teams'.map recomputed := by
  refine ⟨map_disarmed_recomputeAlliances teams, fun t ht side => isEnemy_recomputeAlliances ht, fun hd t ht => ?_,
    recomputeAlliances_congr (map_disarmed_recomputeAlliances teams),
    fun ds => recomputeAlliances_congr (map_disarmed_declareAll teams ds), Team.amid teams, fun teams' hperm => ?_⟩
  · refine ⟨by simp [isEnemy_side_recomputeAlliances hd ht ht], fun u hu => ⟨?_, fun hne => ?_⟩⟩
    · rw [isEnemy_side_recomputeAlliances hd ht hu, isEnemy_side_recomputeAlliances hd hu ht, bne_comm,
        Team.sharesName_comm]
    · have hside : (u.side != t.side) = true :=
        bne_iff_ne.2 fun hside => hne (hd.recomputeAlliances.eq_of_side_eq hu ht hside).symm
      rw [isEnemy_side_recomputeAlliances hd ht hu, hside, Bool.true_and, u.sharesName_comm]
      exact ⟨rfl, rfl⟩
  · exact List.map_congr_left fun t _ => (Team.amid_perm hperm t).symm

/-- A side in the north, and two in the south that have the rebels in common. -/
def rebellion : List Team :=
  [{ side := 1, names := ["north"] }, { side := 2, names := ["south", "rebels"] }, { side := 3, names := ["rebels"] }]

/-- What `alliances_recomputed` says of the rebellion after a declaration of war within the south. -/
theorem alliances_recomputed_rebellion :
    DistinctSides rebellion ∧ recomputeAlliances (declareAll rebellion [⟨1, 3, true⟩]) = recomputeAlliances rebellion ∧
      ∀ t ∈ recomputeAlliances rebellion, ∀ u ∈ recomputeAlliances rebellion, t ≠ u →
        t.isEnemy u.side = !t.sharesName u := by
  have hd : DistinctSides rebellion := by
    unfold DistinctSides
    decide
  obtain ⟨-, -, hmutual, -, hforgets, -⟩ := alliances_recomputed rebellion
  exact ⟨hd, hforgets _, fun t ht u hu hne => (((hmutual hd t ht).2 u hu).2 hne).1⟩

end Muster
