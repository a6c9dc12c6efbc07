/-
# Alliances

The teams of a board are told apart by their sides, and then the team of a side is the
only one of its number (`teamOf?_eq_some_iff`).  Their enemies are derived from their
names: two teams are enemies when they share none, and no team is its own enemy.  So
hostility is mutual (`isFoe_comm`), and does not depend on the order of the teams
(`recomputeAlliances_perm`).
-/

import Muster.Team

namespace Muster

/-! ### Teams and their sides -/

/-- Teams of different numbers. -/
def DistinctSides (teams : List Team) : Prop := teams.Pairwise fun t u => t.side ≠ u.side

variable {teams teams' : List Team}

/-- Teams told apart by their sides are so in any order. -/
theorem DistinctSides.perm (hd : DistinctSides teams) (h : teams.Perm teams') : DistinctSides teams' :=
  (h.pairwise_iff fun hne => hne.symm).1 hd

/-- **The team of a number** is the only one of that number. -/
theorem teamOf?_eq_some_iff (hd : DistinctSides teams) {side : Int32} {t : Team} :
    teamOf? teams side = some t ↔ t ∈ teams ∧ t.side = side := by
  induction teams with
  | nil => simp [teamOf?]
  | cons u teams ih =>
    obtain ⟨hu, hd⟩ := List.pairwise_cons.1 hd
    have ih : teams.find? (·.side == side) = some t ↔ t ∈ teams ∧ t.side = side := ih hd
    rw [teamOf?, List.find?_cons, List.mem_cons]
    by_cases hside : u.side = side
    · simp only [hside, BEq.rfl, Option.some.injEq]
      constructor
      · rintro rfl
        exact ⟨.inl rfl, hside⟩
      · rintro ⟨rfl | ht, hts⟩
        · rfl
        · exact absurd (hside.trans hts.symm) (hu t ht)
    · rw [beq_false_of_ne hside, ih, or_and_right, or_iff_right]
      rintro ⟨rfl, hts⟩
      exact hside hts

/-- There is a team of a side exactly if some team has this number. -/
theorem isSome_teamOf?_iff {side : Int32} : (teamOf? teams side).isSome = true ↔ side ∈ teams.map Team.side := by
  simp [teamOf?, List.find?_isSome]

/-- The team of a side does not depend on the order of the teams. -/
theorem teamOf?_perm (hd : DistinctSides teams) (h : teams.Perm teams') (side : Int32) :
    teamOf? teams side = teamOf? teams' side :=
  Option.ext fun t => by rw [teamOf?_eq_some_iff hd, teamOf?_eq_some_iff (hd.perm h), h.mem_iff]

/-- Recomputing keeps the sides, in order. -/
theorem map_side_recomputeAlliances (teams : List Team) :
    (recomputeAlliances teams).map Team.side = teams.map Team.side := by
  rw [recomputeAlliances, List.map_map]
  rfl

/-- Recomputing keeps the teams apart. -/
theorem DistinctSides.recomputeAlliances (hd : DistinctSides teams) : DistinctSides (recomputeAlliances teams) := by
  rw [DistinctSides, ← List.pairwise_map, map_side_recomputeAlliances, List.pairwise_map]
  exact hd

/-- The team with the enemies that it has by its names among other teams. -/
def Team.amid (teams : List Team) (t : Team) : Team :=
  { t with enemies := KeySet.ofKeys ((teams.filter fun u => u.side != t.side && !u.sharesName t).map Team.side) }

/-- Each team is recomputed by itself, amid the teams as they were. -/
theorem recomputeAlliances_eq_map (teams : List Team) : recomputeAlliances teams = teams.map (Team.amid teams) := rfl

/-- The enemies of a team do not depend on the order of the teams. -/
theorem Team.amid_perm (h : teams.Perm teams') (t : Team) : t.amid teams = t.amid teams' := by
  have henemies : KeySet.ofKeys ((teams.filter fun u => u.side != t.side && !u.sharesName t).map Team.side) =
      KeySet.ofKeys ((teams'.filter fun u => u.side != t.side && !u.sharesName t).map Team.side) :=
    KeySet.ext_contains fun side => by
      rw [KeySet.contains_ofKeys, KeySet.contains_ofKeys, ((h.filter _).map _).mem_iff]
  rw [amid, amid, henemies]

/-- **Alliances do not depend on the order of the teams.** -/
theorem recomputeAlliances_perm (h : teams.Perm teams') :
    (recomputeAlliances teams).Perm (recomputeAlliances teams') := by
  rw [recomputeAlliances_eq_map, recomputeAlliances_eq_map, funext (Team.amid_perm h)]
  exact h.map _

/-! ### Enemies by name -/

/-- Two teams share a name if some name is one of both. -/
theorem Team.sharesName_iff {t u : Team} : t.sharesName u = true ↔ ∃ name, name ∈ t.names ∧ name ∈ u.names := by
  simp only [sharesName, List.any_eq_true, List.contains_iff_mem]

/-- Sharing a name is mutual. -/
theorem Team.sharesName_comm (t u : Team) : t.sharesName u = u.sharesName t := by
  rw [Bool.eq_iff_iff, sharesName_iff, sharesName_iff]
  simp only [and_comm]

/-- A team with its enemies derived from the names of all teams. -/
theorem mem_recomputeAlliances {t : Team} : t ∈ recomputeAlliances teams ↔ ∃ t₀ ∈ teams, t₀.amid teams = t :=
  List.mem_map

/-- **The enemies of a team** are the other sides of which some team shares no name with it. -/
theorem Team.isEnemy_amid {t : Team} {side : Int32} :
    (t.amid teams).isEnemy side = true ↔ side ≠ t.side ∧ ∃ u ∈ teams, u.side = side ∧ t.sharesName u = false := by
  rw [isEnemy, amid, KeySet.contains_ofKeys, List.mem_map]
  simp only [List.mem_filter, Bool.and_eq_true, bne_iff_ne, Bool.not_eq_true', Team.sharesName_comm _ t]
  constructor
  · rintro ⟨u, ⟨hu, hside, hnames⟩, rfl⟩
    exact ⟨hside, u, hu, rfl, hnames⟩
  · rintro ⟨hside, u, hu, rfl, hnames⟩
    exact ⟨u, ⟨hu, hside, hnames⟩, rfl⟩

/-- **The enemies of a team** are the sides of teams that share no name with it, but for its own. -/
theorem isEnemy_recomputeAlliances {t : Team} (ht : t ∈ recomputeAlliances teams) {side : Int32} :
    t.isEnemy side = true ↔ side ≠ t.side ∧ ∃ u ∈ teams, u.side = side ∧ t.sharesName u = false := by
  obtain ⟨t₀, -, rfl⟩ := mem_recomputeAlliances.1 ht
  exact Team.isEnemy_amid

/-- Whether the team of a side counts another side among its enemies. -/
def isFoe (teams : List Team) (side other : Int32) : Bool := (teamOf? teams side).any (·.isEnemy other)

/-- **The foes of a side**, where sides tell the teams apart, read off the two teams. -/
theorem isFoe_recomputeAlliances (hd : DistinctSides teams) {side other : Int32} :
    isFoe (recomputeAlliances teams) side other = true ↔
      other ≠ side ∧ ∃ t ∈ teams, ∃ u ∈ teams, t.side = side ∧ u.side = other ∧ t.sharesName u = false := by
  rw [isFoe, Option.any_eq_true]
  constructor
  · rintro ⟨t, hteam, henemy⟩
    obtain ⟨ht, rfl⟩ := (teamOf?_eq_some_iff hd.recomputeAlliances).1 hteam
    obtain ⟨hne, u, hu, hother, hnames⟩ := (isEnemy_recomputeAlliances ht).1 henemy
    obtain ⟨t₀, ht₀, rfl⟩ := mem_recomputeAlliances.1 ht
    exact ⟨hne, t₀, ht₀, u, hu, rfl, hother, hnames⟩
  · rintro ⟨hne, t₀, ht₀, u, hu, rfl, hother, hnames⟩
    have ht := mem_recomputeAlliances.2 ⟨t₀, ht₀, rfl⟩
    exact ⟨_, (teamOf?_eq_some_iff hd.recomputeAlliances).2 ⟨ht, rfl⟩,
      (isEnemy_recomputeAlliances ht).2 ⟨hne, u, hu, hother, hnames⟩⟩

/-- **Hostility is mutual** among teams of different sides. -/
theorem isFoe_comm (hd : DistinctSides teams) (side other : Int32) :
    isFoe (recomputeAlliances teams) side other = isFoe (recomputeAlliances teams) other side := by
  rw [Bool.eq_iff_iff, isFoe_recomputeAlliances hd, isFoe_recomputeAlliances hd]
  constructor <;>
  · rintro ⟨hne, t, ht, u, hu, hside, hother, hnames⟩
    exact ⟨hne.symm, u, hu, t, ht, hother, hside, by rwa [Team.sharesName_comm]⟩

end Muster
