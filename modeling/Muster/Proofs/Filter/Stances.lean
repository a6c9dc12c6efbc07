/-
# Enemies and allies of the sides that a query selects

A clause `enemy_of` or `allied_with` holds a query over sides and takes a *stance* towards
the sides that it selects.  A side passes when the query selects some side and the stance
is the same towards all of them:

| clause | the side counts among its enemies |
| --- | --- |
| `enemy_of` | every side selected |
| `allied_with` | no side selected |

Where the enemies of a team are derived from names, hostility is mutual, and so are the
stances (`Query.stances_mutual`): all sides that one query selects are enemies of what
another one selects exactly when all that this one selects are enemies of what the first
selects, and the same holds of allies.  No side takes both stances towards a query, and
none takes any towards a query that selects nobody.
-/

import Muster.Proofs.Board.Alliances
import Muster.Proofs.Filter.SideQueries

namespace Muster

/-- A side *takes a stance* towards others, of whom there are some: where the stance is
hostile it counts them all among its enemies, and otherwise none. -/
structure TakesStance (foe : Int32 → Int32 → Bool) (hostile : Bool) (others : List Int32) (side : Int32) : Prop where
  somebody : others ≠ []
  towards : ∀ other ∈ others, foe side other = hostile

namespace TakesStance

variable {foe : Int32 → Int32 → Bool} {hostile : Bool} {sides others : List Int32} {side : Int32}

/-- **A stance is returned** where hostility is mutual. -/
theorem forall_comm (hfoe : ∀ side other, foe side other = foe other side) (hsides : sides ≠ [])
    (hothers : others ≠ []) :
    (∀ side ∈ sides, TakesStance foe hostile others side) ↔
      ∀ other ∈ others, TakesStance foe hostile sides other := by
  constructor
  · intro h other hother
    refine ⟨hsides, fun side hside => ?_⟩
    rw [hfoe]
    exact (h side hside).towards other hother
  · intro h side hside
    refine ⟨hothers, fun other hother => ?_⟩
    rw [hfoe]
    exact (h other hother).towards side hside

/-- **No side takes both stances.** -/
theorem not_both (h : TakesStance foe true others side) : ¬ TakesStance foe false others side := by
  intro h'
  obtain ⟨other, hother⟩ := List.exists_mem_of_ne_nil others h.somebody
  exact Bool.noConfusion ((h.towards other hother).symm.trans (h'.towards other hother))

end TakesStance

/-- The query for the sides that take a stance towards all sides of a query. -/
def Query.stance (hostile : Bool) (q : Config) : Config := .wrap (if hostile then "enemy_of" else "allied_with") q

/-- The filter of a clause that takes a stance. -/
def Filter.stance (hostile : Bool) (f : Filter .side) : Filter .side := if hostile then .enemyOf f else .alliedWith f

/-- The filter of a query that consists of such a clause. -/
def Filter.onlyStance (hostile : Bool) (f : Filter .side) : Filter .side := .teamed (.both (.stance hostile f) .pass)

namespace Oracle

variable (o : Oracle) (flat : Bool) (made asked : Scope) {q : Config} {f : Filter .side} {side : Int32}

/-- The sides that a filter selects are those of teams that pass it. -/
theorem mem_sides :
    side ∈ o.sides f asked ↔ (o.team? side).isSome = true ∧ o.verdict f side asked = true := by
  rw [sides_apply, List.mem_mergeSort, List.mem_filter, Board.team?, isSome_teamOf?_iff]

/-- The sides that a query selects are those that pass. -/
theorem mem_sides_of_compiled (h : o.compiled flat .side q made = .ok f) :
    side ∈ o.sides f asked ↔ o.verdict f side asked = true := by
  rw [mem_sides, and_iff_right_iff_imp]
  intro hpass
  cases hteam : (o.team? side).isSome with
  | true => rfl
  | false => exact (o.verdict_of_no_team flat side made asked hteam h).symm.trans hpass

/-- **A stance compiles as its query does.** -/
theorem compiled_stance (hostile : Bool) (q : Config) :
    o.compiled flat .side (Query.stance hostile q) made =
      (o.compiled flat .side q made).map (Filter.onlyStance hostile) := by
  rw [Query.stance, compiled_wrap]
  cases hostile with
  | true =>
    rw [o.clauses_part flat made (p := .enemyOf) rfl]
    cases o.compiled flat .side q made <;> rfl
  | false =>
    rw [o.clauses_part flat made (p := .alliedWith) rfl]
    cases o.compiled flat .side q made <;> rfl

/-- A clause of a stance compiles if its query does, to the filter of the stance. -/
theorem compiled_stance_of_compiled (h : o.compiled flat .side q made = .ok f) (hostile : Bool) :
    o.compiled flat .side (Query.stance hostile q) made = .ok (Filter.onlyStance hostile f) := by
  rw [compiled_stance, h]
  rfl

/-- The clause of a stance, for a side with a team. -/
theorem verdict_stance {team : Team} (hteam : o.team? side = some team) (hostile : Bool) :
    o.verdict (.stance hostile f) side asked = true ↔
      o.sides f asked ≠ [] ∧ ∀ other ∈ o.sides f asked, team.isEnemy other = hostile := by
  -- the clause asks the sides in the order of the teams
  have hperm := List.mergeSort_perm ((o.teams.map Team.side).filter fun other => o.verdict f other asked)
    fun a b => decide (a ≤ b)
  rw [← sides_apply] at hperm
  cases hostile with
  | true =>
    change o.verdict (.enemyOf f) side asked = true ↔ _
    rw [verdict_enemyOf, hteam, Option.any_some, ← hperm.isEmpty_eq, ← hperm.all_eq]
    simp
  | false =>
    change o.verdict (.alliedWith f) side asked = true ↔ _
    rw [verdict_alliedWith, hteam, Option.any_some, ← hperm.isEmpty_eq, ← hperm.any_eq]
    simp

/-- **A side with a team takes a stance** towards the sides that a filter selects. -/
theorem verdict_onlyStance (hostile : Bool) :
    o.verdict (Filter.onlyStance hostile f) side asked = true ↔
      (o.team? side).isSome = true ∧ TakesStance (isFoe o.teams) hostile (o.sides f asked) side := by
  rw [Filter.onlyStance, verdict_teamed, Bool.and_eq_true, verdict_both, verdict_pass, Bool.and_true]
  refine and_congr_right fun hknown => ?_
  obtain ⟨team, hteam⟩ := Option.isSome_iff_exists.1 hknown
  have hfoe : ∀ other, isFoe o.teams side other = team.isEnemy other := by
    intro other
    rw [isFoe, show teamOf? o.teams side = some team from hteam, Option.any_some]
  rw [o.verdict_stance asked hteam]
  simp only [← hfoe]
  exact ⟨fun h => ⟨h.1, h.2⟩, fun h => ⟨h.1, h.2⟩⟩

/-- The sides that a query selects, none if it is refused. -/
def selected (q : Config) : List Int32 :=
  match o.compiled flat .side q made with
  | .ok f => o.sides f asked
  | .error _ => []

variable {flat made asked}

/-- A query that compiles selects the sides that its filter does. -/
theorem selected_of_compiled (h : o.compiled flat .side q made = .ok f) :
    o.selected flat made asked q = o.sides f asked := by rw [selected, h]

/-- Selected sides have a team. -/
theorem isSome_team?_of_mem_selected (h : side ∈ o.selected flat made asked q) : (o.team? side).isSome = true := by
  rw [selected] at h
  split at h
  · exact ((o.mem_sides asked).1 h).1
  · exact absurd h List.not_mem_nil

/-- **The sides that take a stance** towards what a query selects. -/
theorem mem_selected_stance (h : o.compiled flat .side q made = .ok f) (hostile : Bool) :
    side ∈ o.selected flat made asked (Query.stance hostile q) ↔
      (o.team? side).isSome = true ∧ TakesStance (isFoe o.teams) hostile (o.selected flat made asked q) side := by
  have hstance := o.compiled_stance_of_compiled flat made h hostile
  rw [o.selected_of_compiled hstance, o.selected_of_compiled h, o.mem_sides_of_compiled flat made asked hstance,
    verdict_onlyStance]

/-- All sides of one query take a stance towards those of another. -/
theorem selected_subset_stance (h : o.compiled flat .side q made = .ok f) (hostile : Bool) (q' : Config) :
    o.selected flat made asked q' ⊆ o.selected flat made asked (Query.stance hostile q) ↔
      ∀ side ∈ o.selected flat made asked q',
        TakesStance (isFoe o.teams) hostile (o.selected flat made asked q) side :=
  forall₂_congr fun _ hside =>
    (o.mem_selected_stance h hostile).trans (and_iff_right (o.isSome_team?_of_mem_selected hside))

end Oracle

namespace Query

variable {σ : Type} {ctx : Context σ}

/-- Compiled in the scope `made`, a query over sides is accepted, and asked in the scope
`asked`, its filter selects these sides, and passes them and no other side, whatever the
state of the plug-ins. -/
def SelectsSides (ctx : Context σ) (flat : Bool) (made asked : Scope) (q : Config) (sides : List Int32) : Prop :=
  ∀ host host' : σ, ∃ f, ((compile ctx flat .side q).run.run ⟨made, host⟩).1 = .ok f ∧
    ((f.sides ctx).run ⟨asked, host'⟩).1 = sides ∧
      ∀ side, ((f.run ctx side).run ⟨asked, host'⟩).1 = decide (side ∈ sides)

/-- **The sides that a query selects** when it is run are those that the oracle tells. -/
theorem selectsSides_of_compiled {o : Oracle} (h : ctx.Follows o) {flat : Bool} {made : Scope} (asked : Scope)
    {q : Config} {f : Filter .side} (hf : o.compiled flat .side q made = .ok f) :
    SelectsSides ctx flat made asked q (o.selected flat made asked q) := by
  rw [o.selected_of_compiled hf]
  intro host host'
  refine ⟨f, by rw [(h.compile flat .side q ⟨made, host⟩).1, hf], (h.sidesIn f ⟨asked, host'⟩).1, fun side => ?_⟩
  rw [(h.run f side ⟨asked, host'⟩).1, Bool.eq_iff_iff, decide_eq_true_iff,
    o.mem_sides_of_compiled flat made asked hf]

/-- **Stances are mutual.**  Take a context whose plug-ins are functions and whose teams,
of different sides, are those of a board after it got them.  A query for the enemies or
the allies of a query `A` is refused as `A` is, and otherwise `A` and it select the sides
that pass them, the latter those with a team that take the stance towards what `A` selects.

No side is an enemy and an ally of what `A` selects, and none is either where `A` selects
no side.  If `A` and `B` both select some side, then all that `B` selects are enemies of
what `A` selects exactly when all that `A` selects are enemies of what `B` selects, and the
same holds of allies. -/
theorem stances_mutual (hctx : ctx.IsFunctional) {b : Board} {teams : List Team} (hd : DistinctSides teams)
    (hteams : ctx.teams = (b.withTeams teams).teams) (flat : Bool) (start : Session σ) (asked : Scope) :
    ∃ selected : Config → List Int32, ∀ A : Config,
      (∀ e, ((compile ctx flat .side A).run.run start).1 = .error e →
        ∀ hostile, ((compile ctx flat .side (stance hostile A)).run.run start).1 = .error e) ∧
      ∀ f, ((compile ctx flat .side A).run.run start).1 = .ok f →
        SelectsSides ctx flat start.scope asked A (selected A) ∧
        (∀ hostile, SelectsSides ctx flat start.scope asked (stance hostile A) (selected (stance hostile A))) ∧
        (∀ hostile side, side ∈ selected (stance hostile A) ↔
          (ctx.team? side).isSome = true ∧ TakesStance (isFoe ctx.teams) hostile (selected A) side) ∧
        (∀ side, ¬ (side ∈ selected (stance true A) ∧ side ∈ selected (stance false A))) ∧
        (selected A = [] → ∀ hostile, selected (stance hostile A) = []) ∧
        ∀ B g, ((compile ctx flat .side B).run.run start).1 = .ok g → selected A ≠ [] → selected B ≠ [] →
          ∀ hostile, selected B ⊆ selected (stance hostile A) ↔ selected A ⊆ selected (stance hostile B) := by
  obtain ⟨o, ho, h⟩ := hctx.exists_follows
  have hcompile : ∀ q, ((compile ctx flat .side q).run.run start).1 = o.compiled flat .side q start.scope :=
    fun q => (h.compile flat .side q start).1
  have hfoe : ∀ side other, isFoe o.teams side other = isFoe o.teams other side := by
    intro side other
    rw [show o.teams = recomputeAlliances teams by rw [ho, hteams]; rfl]
    exact isFoe_comm hd side other
  simp only [hcompile, ← ho]
  refine ⟨o.selected flat start.scope asked, fun A => ⟨fun e he hostile => ?_, fun f hf => ?_⟩⟩
  · rw [o.compiled_stance, he]
    rfl
  have hstance := o.compiled_stance_of_compiled flat start.scope hf
  refine ⟨selectsSides_of_compiled h asked hf, fun hostile => selectsSides_of_compiled h asked (hstance hostile),
    fun hostile side => o.mem_selected_stance hf hostile, fun side hboth => ?_, fun hnobody hostile => ?_,
    fun B g hg hA hB hostile => ?_⟩
  · rw [o.mem_selected_stance hf, o.mem_selected_stance hf] at hboth
    exact hboth.1.2.not_both hboth.2.2
  · refine List.eq_nil_iff_forall_not_mem.2 fun side hside => ?_
    exact ((o.mem_selected_stance hf hostile).1 hside).2.somebody hnobody
  · rw [o.selected_subset_stance hf, o.selected_subset_stance hg]
    exact TakesStance.forall_comm hfoe hB hA

/-- The sides whose team has a name. -/
def named (name : String) : Config := .ofAttributes [("team_name", .str name)]

/-- What `stances_mutual` says of two allied sides and one that is hostile to both. -/
theorem stances_mutual_rivals :
    ∃ (teams : List Team) (selected : Config → List Int32), rivals.IsFunctional ∧ DistinctSides teams ∧
      rivals.teams = (rivals.toBoard.withTeams teams).teams ∧
      SelectsSides rivals false .empty .empty (named "good") (selected (named "good")) ∧
      SelectsSides rivals false .empty .empty (named "evil") (selected (named "evil")) ∧
      1 ∈ selected (named "good") ∧ 3 ∈ selected (named "evil") ∧
      ∀ hostile, selected (named "evil") ⊆ selected (stance hostile (named "good")) ↔
        selected (named "good") ⊆ selected (stance hostile (named "evil")) := by
  have hd : DistinctSides [{ side := 1, names := ["good"] }, { side := 2, names := ["good"] },
      { side := 3, names := ["evil"] }] := by
    unfold DistinctSides
    decide
  obtain ⟨selected, h⟩ := stances_mutual rivals_isFunctional (b := rivals.toBoard) hd rfl false ⟨.empty, 0⟩ .empty
  obtain ⟨hgood, -, -, -, -, hmutual⟩ := (h (named "good")).2 _ rfl
  obtain ⟨hevil, -⟩ := (h (named "evil")).2 _ rfl
  have hfirst : 1 ∈ selected (named "good") := by
    obtain ⟨f, hf, -, hpasses⟩ := hgood 0 0
    obtain rfl := Except.ok.inj hf
    exact of_decide_eq_true (hpasses 1).symm
  have hthird : 3 ∈ selected (named "evil") := by
    obtain ⟨f, hf, -, hpasses⟩ := hevil 0 0
    obtain rfl := Except.ok.inj hf
    exact of_decide_eq_true (hpasses 3).symm
  exact ⟨_, selected, rivals_isFunctional, hd, rfl, hgood, hevil, hfirst, hthird,
    hmutual (named "evil") _ rfl (List.ne_nil_of_mem hfirst) (List.ne_nil_of_mem hthird)⟩

end Query
end Muster
