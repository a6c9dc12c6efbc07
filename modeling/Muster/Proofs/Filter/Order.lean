/-
# The order of troops and teams

A board is built from teams and troops that come in some order.  No query can tell
in which: on boards that are built from the same teams, of different numbers, and
the same troops, at different locations on the map, every query compiles alike, its
filter gives the same verdicts, and what it finds among the troops on the map it
finds in the order in which they were placed (`Query.order_independent`).

Such boards are kin, since the enemies of a team are a set (`KeySet.ext_contains`)
and the team of a number is the only one (`teamOf?_eq_some_iff`); and they have the
same troops, since the troop at a location is the only one that stands there
(`Roster.Indexed.at?_eq_some_iff`).
-/

import Muster.Proofs.Board.Alliances
import Muster.Proofs.Filter.Agreement
import Muster.Proofs.Filter.Origin

namespace Muster

variable {teams teams' : List Team}

/-! ### Boards in any order -/

/-- **Rosters of the same troops** have the same troop at every location. -/
theorem Roster.sameTroops_of_perm {r r' : Roster} (hr : r.Indexed) (hr' : r'.Indexed) (h : r.troops.Perm r'.troops) :
    r.SameTroops r' where
  at? l := Option.ext fun t => by rw [hr.at?_eq_some_iff, hr'.at?_eq_some_iff, h.mem_iff]
  troops := h

namespace Board

/-- The board with the given teams and troops in place of its own, the troops placed in order. -/
def arranged (b : Board) (teams : List Team) (troops : List Troop) : Board :=
  ({ b with roster := .empty }.withTeams teams).placeAll troops

/-- Troops that find room on a board: at different locations on the map. -/
structure HasRoom (b : Board) (troops : List Troop) : Prop where
  onMap : ∀ t ∈ troops, b.map.holds t.location = true
  distinct : troops.Pairwise fun t u => t.location ≠ u.location

variable {b : Board} {troops troops' : List Troop}

/-- There is room for troops in one order if there is in another. -/
theorem HasRoom.perm (h : b.HasRoom troops) (hp : troops.Perm troops') : b.HasRoom troops' where
  onMap t ht := h.onMap t (hp.mem_iff.2 ht)
  distinct := (hp.pairwise_iff fun hne => hne.symm).1 h.distinct

/-- Arranging changes the teams and the roster of a board and nothing else. -/
theorem arranged_eq (b : Board) (teams : List Team) (troops : List Troop) :
    b.arranged teams troops =
      { b with teams := recomputeAlliances teams, roster := (b.arranged teams troops).roster } :=
  placeAll_eq ..

/-- The troops of an arranged board have been placed one by one. -/
theorem reachable_arranged (b : Board) (teams : List Team) (troops : List Troop) :
    (b.arranged teams troops).roster.Reachable := reachable_placeAll .empty troops

/-- **Troops that find room stand in the roster in their order.** -/
theorem troops_arranged (h : b.HasRoom troops) (teams : List Team) :
    (b.arranged teams troops).roster.troops = troops :=
  troops_placeAll .empty h.onMap (fun _ hu => absurd hu List.not_mem_nil) h.distinct

/-- **Boards of the same teams are kin,** in whatever order these are listed. -/
theorem kin_arranged (hd : DistinctSides teams) (h : teams.Perm teams') (troops troops' : List Troop) :
    (b.arranged teams troops).Kin (b.arranged teams' troops') := by
  rw [b.arranged_eq teams, b.arranged_eq teams']
  refine ⟨rfl, rfl, rfl, rfl, rfl, teamOf?_perm hd.recomputeAlliances (recomputeAlliances_perm h), ?_⟩
  exact (recomputeAlliances_perm h).map _

/-- **Boards of the same troops have the same ones everywhere,** in whatever order these came. -/
theorem sameTroops_arranged (hroom : b.HasRoom troops) (h : troops.Perm troops') (teams teams' : List Team) :
    (b.arranged teams troops).roster.SameTroops (b.arranged teams' troops').roster := by
  refine Roster.sameTroops_of_perm (b.reachable_arranged ..).indexed (b.reachable_arranged ..).indexed ?_
  rw [troops_arranged hroom, troops_arranged (hroom.perm h)]
  exact h

end Board

/-! ### Queries on boards in any order -/

/-- The context with the given teams and troops in place of its own, the troops placed in order. -/
def Context.arranged {σ : Type} (ctx : Context σ) (teams : List Team) (troops : List Troop) : Context σ :=
  { ctx with toBoard := ctx.toBoard.arranged teams troops }

/-- Asked in a scope, a filter gives a verdict on every troop at every location, and
finds on the map those of the given troops that pass where they stand, in order. -/
structure Filter.Finds {σ : Type} (f : Filter .troop) (ctx : Context σ) (asked : Scope) (troops : List Troop)
    (verdict : Troop → Location → Bool) : Prop where
  matchesAt : ∀ t l host, ((f.matchesAt ctx t l).run ⟨asked, host⟩).1 = verdict t l
  allOnMap : ∀ host, ((f.allOnMap ctx).run ⟨asked, host⟩).1 = troops.filter fun t => verdict t t.location
  firstOnMap : ∀ host, ((f.firstOnMap ctx).run ⟨asked, host⟩).1 = (troops.filter fun t => verdict t t.location).head?

/-- **A filter finds the troops on which the oracle says yes.** -/
theorem Context.Follows.finds {σ : Type} {ctx : Context σ} {o : Oracle} (h : ctx.Follows o) (f : Filter .troop)
    (asked : Scope) : f.Finds ctx asked ctx.roster.troops fun t l => o.verdict f (t, l) asked where
  matchesAt t l host := (h.run f _ _).1
  allOnMap host := by
    have hselect := ((Run.answers σ).select (fun t => h.run f (t, t.location)) ctx.roster.troops ⟨asked, host⟩).1
    rw [Look.select_apply] at hselect
    exact hselect
  firstOnMap host := by
    have hfirst := ((Run.answers σ).first? (fun t => h.run f (t, t.location)) ctx.roster.troops ⟨asked, host⟩).1
    rw [Look.first?_apply] at hfirst
    rw [List.head?_filter]
    exact hfirst

namespace Query

variable {σ : Type} {ctx : Context σ}

/-- **No query can tell the order of the board.**  Take two boards that are built
from the same teams of different numbers, listed in any two orders, and the same
troops at different locations on the map, placed in any two orders.  With plug-ins
that are blind to the board, every query compiles to the same filter or is refused
with the same error; the filter gives every troop at every location the same verdict
on both boards, and finds on each board the troops that pass, in the order in which
they were placed there. -/
theorem order_independent (hctx : ctx.IsBlind) {teams teams' : List Team} (hsides : DistinctSides teams)
    (hteams : teams.Perm teams') {troops troops' : List Troop} (hroom : ctx.HasRoom troops)
    (htroops : troops.Perm troops') (flat : Bool) (q : Config) (start start' : Session σ)
    (hstart : start.scope = start'.scope) :
    ((build q (some (ctx.arranged teams troops)) flat).run.run start).1 =
        ((build q (some (ctx.arranged teams' troops')) flat).run.run start').1 ∧
      ∀ f, ((build q (some (ctx.arranged teams troops)) flat).run.run start).1 = .ok f → ∀ asked,
        ∃ verdict, f.Finds (ctx.arranged teams troops) asked troops verdict ∧
          f.Finds (ctx.arranged teams' troops') asked troops' verdict := by
  obtain ⟨formula, script, hfollows⟩ := hctx.exists_follows
  let o : Oracle := ⟨ctx.toBoard.arranged teams troops, formula, script⟩
  let o' : Oracle := ⟨ctx.toBoard.arranged teams' troops', formula, script⟩
  have h : (ctx.arranged teams troops).Follows o := hfollows _ trivial
  have h' : (ctx.arranged teams' troops').Follows o' := hfollows _ trivial
  have hkin : o.Kin o' := ⟨Board.kin_arranged hsides hteams troops troops', rfl, rfl⟩
  have hsame : o.roster.SameTroops o'.roster := Board.sameTroops_arranged hroom htroops teams teams'
  have hindexed : o.roster.Indexed := (Board.reachable_arranged ..).indexed
  have hcompiled : o.compiled flat .troop q start.scope = o'.compiled flat .troop q start.scope :=
    Oracle.compiled_congr (fun _ _ => True) (fun _ _ _ => trivial)
      (fun _ f _ _ => Oracle.sides_congr hkin hindexed (fun _ => hsame) start.scope) q trivial
  refine ⟨h.build_congr h' hstart hcompiled, fun f _ asked => ⟨fun t l => o.verdict f (t, l) asked, ?_, ?_⟩⟩
  · have hplaced : (ctx.arranged teams troops).roster.troops = troops := Board.troops_arranged hroom teams
    have hfinds := h.finds f asked
    rwa [hplaced] at hfinds
  · have hplaced : (ctx.arranged teams' troops').roster.troops = troops' :=
      Board.troops_arranged (hroom.perm htroops) teams'
    have hverdict : ∀ t l, o'.verdict f (t, l) asked = o.verdict f (t, l) asked := fun t l =>
      (Oracle.verdict_congr hkin hindexed f (Filter.seesAlike_of_sameTroops hsame f (t, l)) asked).symm
    have hfinds := h'.finds f asked
    simp only [hverdict] at hfinds
    rwa [hplaced] at hfinds

/-- A street of three hexes, and an evaluator that counts its calls and knows the second side only. -/
def street : Context Nat where
  map := Grid.filled 3 1 "Gg"
  formula := some fun _ _ _ t => do
    modify fun s => { s with host := s.host + 1 }
    return t.side == 2

/-- The plug-ins of the street do not look at the troops. -/
theorem street_isBlind : street.IsBlind where
  formula evaluate he text l t := by
    obtain rfl := Option.some.inj he
    exact ⟨fun _ => t.side == 2, fun _ _ _ => ⟨rfl, rfl⟩⟩
  script call hc := by cases hc

/-- A troop of the first side at one end of the street. -/
def baker : Troop := { id := "baker", type := "Peasant", location := ⟨0, 0⟩ }

/-- A troop of the second side at the other end. -/
def smith : Troop := { id := "smith", type := "Peasant", side := 2, location := ⟨2, 0⟩ }

/-- A query for the troops of a side with enemies among whose troops a formula holds of one. -/
def rivalQuery : Config :=
  .wrap "filter_side" (.wrap "enemy_of" (.wrap "has_unit" (.ofAttributes [("formula", .str "ours")])))

/-- The hypotheses of `order_independent` are met by two teams and two troops in opposite orders. -/
theorem order_independent_street :
    street.IsBlind ∧ DistinctSides [.ofSide 1, .ofSide 2] ∧ street.HasRoom [baker, smith] ∧
      ∃ f, ((build rivalQuery (some (street.arranged [.ofSide 1, .ofSide 2] [baker, smith])) false).run.run
          ⟨.empty, 0⟩).1 = .ok f ∧
        ((build rivalQuery (some (street.arranged [.ofSide 2, .ofSide 1] [smith, baker])) false).run.run
          ⟨.empty, 5⟩).1 = .ok f ∧
        ∃ verdict, f.Finds (street.arranged [.ofSide 1, .ofSide 2] [baker, smith]) .empty [baker, smith] verdict ∧
          f.Finds (street.arranged [.ofSide 2, .ofSide 1] [smith, baker]) .empty [smith, baker] verdict := by
  have hsides : DistinctSides [.ofSide 1, .ofSide 2] := by
    refine List.pairwise_pair.2 ?_
    decide
  have hroom : street.HasRoom [baker, smith] := ⟨by decide, List.pairwise_pair.2 (by decide)⟩
  obtain ⟨hbuild, hfinds⟩ := order_independent street_isBlind hsides (.swap ..) hroom (.swap ..) false rivalQuery
    ⟨.empty, 0⟩ ⟨.empty, 5⟩ rfl
  exact ⟨street_isBlind, hsides, hroom, _, rfl, hbuild.symm, hfinds _ rfl .empty⟩

end Query
end Muster
