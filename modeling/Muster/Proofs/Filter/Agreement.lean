/-
# Boards on which filters agree

Two boards are *kin* when they differ at most in their troops and in the order of
their teams.  A filter looks at the troops of a board in two ways: an adjacency
clause and an occupant clause ask who stands at one location, and a `has_unit`
clause goes through all troops.  So a filter agrees on kin boards whose troops are
the same at every location it can reach (`Filter.steps`), and everywhere if it
goes through all of them (`Filter.surveys`): this is `Oracle.verdict_congr`.

An adjacency clause moves the point of view by one step, since a troop found at a
location stands there (`Roster.Indexed`); every other clause about a location
leaves it where it is, and a clause about a side gives it up.
-/

import Muster.Proofs.Board.Roster
import Muster.Proofs.Filter.Verdict

namespace Muster

/-! ### Kin boards -/

/-- Two boards that differ at most in their troops and in the order of their teams. -/
structure Board.Kin (b b' : Board) : Prop where
  map : b.map = b'.map
  types : b.types = b'.types
  «variables» : b.variables = b'.variables
  timeOfDay : b.timeOfDay = b'.timeOfDay
  light : b.light = b'.light
  team : ∀ side, b.team? side = b'.team? side
  sides : (b.teams.map Team.side).Perm (b'.teams.map Team.side)

namespace Board.Kin

variable {b b' : Board}

/-- Hostility is a matter of the teams. -/
theorem isHostile (h : b.Kin b') (t : Troop) (side : Int32) : b.isHostile t side = b'.isHostile t side := by
  rw [Board.isHostile, Board.isHostile, h.team]

/-- What a team cannot see is a matter of the team, the map and the troop. -/
theorem hides (h : b.Kin b') (team : Team) (t : Troop) (l : Location) : b.hides team t l = b'.hides team t l := by
  rw [Board.hides, Board.hides, h.map]

/-- A test of a troop looks at no other troop. -/
theorem troopTest (h : b.Kin b') (test : TroopTest) (t : Troop) (l : Location) :
    test.holds b t l = test.holds b' t l := by
  cases test <;> simp only [TroopTest.holds, h.map, h.types, h.variables, h.team, h.hides]

/-- A test of a place looks at no troop. -/
theorem placeTest (h : b.Kin b') (test : PlaceTest) (l : Location) : test.holds b l = test.holds b' l := by
  cases test <;> simp only [PlaceTest.holds, Board.timeAt, h.map, h.timeOfDay, h.light]

end Board.Kin

/-- Two rosters with the same troops, in any two orders. -/
structure Roster.SameTroops (r r' : Roster) : Prop where
  at? : ∀ l, r.at? l = r'.at? l
  troops : r.troops.Perm r'.troops

/-! ### What a filter looks at -/

/-- The locations that lie at most so many steps from one. -/
inductive Location.Within : Nat → Location → Location → Prop where
  | here {k : Nat} {l : Location} : Within k l l
  | step {k : Nat} {l l' : Location} (d : Direction) (h : Within k (l.neighbor d) l') : Within (k + 1) l l'

/-- What can be reached in some steps can be reached in more. -/
theorem Location.Within.mono {k k' : Nat} {l l' : Location} (h : l.Within k l') (hk : k ≤ k') : l.Within k' l' := by
  induction h generalizing k' with
  | here => exact .here
  | step d _ ih =>
    obtain ⟨n, rfl⟩ := Nat.exists_eq_add_of_le' (Nat.lt_of_lt_of_le (Nat.succ_pos _) hk)
    exact .step d (ih (by omega))

namespace Filter

/-- How many steps a filter may look from where it is asked. -/
def steps : {s : Subject} → Filter s → Nat
  | _, both f g => max f.steps g.steps
  | _, joined _ f g => max f.steps g.steps
  | _, bound f => f.steps
  | _, standing f => f.steps
  | _, ofSide f => f.steps
  | _, adjacent _ f => f.steps + 1
  | _, teamed f => f.steps
  | _, enemyOf f => f.steps
  | _, alliedWith f => f.steps
  | _, hasTroop f => f.steps
  | _, onMap f => f.steps
  | _, occupied f => f.steps
  | _, _ => 0

/-- Whether a filter may go through all troops. -/
def surveys : {s : Subject} → Filter s → Bool
  | _, both f g => f.surveys || g.surveys
  | _, joined _ f g => f.surveys || g.surveys
  | _, bound f => f.surveys
  | _, standing f => f.surveys
  | _, ofSide f => f.surveys
  | _, adjacent _ f => f.surveys
  | _, teamed f => f.surveys
  | _, enemyOf f => f.surveys
  | _, alliedWith f => f.surveys
  | _, hasTroop _ => true
  | _, onMap f => f.surveys
  | _, occupied f => f.surveys
  | _, _ => false

/-- Where a candidate is looked at; a side is nowhere. -/
def place? : {s : Subject} → s.Candidate → Option Location
  | .troop, (_, l) => some l
  | .side, _ => none
  | .place, l => some l

variable {r r' : Roster} {s s' : Subject}

/-- Two rosters that a filter asked about a candidate cannot tell apart. -/
structure SeesAlike (r r' : Roster) (f : Filter s) (x : s.Candidate) : Prop where
  near : ∀ l ∈ place? x, ∀ l', l.Within f.steps l' → r.at? l' = r'.at? l'
  whole : f.surveys = true → r.SameTroops r'

namespace SeesAlike

/-- A part of a filter sees no more where it is asked about the same place, or about none. -/
theorem part {f : Filter s} {x : s.Candidate} (h : f.SeesAlike r r' x) {g : Filter s'} {y : s'.Candidate}
    (hsteps : g.steps ≤ f.steps) (hsurveys : g.surveys = true → f.surveys = true)
    (hplace : ∀ l ∈ place? y, l ∈ place? x) : g.SeesAlike r r' y where
  near l hl l' hl' := h.near l (hplace l hl) l' (hl'.mono hsteps)
  whole hg := h.whole (hsurveys hg)

/-- Two filters see no more than what is made of them. -/
theorem parts {e f g : Filter s} {x : s.Candidate} (h : e.SeesAlike r r' x) (hsteps : e.steps = max f.steps g.steps)
    (hsurveys : e.surveys = (f.surveys || g.surveys)) : f.SeesAlike r r' x ∧ g.SeesAlike r r' x := by
  constructor
  · exact h.part (by rw [hsteps]; exact Nat.le_max_left ..) (fun hf => by rw [hsurveys, hf, Bool.true_or]) fun _ => id
  · exact h.part (by rw [hsteps]; exact Nat.le_max_right ..) (fun hg => by rw [hsurveys, hg, Bool.or_true]) fun _ => id

/-- What an adjacency clause asks of a neighbour sees one step less. -/
theorem neighbor {a : Adjacency} {f : Filter .troop} {t : Troop} {l : Location}
    (h : (adjacent a f).SeesAlike r r' (t, l)) (d : Direction) {n : Troop} (hn : n.location = l.neighbor d) :
    f.SeesAlike r r' (n, n.location) where
  near m hm l' hl' := by
    obtain rfl : n.location = m := Option.some.inj hm
    rw [hn] at hl'
    exact h.near l rfl l' (.step d hl')
  whole hf := h.whole hf

end SeesAlike

/-- The same troops are seen alike by every filter. -/
theorem seesAlike_of_sameTroops (h : r.SameTroops r') (f : Filter s) (x : s.Candidate) : f.SeesAlike r r' x where
  near _ _ l' _ := h.at? l'
  whole _ := h

end Filter

/-! ### Verdicts on kin boards -/

namespace Oracle

/-- Two oracles over kin boards with the same answers. -/
structure Kin (o o' : Oracle) : Prop where
  board : o.toBoard.Kin o'.toBoard
  formula : o.formula = o'.formula
  script : o.script = o'.script

variable {o o' : Oracle}

/-- Kin boards have the same team of each side. -/
theorem Kin.team (h : o.Kin o') (side : Int32) : o.team? side = o'.team? side := h.board.team side

/-- The sides that pass are the same, in any two orders. -/
theorem Kin.filter_sides (h : o.Kin o') {p p' : Int32 → Bool} (hp : ∀ side, p side = p' side) :
    ((o.teams.map Team.side).filter p).Perm ((o'.teams.map Team.side).filter p') := by
  obtain rfl : p = p' := funext hp
  exact h.board.sides.filter p

/-- **Filters agree on kin boards** wherever they see the same troops. -/
theorem verdict_congr (h : o.Kin o') (hr : o.roster.Indexed) :
    ∀ {s : Subject} (f : Filter s) {x : s.Candidate} (_ : f.SeesAlike o.roster o'.roster x) (sc : Scope),
      o.verdict f x sc = o'.verdict f x sc
  | _, .pass, _, _, _ => rfl
  | _, .both f g, x, hx, sc => by
    obtain ⟨hf, hg⟩ := hx.parts (f := f) (g := g) rfl rfl
    rw [verdict_both, verdict_both, verdict_congr h hr f hf, verdict_congr h hr g hg]
  | _, .joined c f g, x, hx, sc => by
    obtain ⟨hf, hg⟩ := hx.parts (f := f) (g := g) rfl rfl
    rw [verdict_joined, verdict_joined, verdict_congr h hr f hf, verdict_congr h hr g hg]
  | _, .troopTest test, (t, l), _, sc => h.board.troopTest test t l
  | _, .sideTest test, side, _, sc => by rw [verdict_sideTest, verdict_sideTest, h.team]
  | _, .placeTest test, l, _, sc => h.board.placeTest test l
  | _, .formula text, (t, l), _, sc => by rw [verdict_formula, verdict_formula, h.formula]
  | _, .script name, (t, l), _, sc => by rw [verdict_script, verdict_script, h.script]
  | _, .bound own, (t, l), hx, sc => verdict_congr h hr own (hx.part (Nat.le_refl _) id fun _ => id) (sc.under t l)
  | _, .standing f, (t, l), hx, sc => verdict_congr h hr f (hx.part (Nat.le_refl _) id fun _ => id) sc
  | _, .ofSide f, (t, l), hx, sc => verdict_congr h hr f (hx.part (Nat.le_refl _) id nofun) sc
  | _, .adjacent a f, (t, l), hx, sc => by
    have hfound : ∀ d, o.roster.at? (l.neighbor d) = o'.roster.at? (l.neighbor d) := fun d =>
      hx.near l rfl _ (.step d .here)
    -- A neighbour stands where it was found, one step nearer to what its own filter can reach.
    have hverdict : ∀ n ∈ a.directions.filterMap fun d => o'.roster.at? (l.neighbor d),
        o.verdict f (n, n.location) sc = o'.verdict f (n, n.location) sc := by
      intro n hn
      obtain ⟨d, -, hd⟩ := List.mem_filterMap.1 hn
      have hstands := (hr.at?_eq_some_iff.1 ((hfound d).trans hd)).2
      exact verdict_congr h hr f (hx.neighbor d hstands) sc
    simp only [verdict_adjacent, hfound, h.board.isHostile]
    rw [List.filter_congr hverdict]
  | _, .teamed f, side, hx, sc => by
    rw [verdict_teamed, verdict_teamed, h.team, verdict_congr h hr f (hx.part (Nat.le_refl _) id fun _ => id)]
  | _, .enemyOf f, side, hx, sc => by
    have hsides := h.filter_sides fun other => verdict_congr h hr f (x := other) (hx.part (Nat.le_refl _) id nofun) sc
    simp only [verdict_enemyOf, h.team, hsides.isEmpty_eq, hsides.all_eq]
  | _, .alliedWith f, side, hx, sc => by
    have hsides := h.filter_sides fun other => verdict_congr h hr f (x := other) (hx.part (Nat.le_refl _) id nofun) sc
    simp only [verdict_alliedWith, h.team, hsides.isEmpty_eq, hsides.any_eq]
  | _, .hasTroop f, side, hx, sc => by
    have hsame := hx.whole rfl
    have hverdict : ∀ t : Troop, o.verdict f (t, t.location) sc = o'.verdict f (t, t.location) sc := fun t =>
      verdict_congr h hr f (Filter.seesAlike_of_sameTroops hsame f _) sc
    simp only [verdict_hasTroop, hverdict]
    exact (hsame.troops.filter _).any_eq
  | _, .onMap f, l, hx, sc => by
    rw [verdict_onMap, verdict_onMap, h.board.map, verdict_congr h hr f (hx.part (Nat.le_refl _) id fun _ => id)]
  | _, .occupied f, l, hx, sc => by
    rw [verdict_occupied, verdict_occupied, ← hx.near l rfl l .here]
    cases ht : o.roster.at? l with
    | none => rfl
    | some t =>
      obtain rfl := (hr.at?_eq_some_iff.1 ht).2
      exact verdict_congr h hr f (hx.part (Nat.le_refl _) id fun _ => id) sc

/-- Sorting forgets the order. -/
theorem mergeSort_eq_of_perm {as bs : List Int32} (h : as.Perm bs) :
    (as.mergeSort fun a b => decide (a ≤ b)) = bs.mergeSort fun a b => decide (a ≤ b) := by
  have hsorted : ∀ cs : List Int32,
      (cs.mergeSort fun a b => decide (a ≤ b)).Pairwise fun a b => decide (a ≤ b) = true :=
    List.pairwise_mergeSort (fun _ _ _ => by simpa using Int32.le_trans) fun a b => by simpa using Int32.le_total a b
  refine List.Perm.eq_of_pairwise (fun a b _ _ hab hba => ?_) (hsorted as) (hsorted bs) ?_
  · exact Int32.le_antisymm (of_decide_eq_true hab) (of_decide_eq_true hba)
  · exact (List.mergeSort_perm ..).trans (h.trans (List.mergeSort_perm ..).symm)

/-- **Filters over sides select alike** on kin boards, unless they see different troops. -/
theorem sides_congr (h : o.Kin o') (hr : o.roster.Indexed) {f : Filter .side}
    (hf : f.surveys = true → o.roster.SameTroops o'.roster) (sc : Scope) : o.sides f sc = o'.sides f sc := by
  have hsides := h.filter_sides fun side => verdict_congr h hr f (x := side) ⟨nofun, hf⟩ sc
  rw [sides_apply, sides_apply, mergeSort_eq_of_perm hsides]

end Oracle

/-- **Contexts build alike** what their oracles compile alike. -/
theorem Context.Follows.build_congr {σ : Type} {ctx ctx' : Context σ} {o o' : Oracle} (h : ctx.Follows o)
    (h' : ctx'.Follows o') {flat : Bool} {q : Config} {start start' : Session σ} (hstart : start.scope = start'.scope)
    (hcompiled : o.compiled flat .troop q start.scope = o'.compiled flat .troop q start.scope) :
    ((Query.build q (some ctx) flat).run.run start).1 = ((Query.build q (some ctx') flat).run.run start').1 :=
  calc ((Query.build q (some ctx) flat).run.run start).1 = o.compiled flat .troop q start.scope :=
        (h.compile flat .troop q start).1
    _ = o'.compiled flat .troop q start'.scope := by rw [hcompiled, hstart]
    _ = ((Query.build q (some ctx') flat).run.run start').1 := (h'.compile flat .troop q start').1.symm

end Muster
