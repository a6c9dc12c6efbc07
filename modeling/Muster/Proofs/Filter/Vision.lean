/-
# Viewers

A clause `filter_vision` holds a query over sides.  The sides that pass it, its *viewers*,
are found when the clause is compiled, while troops are tested later and in other scopes.
Where the plug-ins answer from what they are given alone, this makes no difference:
asking the query over sides at any time selects the viewers (`Query.vision_meaning`).

A troop passes as soon as one viewer sees it as expected, so a clause that expects it
hidden is not the negation of one that expects it seen:

| viewers | expected seen | expected hidden |
| --- | --- | --- |
| none | fails | fails |
| all see the troop | passes | fails |
| none sees the troop | fails | passes |
| some see it, some do not | passes | passes |
-/

import Muster.Proofs.Board.Alliances
import Muster.Proofs.Filter.Plain

namespace Muster

/-! ### Plug-ins that answer from what they are given -/

/-- A run *gives* a value when its result is that value in every session. -/
def Run.Gives {σ α : Type} (r : Run σ α) (a : α) : Prop := ∀ s : Session σ, (r.run s).1 = a

/-- Giving a value is kept by sequencing. -/
def Run.gives (σ : Type) : Simulation (Run σ) Id where
  rel := Run.Gives
  rel_pure _ _ := rfl
  rel_bind {_ _ x y f g} hx hf s := by
    change ((f (x.run s).1).run (x.run s).2).1 = g y
    rw [hf (x.run s).1 (x.run s).2, hx s]

/-- Asking without a state is filtering. -/
theorem Run.select_id {α : Type} (p : α → Bool) : ∀ as : List α, Run.select (m := Id) p as = as.filter p
  | [] => rfl
  | a :: as => by
    rw [List.filter_cons, ← select_id p as]
    rfl

namespace Context

variable {σ : Type} {ctx : Context σ}

/-- A context whose plug-ins answer from what they are given alone, whatever the scope
and their own state. -/
structure IsSteady (ctx : Context σ) : Prop where
  formula : ∀ evaluate ∈ ctx.formula, ∀ text l t, ∃ v, (evaluate ctx.toBoard text l t).Gives v
  script : ∀ call ∈ ctx.script, ∀ name t, ∃ v, (call name t).Gives v

/-- **A steady context answers like a setting without sessions** over its board. -/
theorem IsSteady.exists_alike (h : ctx.IsSteady) :
    ∃ S : Setting Id, S.toBoard = ctx.toBoard ∧ ctx.setting.Alike (Run.gives σ) S := by
  have hf : ∀ text l t, ∃ v, (ctx.setting.formula text l t).Gives v := by
    intro text l t
    cases he : ctx.formula with
    | none => exact ⟨false, fun _ => by simp only [setting, he]; rfl⟩
    | some evaluate => simpa [setting, he] using h.formula evaluate he text l t
  have hs : ∀ name t, ∃ v, (ctx.setting.script name t).Gives v := by
    intro name t
    cases he : ctx.script with
    | none => exact ⟨true, fun _ => by simp only [setting, he]; rfl⟩
    | some call => simpa [setting, he] using h.script call he name t
  refine ⟨⟨ctx.toBoard, fun text l t => (hf text l t).choose, fun name t => (hs name t).choose, fun _ _ own => own⟩,
    rfl, rfl, fun text l t => (hf text l t).choose_spec, fun name t => (hs name t).choose_spec, ?_⟩
  intro t l own v hown s
  simp only [setting]
  split
  · exact hown _
  · exact hown s

/-- A side with a team *selected* by a filter that is asked in a session. -/
def Selects (ctx : Context σ) (g : Filter .side) (s : Session σ) (side : Int32) (team : Team) : Prop :=
  ctx.team? side = some team ∧ ((g.run ctx side).run s).1 = true

/-- A side that is selected has one team. -/
theorem Selects.unique {g : Filter .side} {s : Session σ} {side : Int32} {team team' : Team}
    (h : ctx.Selects g s side team) (h' : ctx.Selects g s side team') : team = team' :=
  Option.some.inj (h.1.symm.trans h'.1)

end Context

/-! ### Vision clauses -/

/-- A side with a team is one of the sides. -/
theorem Board.mem_sides_of_team? {b : Board} {side : Int32} {team : Team} (h : b.team? side = some team) :
    side ∈ b.teams.map Team.side :=
  isSome_teamOf?_iff.1 (Option.isSome_of_eq_some h)

/-- A troop is seen as expected if some viewer with a team sees it so. -/
theorem TroopTest.holds_seen_iff {b : Board} {t : Troop} {l : Location} {viewers : List Int32} {expected : Bool} :
    (seen viewers expected).holds b t l = true ↔
      ∃ side ∈ viewers, ∃ team, b.team? side = some team ∧ expected ≠ b.hides team t l := by
  simp only [holds, List.any_eq_true, Option.any_eq_true, bne_iff_ne, ne_comm]

/-- **The sides that pass,** in a setting without sessions. -/
theorem Filter.mem_sidesIn {S : Setting Id} {g : Filter .side} {side : Int32} :
    side ∈ (g.sidesIn S).run ↔ side ∈ S.teams.map Team.side ∧ g.ask S side = true := by
  have hsides : (g.sidesIn S).run =
      (Run.select (m := Id) (g.ask S) (S.teams.map Team.side)).mergeSort fun a b => decide (a ≤ b) := rfl
  rw [hsides, Run.select_id, List.mem_mergeSort, List.mem_filter]

namespace Query

/-- **A vision clause compiles as its query over sides does,** and asks for the viewers at once. -/
theorem compileIn_vision {m : Type → Type} [Monad m] [LawfulMonad m] (S : Setting m) (flat : Bool) (v : Config) :
    compileIn S flat .troop (.wrap "filter_vision" v) = do
      let g ← compileIn S flat .side v
      let viewers ← (liftM (g.sidesIn S) : ExceptT FilterError m (List Int32))
      return plainFilter [.seen viewers ((v.get "visible").toBool true)] := by
  have hmeaning : TagMeaning.ofTag .troop "filter_vision" = .part .side .vision := rfl
  have hfirst : ∀ seen : List Slot,
      (liftM (Except.ok seen : Except FilterError (List Slot)) : ExceptT FilterError m _) = pure seen := fun _ => rfl
  have hfilter : ∀ viewers expected,
      assemble flat Table.empty.get? .troop [.own .vision (.troopTest (.seen viewers expected))] =
        plainFilter [.seen viewers expected] := fun _ _ => rfl
  have hclause : ∀ g : Filter .side,
      (liftM (Clause.ofPart S v.get .vision g) : ExceptT FilterError m (Clause .troop)) =
        (liftM (g.sidesIn S) : ExceptT FilterError m (List Int32)) >>= fun viewers =>
          pure (.own .vision (.troopTest (.seen viewers ((v.get "visible").toBool true)))) := by
    intro g
    rw [bind_pure_comp, ← liftM_map, ← bind_pure_comp]
    rfl
  simp only [Config.wrap, compileIn, compileChildren, hmeaning, checkOnce, onceOnly?, hfirst, hclause, pure_bind,
    bind_assoc, hfilter, List.isEmpty_cons, Bool.and_false, Bool.false_eq_true, if_false]

/-- What a side query selects does not depend on whether its viewers should see the troop. -/
theorem compileIn_set_visible {m : Type → Type} [Monad m] (S : Setting m) (flat : Bool) (v : Config) (w : Value) :
    compileIn S flat .side (v.set "visible" w) = compileIn S flat .side v := by
  obtain ⟨as, cs⟩ := v
  have hget : ∀ key, key ≠ "visible" → ((Config.node as cs).set "visible" w).get key = as.get? key := by
    intro key hkey
    rw [Config.get_set, if_neg hkey]
    rfl
  have hassemble : ∀ cl, assemble flat ((Config.node as cs).set "visible" w).attributes.get? .side cl =
      assemble flat as.get? .side cl := by
    intro cl
    change assemble flat ((Config.node as cs).set "visible" w).get .side cl = _
    simp only [assemble, ownTests, teamTests, hget "side" (by decide), hget "team_name" (by decide),
      hget "controller" (by decide)]
  rw [← Config.node_eta ((Config.node as cs).set "visible" w), Config.children_set]
  simp only [compileIn, hassemble]
  rfl

variable {σ : Type} {ctx : Context σ}

/-- **The viewers of a clause** are the sides that its query selects at any time. -/
theorem mem_viewers_iff {S : Setting Id} (h : ctx.setting.Alike (Run.gives σ) S) (g : Filter .side) (s : Session σ)
    {side : Int32} {team : Team} (hteam : ctx.team? side = some team) :
    side ∈ (g.sidesIn S).run ↔ ctx.Selects g s side team := by
  have hboard : S.toBoard = ctx.toBoard := h.board.symm
  rw [Filter.mem_sidesIn, Context.Selects, Filter.run, h.ask g side s, hboard]
  exact ⟨fun hside => ⟨hteam, hside.2⟩, fun hside => ⟨Board.mem_sides_of_team? hteam, hside.2⟩⟩

/-- Without sessions, compiling a vision clause is compiling its query over sides. -/
theorem run_compileIn_vision (S : Setting Id) (flat : Bool) (v : Config) :
    (compileIn S flat .troop (.wrap "filter_vision" v)).run.run = (compileIn S flat .side v).run.run.map fun g =>
      plainFilter [.seen (g.sidesIn S).run ((v.get "visible").toBool true)] := by
  have hrun : ∀ x : ExceptT FilterError Id (Filter .side),
      (x >>= fun g => (liftM (g.sidesIn S) : ExceptT FilterError Id (List Int32)) >>= fun viewers =>
        pure (plainFilter [.seen viewers ((v.get "visible").toBool true)])).run.run =
          x.run.run.map fun g => plainFilter [.seen (g.sidesIn S).run ((v.get "visible").toBool true)] := by
    rintro (_ | _) <;> rfl
  rw [compileIn_vision]
  exact hrun _

/-- **A vision clause is compiled at any time,** and passes where a side that its query
selects finds the troop as expected. -/
theorem build_vision (h : ctx.IsSteady) (flat : Bool) (v : Config) (start start' : Session σ) :
    (∀ e, ((compile ctx flat .side v).run.run start').1 = .error e →
      ((build (.wrap "filter_vision" v) (some ctx) flat).run.run start).1 = .error e) ∧
    ∀ g, ((compile ctx flat .side v).run.run start').1 = .ok g →
      ∃ f, ((build (.wrap "filter_vision" v) (some ctx) flat).run.run start).1 = .ok f ∧
        ∀ t l s, ((f.matchesAt ctx t l).run s).1 = true ↔
          ∃ side team, ctx.Selects g s side team ∧ (v.get "visible").toBool true ≠ ctx.hides team t l := by
  obtain ⟨S, -, halike⟩ := h.exists_alike
  have hside : ((compile ctx flat .side v).run.run start').1 = (compileIn S flat .side v).run.run :=
    halike.compileIn flat .side v start'
  have hbuild : ((build (.wrap "filter_vision" v) (some ctx) flat).run.run start).1 =
      (compileIn S flat .troop (.wrap "filter_vision" v)).run.run :=
    halike.compileIn flat .troop (.wrap "filter_vision" v) start
  rw [hside, hbuild, run_compileIn_vision]
  refine ⟨fun e he => by rw [he]; rfl, fun g hg => ⟨_, by rw [hg]; rfl, fun t l s => ?_⟩⟩
  rw [Filter.matchesAt, run_plainFilter, List.all_cons, List.all_nil, Bool.and_true, TroopTest.holds_seen_iff]
  constructor
  · rintro ⟨side, hviewer, team, hteam, hsees⟩
    exact ⟨side, team, (mem_viewers_iff halike g s hteam).1 hviewer, hsees⟩
  · rintro ⟨side, team, hselects, hsees⟩
    exact ⟨side, (mem_viewers_iff halike g s hselects.1).2 hselects, team, hselects.1, hsees⟩

/-- The verdicts of two clauses with the same viewers, of which one passes where a viewer
sees the troop and the other one where a viewer does not. -/
structure SeenAndHidden (seen hidden : Bool) (viewer : Int32 → Team → Prop) (hides : Team → Bool) : Prop where
  nobody : (¬ ∃ side team, viewer side team) → seen = false ∧ hidden = false
  somebody : ∀ side team, viewer side team → (∀ side' team', viewer side' team' → side' = side) → seen = !hidden
  both : seen = true ∧ hidden = true ↔
    ∃ side team side' team', viewer side team ∧ viewer side' team' ∧ hides team ≠ hides team'

/-- Both clauses at once, where each viewer has one team. -/
theorem SeenAndHidden.of_iff {seen hidden : Bool} {viewer : Int32 → Team → Prop} {hides : Team → Bool}
    (hteam : ∀ side team team', viewer side team → viewer side team' → team = team')
    (hseen : seen = true ↔ ∃ side team, viewer side team ∧ hides team = false)
    (hhidden : hidden = true ↔ ∃ side team, viewer side team ∧ hides team = true) :
    SeenAndHidden seen hidden viewer hides where
  nobody hnone := by
    refine ⟨Bool.eq_false_iff.2 fun h => ?_, Bool.eq_false_iff.2 fun h => ?_⟩
    · obtain ⟨side, team, hviewer, -⟩ := hseen.1 h
      exact hnone ⟨side, team, hviewer⟩
    · obtain ⟨side, team, hviewer, -⟩ := hhidden.1 h
      exact hnone ⟨side, team, hviewer⟩
  somebody side team hviewer honly := by
    have hone : ∀ b, (∃ side team, viewer side team ∧ hides team = b) ↔ hides team = b := by
      refine fun b => ⟨fun ⟨side', team', hviewer', hb⟩ => ?_, fun hb => ⟨side, team, hviewer, hb⟩⟩
      obtain rfl := honly side' team' hviewer'
      rwa [hteam side' team team' hviewer hviewer']
    rw [hone] at hseen hhidden
    cases h : hides team with
    | false => rw [hseen.2 h, Bool.eq_false_iff.2 fun hh => Bool.noConfusion (h.symm.trans (hhidden.1 hh))]; rfl
    | true => rw [hhidden.2 h, Bool.eq_false_iff.2 fun hs => Bool.noConfusion (h.symm.trans (hseen.1 hs))]; rfl
  both := by
    rw [hseen, hhidden]
    constructor
    · rintro ⟨⟨side, team, hviewer, hsees⟩, side', team', hviewer', hhides⟩
      refine ⟨side, team, side', team', hviewer, hviewer', ?_⟩
      rw [hsees, hhides]
      exact Bool.false_ne_true
    · rintro ⟨side, team, side', team', hviewer, hviewer', hne⟩
      cases h : hides team with
      | false => exact ⟨⟨side, team, hviewer, h⟩, side', team', hviewer', by simpa [h] using hne.symm⟩
      | true => exact ⟨⟨side', team', hviewer', by simpa [h] using hne.symm⟩, side, team, hviewer, h⟩

/-- **Vision is decided by the viewers.**  Take a query that consists of one clause
`filter_vision`, in a context whose plug-ins answer from what they are given alone, and
compile the clause as a query over sides, in whatever session.  If that is refused, so is
the whole query, with the same error.  Otherwise the whole query compiles, and its filter
passes a troop at a location, in whatever session, exactly when there is a side with a
team that the side query selects in that session and from whom the troop is not hidden,
or is hidden if the clause says that it should not be visible.

Take the same clause once with the troop visible and once not.  Without a viewer both
fail; with a single viewer exactly one of them passes; and both pass exactly when two
viewers disagree. -/
theorem vision_meaning (h : ctx.IsSteady) (flat : Bool) (v : Config) (start start' : Session σ) :
    (∀ e, ((compile ctx flat .side v).run.run start').1 = .error e →
      ((build (.wrap "filter_vision" v) (some ctx) flat).run.run start).1 = .error e) ∧
    ∀ g, ((compile ctx flat .side v).run.run start').1 = .ok g →
      (∃ f, ((build (.wrap "filter_vision" v) (some ctx) flat).run.run start).1 = .ok f ∧
        ∀ t l s, ((f.matchesAt ctx t l).run s).1 = true ↔
          ∃ side team, ctx.Selects g s side team ∧ (v.get "visible").toBool true ≠ ctx.hides team t l) ∧
      ∀ w w', Value.toBool w true = true → Value.toBool w' true = false →
        ∃ seen hidden,
          ((build (.wrap "filter_vision" (v.set "visible" w)) (some ctx) flat).run.run start).1 = .ok seen ∧
          ((build (.wrap "filter_vision" (v.set "visible" w')) (some ctx) flat).run.run start).1 = .ok hidden ∧
          ∀ t l s, SeenAndHidden ((seen.matchesAt ctx t l).run s).1 ((hidden.matchesAt ctx t l).run s).1
            (ctx.Selects g s) (ctx.hides · t l) := by
  obtain ⟨herror, hok⟩ := build_vision h flat v start start'
  refine ⟨herror, fun g hg => ⟨hok g hg, fun w w' hw hw' => ?_⟩⟩
  have hset : ∀ w, ((compile ctx flat .side (v.set "visible" w)).run.run start').1 = .ok g := by
    intro w
    rw [compile, compileIn_set_visible]
    exact hg
  obtain ⟨seen, hseen, hsees⟩ := (build_vision h flat (v.set "visible" w) start start').2 g (hset w)
  obtain ⟨hidden, hhidden, hhides⟩ := (build_vision h flat (v.set "visible" w') start start').2 g (hset w')
  rw [Config.get_set, if_pos rfl, hw] at hsees
  rw [Config.get_set, if_pos rfl, hw'] at hhides
  refine ⟨seen, hidden, hseen, hhidden, fun t l s => .of_iff (fun _ _ _ => Context.Selects.unique) ?_ ?_⟩
  · simpa only [ne_eq, Bool.true_eq, Bool.not_eq_true] using hsees t l s
  · simpa only [ne_eq, Bool.false_eq, Bool.not_eq_false] using hhides t l s

/-- A moor on which the second side holds a well, in fog to itself.  The evaluator counts
its calls and knows the troops of the second side. -/
def moor : Context Nat where
  toBoard := ({ map := Grid.filled 2 2 "Gg", teams := [.ofSide 1, { Team.ofSide 2 with hasFog := true }] } : Board).place
    { id := "well", type := "Watchtower", side := 2, location := ⟨1, 1⟩ }
  formula := some fun _ _ _ t => do
    modify fun s => { s with host := s.host + 1 }
    return t.side == 2

/-- The plug-ins of the moor answer from what they are given alone. -/
theorem moor_isSteady : moor.IsSteady where
  formula evaluate he text l t := by
    obtain rfl := Option.some.inj he
    exact ⟨t.side == 2, fun _ => rfl⟩
  script call hc := by simp [moor] at hc

/-- Viewers that have a troop on the map of which a formula holds. -/
def keepers : Config := .wrap "has_unit" (.ofAttributes [("formula", .str "ours")])

/-- What `vision_meaning` says of the keepers: the second side is a viewer, and does not see
through its fog, so the clause that expects a troop hidden passes. -/
theorem vision_meaning_keepers :
    moor.IsSteady ∧ Value.toBool none true = true ∧ Value.toBool (some (.str "no")) true = false ∧
    ∃ g, ((compile moor false .side keepers).run.run ⟨.empty, 7⟩).1 = .ok g ∧
      moor.Selects g ⟨.empty, 3⟩ 2 { Team.ofSide 2 with hasFog := true } ∧
      ∃ seen hidden,
        ((build (.wrap "filter_vision" (keepers.set "visible" none)) (some moor) false).run.run ⟨.empty, 0⟩).1 = .ok seen ∧
        ((build (.wrap "filter_vision" (keepers.set "visible" (some (.str "no")))) (some moor) false).run.run
          ⟨.empty, 0⟩).1 = .ok hidden ∧
        SeenAndHidden false ((hidden.matchesAt moor scout ⟨0, 0⟩).run ⟨.empty, 3⟩).1 (moor.Selects g ⟨.empty, 3⟩)
          (moor.hides · scout ⟨0, 0⟩) ∧
        ((hidden.matchesAt moor scout ⟨0, 0⟩).run ⟨.empty, 3⟩).1 = true := by
  have hword : Value.toBool (some (.str "no")) true = false := by decide
  obtain ⟨-, hok⟩ := vision_meaning moor_isSteady false keepers ⟨.empty, 0⟩ ⟨.empty, 7⟩
  obtain ⟨-, hpair⟩ := hok _ rfl
  obtain ⟨seen, hidden, hseen, hhidden, h⟩ := hpair none (some (.str "no")) rfl hword
  refine ⟨moor_isSteady, rfl, hword, _, rfl, ⟨rfl, rfl⟩, seen, hidden, hseen, hhidden, ?_, ?_⟩
  · have hverdict : ((seen.matchesAt moor scout ⟨0, 0⟩).run ⟨.empty, 3⟩).1 = false := by
      obtain rfl := Except.ok.inj hseen
      decide +kernel
    rw [← hverdict]
    exact h scout ⟨0, 0⟩ ⟨.empty, 3⟩
  · obtain rfl := Except.ok.inj hhidden
    decide +kernel

end Query
end Muster
