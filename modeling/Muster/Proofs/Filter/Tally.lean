/-
# The tally of neighbours

A clause `filter_adjacent` asks how many neighbours of a troop pass a nested query and
are of the hostility that the clause asks for.  Different directions lead to different
neighbours (`Location.neighbor_inj`), so counting directions is counting neighbours as long as no
direction is listed twice:

| list | directions | a neighbour to the north is counted |
| --- | --- | ---: |
| none | all six | once |
| `n, se` | north, south-east | once |
| `n, up` | north | once |
| `n, -s` | north, north | twice |

The last row shows where the two part (`not_adjacency_tally_doubled`).  What the filter
compares with the clause's numbers is always the count of the listed directions; it is
the number of neighbours where no direction comes twice (`adjacency_tally`).
-/

import Muster.Proofs.Board.Lattice
import Muster.Proofs.Filter.Composition

namespace Muster

/-! ### Neighbours -/

namespace Board

/-- Whether a location counts for a troop: a troop is there that passes and is of the
hostility asked for, if any is. -/
def tallies (b : Board) (t : Troop) (hostile : Option Bool) (passes : Troop → Bool) (n : Location) : Bool :=
  (b.roster.at? n).any fun u => passes u && hostile.all (b.isHostile t u.side == ·)

/-- The neighbours of a location that lie in a listed direction and count, each once. -/
def tallied (b : Board) (t : Troop) (l : Location) (a : Adjacency) (passes : Troop → Bool) : List Location :=
  l.neighbors.filter fun n => (a.directions.map l.neighbor).contains n && b.tallies t a.hostile passes n

variable (b : Board) (t : Troop) (l : Location) (a : Adjacency) (passes : Troop → Bool)

/-- No neighbour is tallied twice. -/
theorem nodup_tallied : (b.tallied t l a passes).Nodup := (l.nodup_map_neighbor (by decide)).filter _

/-- A neighbour is tallied if a listed direction leads there and it passes. -/
theorem mem_tallied {n : Location} :
    n ∈ b.tallied t l a passes ↔ (∃ d ∈ a.directions, l.neighbor d = n) ∧ b.tallies t a.hostile passes n = true := by
  simp only [tallied, List.mem_filter, Location.mem_neighbors, Bool.and_eq_true, List.contains_iff_mem, List.mem_map]
  exact ⟨fun h => h.2, fun h => ⟨h.1.imp fun _ hd => hd.2, h⟩⟩

/-- The troops in the listed directions that pass and are of the hostility asked for are
as many as the directions that count. -/
theorem length_filter_passing (ds : List Direction) (hostile : Option Bool) :
    (((ds.filterMap fun d => b.roster.at? (l.neighbor d)).filter passes).filter
      fun u => hostile.all (b.isHostile t u.side == ·)).length =
        ((ds.map l.neighbor).filter (b.tallies t hostile passes)).length := by
  induction ds with
  | nil => rfl
  | cons d ds ih =>
    rw [List.map_cons, List.filter_cons, tallies, List.filterMap_cons]
    cases b.roster.at? (l.neighbor d) with
    | none => exact ih
    | some u =>
      rw [Option.any_some, List.filter_cons]
      cases passes u with
      | false => exact ih
      | true =>
        rw [if_pos rfl, List.filter_cons, Bool.true_and]
        cases hostile.all (b.isHostile t u.side == ·) with
        | false => exact ih
        | true => exact congrArg (· + 1) ih

/-- **Where no direction comes twice,** as many listed directions count as neighbours. -/
theorem length_filter_eq_length_tallied (h : a.directions.Nodup) :
    ((a.directions.map l.neighbor).filter (b.tallies t a.hostile passes)).length = (b.tallied t l a passes).length := by
  refine ((List.perm_ext_iff_of_nodup ((l.nodup_map_neighbor h).filter _) (b.nodup_tallied t l a passes)).2
    fun n => ?_).length_eq
  rw [List.mem_filter, List.mem_map, b.mem_tallied]

end Board

/-! ### Asking the neighbours -/

section

variable {σ : Type} {ctx : Context σ} {sc : Scope}

/-- **Asking in order where each answer is settled** selects by these answers. -/
theorem Run.select_settled {α : Type} {test : α → Run σ Bool} {passes : α → Bool} {as : List α}
    (h : ∀ a ∈ as, ∀ host, ((test a).run ⟨sc, host⟩).1 = passes a ∧ ((test a).run ⟨sc, host⟩).2.scope = sc) (host : σ) :
    ((Run.select test as).run ⟨sc, host⟩).1 = as.filter passes ∧ ((Run.select test as).run ⟨sc, host⟩).2.scope = sc := by
  induction as generalizing host with
  | nil => exact ⟨rfl, rfl⟩
  | cons a as ih =>
    have hfirst := h a (List.mem_cons_self ..) host
    have hstep : (Run.select test (a :: as)).run ⟨sc, host⟩ =
        (if ((test a).run ⟨sc, host⟩).1 then a :: ((Run.select test as).run ((test a).run ⟨sc, host⟩).2).1
          else ((Run.select test as).run ((test a).run ⟨sc, host⟩).2).1,
          ((Run.select test as).run ((test a).run ⟨sc, host⟩).2).2) := rfl
    rw [hstep, List.filter_cons]
    generalize (test a).run ⟨sc, host⟩ = after at hfirst ⊢
    obtain ⟨answer, sc', host'⟩ := after
    obtain ⟨rfl, rfl⟩ := hfirst
    obtain ⟨hrest, hscope⟩ := ih (fun a' ha' => h a' (List.mem_cons_of_mem _ ha')) host'
    exact ⟨by rw [hrest], hscope⟩

/-- The answers of a filter to the question whether a troop on the map passes where it
stands are settled in a scope: the state of the plug-ins does not change them, and the
scope comes back. -/
def Filter.Settles (ctx : Context σ) (f : Filter .troop) (sc : Scope) (passes : Troop → Bool) : Prop :=
  ∀ u ∈ ctx.roster.troops, ∀ host, ((f.matchesTroop ctx u).run ⟨sc, host⟩).1 = passes u ∧
    ((f.matchesTroop ctx u).run ⟨sc, host⟩).2.scope = sc

/-- **Answers are settled in every scope** where the plug-ins are functions. -/
theorem Context.IsFunctional.exists_settles (h : ctx.IsFunctional) (f : Filter .troop) (sc : Scope) :
    ∃ passes, f.Settles ctx sc passes := by
  obtain ⟨o, -, ho⟩ := h.exists_follows
  exact ⟨fun u => o.verdict f (u, u.location) sc, fun u _ host => ho.run f (u, u.location) ⟨sc, host⟩⟩

/-- **An adjacency clause** compares the count of the listed directions with its numbers. -/
theorem Filter.run_adjacent {f : Filter .troop} {passes : Troop → Bool} (h : f.Settles ctx sc passes) (a : Adjacency)
    (t : Troop) (l : Location) (host : σ) :
    (((Filter.adjacent a f).run ctx (t, l)).run ⟨sc, host⟩).1 =
      a.counts.contains ((a.directions.map l.neighbor).filter (ctx.tallies t a.hostile passes)).length := by
  have hneighbors : ∀ u ∈ a.directions.filterMap fun d => ctx.roster.at? (l.neighbor d), u ∈ ctx.roster.troops := by
    intro u hu
    obtain ⟨d, -, hd⟩ := List.mem_filterMap.1 hu
    exact Roster.mem_of_at? hd
  have hselect := (Run.select_settled (fun u hu => h u (hneighbors u hu)) host).1
  rw [← Board.length_filter_passing, ← hselect]
  rfl

end

namespace Query

variable {σ : Type}

/-- The filter of a query that consists of one clause about the neighbours. -/
def neighborFilter (get : String → Value) (f : Filter .troop) : Filter .troop :=
  .bound (.both (.adjacent (adjacency get) f) .pass)

/-- **One clause compiles as the nested query does.** -/
theorem build_adjacent (ctx : Context σ) (flat : Bool) (c : Config) :
    build (.wrap "filter_adjacent" c) (some ctx) flat = neighborFilter c.get <$> build c (some ctx) flat := by
  have hmeaning : TagMeaning.ofTag .troop "filter_adjacent" = .part .troop .adjacent := rfl
  have hfirst : ∀ seen : List Slot, (liftM (Except.ok seen : Except FilterError (List Slot)) : Build σ _) = pure seen :=
    fun _ => rfl
  have hclause : ∀ clause : Clause .troop, (liftM (pure clause : Run σ (Clause .troop)) : Build σ _) = pure clause :=
    fun _ => rfl
  have hfilter : ∀ f, assemble flat Table.empty.get? .troop [.own .adjacent (.adjacent (adjacency c.get) f)] =
      neighborFilter c.get f := fun _ => rfl
  rw [← bind_pure_comp]
  simp only [build, compile, Config.wrap, compileIn, compileChildren, hmeaning, checkOnce, onceOnly?, hfirst,
    Clause.ofPart, hclause, pure_bind, bind_assoc, hfilter, List.isEmpty_cons, Bool.and_false, Bool.false_eq_true,
    if_false]

/-- A query of one clause about the neighbours is asked under the binding of the troop. -/
theorem run_neighborFilter (ctx : Context σ) (get : String → Value) (f : Filter .troop) (t : Troop) (l : Location)
    (sc : Scope) (host : σ) :
    (((neighborFilter get f).matchesAt ctx t l).run ⟨sc, host⟩).1 =
      (((Filter.adjacent (adjacency get) f).run ctx (t, l)).run ⟨sc.under t l, host⟩).1 := by
  let own : Run σ Bool := (Filter.adjacent (adjacency get) f).run ctx (t, l)
  have hown : ∀ s : Session σ, (((Filter.both (.adjacent (adjacency get) f) .pass).run ctx (t, l)).run s).1 =
      (own.run s).1 := by
    intro s
    change ((if (own.run s).1 then pure true else pure false : Run σ Bool).run (own.run s).2).1 = (own.run s).1
    cases (own.run s).1 <;> rfl
  have htesting : ∀ r : Run σ Bool, ((ctx.setting.testing t l r).run ⟨sc, host⟩).1 =
      (r.run ⟨sc.under t l, host⟩).1 := by
    intro r
    simp only [Context.setting, Scope.under]
    split <;> rfl
  exact (htesting _).trans (hown _)

/-- **The tally of neighbours.**  Take a query that consists of one clause
`filter_adjacent`, in any context.  It is refused with the error of the nested query, or
compiles if that does.  Wherever the answers of the nested filter are settled, the
filter's verdict on a troop at a location is whether the clause's numbers contain the
count of the listed directions in which a troop stands that passes the nested filter and
is of the hostility asked for.  If no direction is listed twice, this is the number of
the neighbours of the location that lie in a listed direction and hold such a troop.
The answers are settled in every scope where the plug-ins are functions. -/
theorem adjacency_tally (ctx : Context σ) (flat : Bool) (c : Config) (start : Session σ) :
    (∀ e, ((build c (some ctx) flat).run.run start).1 = .error e →
      ((build (.wrap "filter_adjacent" c) (some ctx) flat).run.run start).1 = .error e) ∧
    (∀ f, ((build c (some ctx) flat).run.run start).1 = .ok f →
      ∃ g, ((build (.wrap "filter_adjacent" c) (some ctx) flat).run.run start).1 = .ok g ∧
        ∀ t l sc passes, f.Settles ctx (sc.under t l) passes → ∀ host,
          ((g.matchesAt ctx t l).run ⟨sc, host⟩).1 =
            (adjacency c.get).counts.contains (((adjacency c.get).directions.map l.neighbor).filter
              (ctx.tallies t (adjacency c.get).hostile passes)).length ∧
          ((adjacency c.get).directions.Nodup → ((g.matchesAt ctx t l).run ⟨sc, host⟩).1 =
            (adjacency c.get).counts.contains (ctx.tallied t l (adjacency c.get) passes).length)) ∧
    (ctx.IsFunctional → ∀ f sc, ∃ passes, Filter.Settles ctx f sc passes) := by
  have hbuild : ((build (.wrap "filter_adjacent" c) (some ctx) flat).run.run start).1 =
      neighborFilter c.get <$> ((build c (some ctx) flat).run.run start).1 := by
    rw [build_adjacent, ExceptT.run_map, StateT.run_map]
    rfl
  refine ⟨fun e he => ?_, fun f hf => ⟨neighborFilter c.get f, ?_, fun t l sc passes h host => ?_⟩,
    fun h => h.exists_settles⟩
  · rw [hbuild, he]
    rfl
  · rw [hbuild, hf]
    rfl
  · have hverdict := (run_neighborFilter ctx c.get f t l sc host).trans (Filter.run_adjacent h (adjacency c.get) t l host)
    exact ⟨hverdict, fun hnodup => by rw [hverdict, ctx.length_filter_eq_length_tallied t l _ passes hnodup]⟩

/-- A meadow with a troop in its middle and another one to the north of it. -/
def outpost : Context PUnit where
  toBoard := (({ map := Grid.filled 3 3 "Gg" } : Board).place { id := "guard", type := "Spearman", location := ⟨1, 1⟩ }).place
    { id := "friend", type := "Spearman", location := ⟨1, 0⟩ }

/-- A query for a single neighbour in the given directions. -/
def oneNeighbor (directions : String) : Config := .ofAttributes [("adjacent", .str directions), ("count", .str "1")]

/-- The filter that asks nothing of a troop. -/
theorem settles_bound_pass (ctx : Context σ) (sc : Scope) : (Filter.bound .pass).Settles ctx sc fun _ => true := by
  intro u _ host
  simp only [Filter.matchesTroop, Filter.matchesAt, Filter.run, Filter.ask, Context.setting]
  split <;> exact ⟨rfl, rfl⟩

/-- What `adjacency_tally` says of a list that names the north once: the friend there counts. -/
theorem adjacency_tally_north :
    (adjacency (oneNeighbor "n,up").get).directions.Nodup ∧
      ∃ g, ((build (.wrap "filter_adjacent" (oneNeighbor "n,up")) (some outpost) false).run.run ⟨.empty, ⟨⟩⟩).1 = .ok g ∧
        ∀ t, (Filter.bound .pass).Settles outpost (Scope.empty.under t ⟨1, 1⟩) (fun _ => true) ∧
          ((g.matchesAt outpost t ⟨1, 1⟩).run ⟨.empty, ⟨⟩⟩).1 = true := by
  have hnodup : (adjacency (oneNeighbor "n,up").get).directions.Nodup := by decide
  obtain ⟨-, hok, -⟩ := adjacency_tally outpost false (oneNeighbor "n,up") ⟨.empty, ⟨⟩⟩
  obtain ⟨g, hg, hverdict⟩ := hok (.bound .pass) rfl
  refine ⟨hnodup, g, hg, fun t => ⟨settles_bound_pass outpost _, ?_⟩⟩
  rw [(hverdict t ⟨1, 1⟩ .empty _ (settles_bound_pass outpost _) ⟨⟩).2 hnodup]
  rfl

/-- **A neighbour that is listed twice counts twice.**  The friend to the north is the one
neighbour in the directions `n,-s`, and passes the nested query; a query for a single
neighbour in these directions does not hold. -/
theorem not_adjacency_tally_doubled :
    ∃ g, ((build (oneNeighbor "n,-s") (some outpost) false).run.run ⟨.empty, ⟨⟩⟩).1 = .ok (.bound .pass) ∧
      ((build (.wrap "filter_adjacent" (oneNeighbor "n,-s")) (some outpost) false).run.run ⟨.empty, ⟨⟩⟩).1 = .ok g ∧
      ∀ t, (Filter.bound .pass).Settles outpost (Scope.empty.under t ⟨1, 1⟩) (fun _ => true) ∧
        outpost.tallied t ⟨1, 1⟩ (adjacency (oneNeighbor "n,-s").get) (fun _ => true) = [⟨1, 0⟩] ∧
        (adjacency (oneNeighbor "n,-s").get).counts.contains 1 = true ∧
        ((g.matchesAt outpost t ⟨1, 1⟩).run ⟨.empty, ⟨⟩⟩).1 = false :=
  ⟨_, rfl, rfl, fun _ => ⟨settles_bound_pass outpost _, rfl, rfl, rfl⟩⟩

end Query
end Muster
