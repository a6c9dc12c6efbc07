/-
# How far a query looks

A query that never asks about all troops of a side can only be told about the
troops nearby: each adjacency clause that is nested in another looks one step
further, and no other clause does.  So two boards that differ in their troops
alone give the same verdict at a location, as long as the troops are the same
within that many steps (`Query.verdict_local`).

How many steps these are is read off the tags.  `Query.chains` lists the chains of
clauses nested in a query, and `Query.reach` is the largest number of adjacency
clauses on one of them.
-/

import Muster.Proofs.Filter.Agreement
import Muster.Proofs.Filter.Origin
import Muster.Proofs.Filter.Walk

namespace Muster

namespace Query

/-! ### Chains of clauses -/

mutual

/-- The chains of clauses nested in a query, each from the query downwards and by its tags. -/
def chains (s : Subject) : Config → List (List String)
  | .node _ cs => [] :: chainsInto s cs

/-- The chains that begin with one of the children of a query. -/
def chainsInto (s : Subject) : List (String × Config) → List (List String)
  | [] => []
  | (tag, child) :: rest =>
    (match childSubject? s tag with
      | some inner => (chains inner child).map (tag :: ·)
      | none => []) ++
      chainsInto s rest

end

/-- The largest number of adjacency clauses on a chain of clauses nested in a query over troops. -/
def reach (q : Config) : Nat := ((chains .troop q).map (List.count "filter_adjacent")).max?.getD 0

variable {s inner : Subject} {q child : Config} {tag : String}

/-- The chain without clauses is one of every query. -/
theorem nil_mem_chains (s : Subject) (q : Config) : [] ∈ chains s q := by
  cases q
  exact List.mem_cons_self ..

/-- **A chain of a child is one of the query,** behind the tag of the child. -/
theorem cons_mem_chains (hmem : (tag, child) ∈ q.children) (hinner : childSubject? s tag = some inner)
    {chain : List String} (hchain : chain ∈ chains inner child) : tag :: chain ∈ chains s q := by
  obtain ⟨as, cs⟩ := q
  refine List.mem_cons_of_mem _ ?_
  induction cs with
  | nil => exact absurd hmem List.not_mem_nil
  | cons e cs ih =>
    obtain ⟨tag', child'⟩ := e
    rw [chainsInto]
    rcases List.mem_cons.1 hmem with h | h
    · cases h
      rw [hinner]
      exact List.mem_append_left _ (List.mem_map_of_mem hchain)
    · exact List.mem_append_right _ (ih h)

/-- The tag of a clause tells what its child is about. -/
theorem childSubject?_tag (p : Part s inner) : childSubject? s p.tag = some inner := by
  cases p with
  | conditional c => cases c <;> rfl
  | _ => rfl

end Query

/-! ### Filters look no further than their queries -/

namespace Oracle

variable {o : Oracle} {made : Scope} {s inner : Subject}

/-- A clause looks as far as its child, and an adjacency clause one step further. -/
theorem steps_ofPart_le (get : String → Value) (p : Part s inner) (f : Filter inner) :
    (Clause.ofPart o.setting get p f made).filter.steps ≤ f.steps + [p.tag].count "filter_adjacent" := by
  cases p with
  | adjacent => exact Nat.le_refl _
  | vision => exact Nat.zero_le _
  | _ => exact Nat.le_add_right ..

/-- A clause goes through all troops only if it is a `has_unit` or its child does. -/
theorem surveys_ofPart {get : String → Value} {p : Part s inner} {f : Filter inner}
    (h : (Clause.ofPart o.setting get p f made).filter.surveys = true) : p.tag = "has_unit" ∨ f.surveys = true := by
  cases p with
  | hasTroop => exact .inl rfl
  | vision => exact absurd h Bool.false_ne_true
  | _ => exact .inr h

/-- A filter that looks no more steps than a chain of its query has adjacency
clauses, and goes through all troops only if a chain asks for that. -/
structure Bounded {s : Subject} (q : Config) (f : Filter s) : Prop where
  steps : ∀ k, (∀ chain ∈ Query.chains s q, chain.count "filter_adjacent" ≤ k) → f.steps ≤ k
  surveys : f.surveys = true → ∃ chain ∈ Query.chains s q, "has_unit" ∈ chain

/-- A filter that looks nowhere else is bounded by every query. -/
theorem Bounded.here {q : Config} {f : Filter s} (hsteps : f.steps = 0) (hsurveys : f.surveys = false) :
    Bounded q f where
  steps k _ := hsteps ▸ Nat.zero_le k
  surveys h := by rw [hsurveys] at h; cases h

/-- A filter put together from bounded ones is bounded. -/
theorem Bounded.join {q : Config} {e f g : Filter s} (hf : Bounded q f) (hg : Bounded q g)
    (hsteps : e.steps = max f.steps g.steps) (hsurveys : e.surveys = (f.surveys || g.surveys)) : Bounded q e where
  steps k hk := hsteps ▸ Nat.max_le.2 ⟨hf.steps k hk, hg.steps k hk⟩
  surveys h := by
    rw [hsurveys, Bool.or_eq_true] at h
    exact h.elim hf.surveys hg.surveys

/-- **Compiled filters look no further than their queries.** -/
theorem inherits_bounded (o : Oracle) (flat : Bool) (made : Scope) : o.Inherits flat made Bounded where
  closed q := {
    pass := .here rfl rfl
    both := fun hf hg => hf.join hg rfl rfl
    joined := fun hf hg => hf.join hg rfl rfl
    bound := fun hf => ⟨hf.steps, hf.surveys⟩
    teamed := fun hf => ⟨hf.steps, hf.surveys⟩
    onMap := fun hf => ⟨hf.steps, hf.surveys⟩ }
  fields q := Query.forall_mem_fieldTests (P := Bounded q) (fun _ => .here rfl rfl) (.here rfl rfl) (.here rfl rfl)
    (.here rfl rfl) (.here rfl rfl)
  pattern {q child} _ := .here rfl rfl
  part {s inner q child} p f hmem hf := by
    have hchain : ∀ chain ∈ Query.chains inner child, p.tag :: chain ∈ Query.chains s q := fun chain =>
      Query.cons_mem_chains hmem (Query.childSubject?_tag p)
    constructor
    · intro k hk
      -- What bounds the chains of the query bounds those of the child after taking off its tag.
      have htag : [p.tag].count "filter_adjacent" ≤ k := hk _ (hchain [] (Query.nil_mem_chains ..))
      have hsteps : f.steps ≤ k - [p.tag].count "filter_adjacent" := hf.steps _ fun chain h => by
        have hcount := hk _ (hchain chain h)
        rw [← List.singleton_append, List.count_append] at hcount
        omega
      have hle : (Clause.ofPart o.setting child.get p f made).filter.steps ≤
          f.steps + [p.tag].count "filter_adjacent" := steps_ofPart_le child.get p f
      omega
    · intro h
      rcases surveys_ofPart h with htag | hsurveys
      · exact ⟨_, hchain [] (Query.nil_mem_chains ..), by simp [htag]⟩
      · obtain ⟨chain, hmem', hunit⟩ := hf.surveys hsurveys
        exact ⟨_, hchain chain hmem', List.mem_cons_of_mem _ hunit⟩

end Oracle

namespace Query

variable {σ : Type} {ctx : Context σ}

/-- **Verdicts are local.**  Take a query over troops that reaches no `has_unit`
clause, and two boards that differ in their troops alone, these being the same
within as many steps of a location as a chain of the query has adjacency clauses.
With plug-ins that are blind to the board, the query compiles alike on both boards,
and every troop gets the same verdict at that location. -/
theorem verdict_local (hctx : ctx.IsBlind) (hroster : ctx.roster.Reachable) {q : Config}
    (hunit : ∀ chain ∈ chains .troop q, "has_unit" ∉ chain) {l : Location} {r : Roster}
    (hnear : ∀ l', l.Within (reach q) l' → ctx.roster.at? l' = r.at? l') (flat : Bool) (start start' : Session σ)
    (hstart : start.scope = start'.scope) :
    ((build q (some ctx) flat).run.run start).1 = ((build q (some { ctx with roster := r }) flat).run.run start').1 ∧
      ∀ f, ((build q (some ctx) flat).run.run start).1 = .ok f → ∀ t (s s' : Session σ), s.scope = s'.scope →
        ((f.matchesAt ctx t l).run s).1 = ((f.matchesAt { ctx with roster := r } t l).run s').1 := by
  obtain ⟨formula, script, hfollows⟩ := hctx.exists_follows
  have h := hfollows ctx.toBoard trivial
  have h' := hfollows { ctx.toBoard with roster := r } trivial
  let o : Oracle := ⟨ctx.toBoard, formula, script⟩
  let o' : Oracle := ⟨{ ctx.toBoard with roster := r }, formula, script⟩
  have hkin : o.Kin o' := ⟨⟨rfl, rfl, rfl, rfl, rfl, fun _ => rfl, .refl _⟩, rfl, rfl⟩
  -- Compiling asks side filters only, and none of these goes through the troops.
  have hcompiled : o.compiled flat .troop q start.scope = o'.compiled flat .troop q start.scope := by
    refine Oracle.compiled_congr (fun s q => ∀ chain ∈ chains s q, "has_unit" ∉ chain) ?_ ?_ q hunit
    · intro s inner q child p hq hmem chain hchain hin
      exact hq _ (cons_mem_chains hmem (childSubject?_tag p) hchain) (List.mem_cons_of_mem _ hin)
    · intro q f hq hf
      refine Oracle.sides_congr hkin hroster.indexed (fun hsurveys => ?_) start.scope
      obtain ⟨chain, hchain, hin⟩ := (Oracle.compiled_of_inherits (o.inherits_bounded flat _) q hf).surveys hsurveys
      exact absurd hin (hq chain hchain)
  refine ⟨h.build_congr h' hstart hcompiled, fun f hf t s s' hs => ?_⟩
  have hf : o.compiled flat .troop q start.scope = .ok f := (h.compile flat .troop q start).1.symm.trans hf
  have hbounded := Oracle.compiled_of_inherits (o.inherits_bounded flat _) q hf
  have hsees : f.SeesAlike (s := .troop) o.roster o'.roster (t, l) := by
    constructor
    · intro m hm l' hl'
      obtain rfl : l = m := Option.some.inj hm
      refine hnear l' (hl'.mono (hbounded.steps _ fun chain hchain => ?_))
      exact List.le_max?_getD_of_mem (List.mem_map_of_mem hchain)
    · intro hsurveys
      obtain ⟨chain, hchain, hin⟩ := hbounded.surveys hsurveys
      exact absurd hin (hunit chain hchain)
  calc ((f.matchesAt ctx t l).run s).1 = o.verdict f (t, l) s.scope := (h.run f _ s).1
    _ = o'.verdict f (t, l) s'.scope := by rw [Oracle.verdict_congr hkin hroster.indexed f hsees, hs]
    _ = ((f.matchesAt { ctx with roster := r } t l).run s').1 := (h'.run (s := .troop) f _ s').1.symm

/-- A ridge of five hexes with a troop on the second, and a script that knows a troop by its id. -/
def ridge : Context PUnit where
  toBoard := ({ map := Grid.filled 5 1 "Hh" } : Board).place { id := "guide", type := "Scout", location := ⟨1, 0⟩ }
  script := some fun name t => return t.id == name

/-- The ridge when another troop has come to its third hex. -/
def crowdedRidge : Context PUnit :=
  { ridge with roster := (ridge.place { id := "mule", type := "Beast", location := ⟨2, 0⟩ }).roster }

/-- The plug-ins of the ridge do not look at the troops. -/
theorem ridge_isBlind : ridge.IsBlind where
  formula evaluate he text l t := by cases he
  script call hc name t := by
    obtain rfl := Option.some.inj hc
    exact ⟨fun _ => t.id == name, fun _ => ⟨rfl, rfl⟩⟩

/-- A query for a neighbour whom the script knows, and who stands where some troop does. -/
def guidedQuery : Config :=
  .wrap "filter_adjacent" (.node (Table.ofList [("lua_function", .str "guide")])
    [("filter_location", .wrap "filter" .empty)])

/-- A troop at the foot of the ridge. -/
def climber : Troop := { id := "climber", type := "Scout", location := ⟨0, 0⟩ }

/-- The hypotheses of `verdict_local` are met by `guidedQuery` on the first hex of the ridge. -/
theorem verdict_local_ridge :
    ridge.IsBlind ∧ ridge.roster.Reachable ∧ (∀ chain ∈ chains .troop guidedQuery, "has_unit" ∉ chain) ∧
      (∀ l', Location.Within (reach guidedQuery) ⟨0, 0⟩ l' → ridge.roster.at? l' = crowdedRidge.roster.at? l') ∧
      ∃ f, ((build guidedQuery (some ridge) false).run.run ⟨.empty, ⟨⟩⟩).1 = .ok f ∧
        ((build guidedQuery (some crowdedRidge) false).run.run ⟨.empty, ⟨⟩⟩).1 = .ok f ∧
        ((f.matchesAt ridge climber ⟨0, 0⟩).run ⟨.empty, ⟨⟩⟩).1 =
          ((f.matchesAt crowdedRidge climber ⟨0, 0⟩).run ⟨.empty, ⟨⟩⟩).1 := by
  have hunit : ∀ chain ∈ chains .troop guidedQuery, "has_unit" ∉ chain := by decide
  have hreach : reach guidedQuery = 1 := by decide
  have hnear : ∀ l', Location.Within (reach guidedQuery) ⟨0, 0⟩ l' →
      ridge.roster.at? l' = crowdedRidge.roster.at? l' := by
    rw [hreach]
    intro l' h
    cases h with
    | here => rfl
    | step d h =>
      cases h
      cases d <;> rfl
  have hroster : ridge.roster.Reachable := Board.reachable_place .empty _
  obtain ⟨hbuild, hverdict⟩ := verdict_local ridge_isBlind hroster hunit hnear false
    ⟨.empty, ⟨⟩⟩ ⟨.empty, ⟨⟩⟩ rfl
  exact ⟨ridge_isBlind, hroster, hunit, hnear, _, rfl, hbuild.symm, hverdict _ rfl climber _ _ rfl⟩

end Query
end Muster
