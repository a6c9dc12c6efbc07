/-
# Patterns of a query

The clauses `filter_wml` of a query match patterns against the snapshot of the troop.
A pattern that consists of one child `variables` is not: it is matched against the
variables alone, for which no snapshot is needed.  The answer is the same
(`Query.holds_patternTest`), since the snapshot has the variables as its one child of
that tag and the tag is no `not`.

| pattern | matched against |
| --- | --- |
| `variables` and nothing else | the variables |
| `variables` twice, or beside another child or an attribute | the snapshot |
| anything else | the snapshot |

So the patterns of a query together ask for the conjunction of their matches with the
snapshot (`Query.patterns_exact`), and one snapshot is enough for all of them
(`Troop.matchInTurn_eq`).
-/

import Muster.Proofs.Filter.Flat
import Muster.Proofs.Filter.Placement
import Muster.Proofs.Filter.Plain
import Muster.Proofs.Troop.Snapshot

namespace Muster
namespace Query

/-- **A pattern for the variables alone** is a pattern for the snapshot. -/
theorem matchesPattern_of_stored {p inner : Config} (h : patternTest p = .stored inner) (t : Troop) :
    t.variables.matchesPattern inner = t.snapshot.matchesPattern p := by
  unfold patternTest at h
  split at h
  · next hattributes hchildren =>
    have hempty : p.attributes = Table.empty := by
      obtain ⟨⟨es, hes⟩, cs⟩ := p
      obtain rfl : es = [] := List.isEmpty_iff.1 hattributes
      rfl
    have hp : p = .wrap "variables" inner := by
      rw [← p.node_eta, hempty, hchildren]
      cases h
      rfl
    rw [hp, Config.matchesPattern_wrap _ (by decide), t.childrenAt_snapshot]
    simp
  · cases h

/-- **The test of a pattern is a match with the snapshot.** -/
theorem holds_patternTest (p : Config) (b : Board) (t : Troop) (l : Location) :
    (patternTest p).holds b t l = t.snapshot.matchesPattern p := by
  rcases patternTest_eq p with ⟨inner, h⟩ | h
  · rw [← matchesPattern_of_stored h, h]
    rfl
  · rw [h]
    rfl

/-- **Patterns asked in order** are matches with the snapshot. -/
theorem all_patternTest (ps : List Config) (b : Board) (t : Troop) (l : Location) :
    (ps.map patternTest).all (·.holds b t l) = ps.all t.snapshot.matchesPattern := by
  rw [List.all_map]
  exact congrArg ps.all (funext fun p => holds_patternTest p b t l)

end Query

/-! ### One snapshot is enough -/

namespace Troop

/-- Match a troop against patterns in order, up to the first that fails.  The snapshot is
made when a pattern first needs it and kept for those behind it; beside the verdict stands
how many snapshots were made. -/
def matchInTurn (t : Troop) : Option Config → List Config → Bool × Nat
  | _, [] => (true, 0)
  | kept, p :: ps =>
    match Query.patternTest p with
    | .stored inner => if t.variables.matchesPattern inner then t.matchInTurn kept ps else (false, 0)
    | _ =>
      let snapshot := kept.getD t.snapshot
      let after := if snapshot.matchesPattern p then t.matchInTurn (some snapshot) ps else (false, 0)
      (after.1, (if kept.isSome then 0 else 1) + after.2)

/-- **With the snapshot at hand or not,** the verdict is the conjunction of the matches with
it, and it is made at most once. -/
theorem matchInTurn_eq {t : Troop} {kept : Option Config} (hkept : ∀ s ∈ kept, s = t.snapshot) (ps : List Config) :
    (t.matchInTurn kept ps).1 = ps.all t.snapshot.matchesPattern ∧
      (t.matchInTurn kept ps).2 ≤ if kept.isSome then 0 else 1 := by
  induction ps generalizing kept with
  | nil => exact ⟨rfl, Nat.zero_le _⟩
  | cons p ps ih =>
    rw [List.all_cons, matchInTurn]
    split
    · next inner hp =>
      rw [← Query.matchesPattern_of_stored hp]
      cases t.variables.matchesPattern inner with
      | false => exact ⟨rfl, Nat.zero_le _⟩
      | true => exact ih hkept
    · have hsnapshot : kept.getD t.snapshot = t.snapshot := by
        cases kept with
        | none => rfl
        | some s => exact hkept s rfl
      have hmade : ∀ s ∈ some t.snapshot, s = t.snapshot := fun s hs => (Option.some.inj hs).symm
      obtain ⟨hverdict, hcount⟩ := ih hmade
      simp only [hsnapshot]
      cases t.snapshot.matchesPattern p with
      | false => exact ⟨rfl, Nat.le_refl _⟩
      | true => exact ⟨hverdict, Nat.add_le_add_left hcount _⟩

end Troop

namespace Query

/-! ### The patterns of a compiled query -/

section

variable {m : Type → Type} [Monad m] [LawfulMonad m] (S : Setting m)

/-- A child that is a query makes no pattern. -/
theorem coincide_ofPart (get : String → Value) {inner : Subject} (p : Part .troop inner) (f : Filter inner) :
    Coincide (fun c : Clause .troop => Clause.inSlot .pattern [c] = []) (Clause.ofPart S get p f)
      (Clause.ofPart S get p f) := by
  cases p with
  | vision => exact (Coincide.refl _).bind fun _ _ => .pure rfl
  | _ => exact .pure rfl

/-- **Compiled children** hold the patterns of the children, in order. -/
theorem coincide_compileChildren (flat : Bool) (seen : List Slot) (cs : List (String × Config)) :
    Coincide (fun cl => Clause.inSlot .pattern cl =
        (Config.valuesAt "filter_wml" cs).map fun p => .troopTest (patternTest p))
      (compileChildren S flat .troop seen cs) (compileChildren S flat .troop seen cs) := by
  induction cs generalizing seen with
  | nil => exact .pure rfl
  | cons e rest ih =>
    obtain ⟨tag, child⟩ := e
    have hother : tag ≠ "filter_wml" →
        Config.valuesAt "filter_wml" ((tag, child) :: rest) = Config.valuesAt "filter_wml" rest := by
      intro htag
      rw [Config.valuesAt_cons, if_neg htag]
    cases hm : TagMeaning.ofTag .troop tag with
    | ignored =>
      rw [hother (by rintro rfl; cases hm)]
      simp only [compileChildren, hm]
      exact ih seen
    | pattern test =>
      have htag : tag = "filter_wml" :=
        @TagMeaning.forall_pattern .troop tag (fun tag _ => tag = "filter_wml") child rfl test hm
      subst htag
      obtain rfl := TagMeaning.pattern.inj hm
      simp only [compileChildren, hm]
      refine (ih seen).bind fun cl hcl => .pure ?_
      rw [Config.valuesAt_cons, if_pos rfl, List.map_cons, ← hcl]
      rfl
    | part inner p =>
      rw [hother (by rintro rfl; cases hm)]
      simp only [compileChildren, hm]
      refine (Coincide.refl _).bind fun seen' _ => ?_
      refine (Coincide.refl _).bind fun f _ => ?_
      refine ((coincide_ofPart S child.get p f).exceptT _).bind fun c hc => ?_
      refine (ih seen').bind fun cl hcl => .pure ?_
      have happend : Clause.inSlot .pattern ([c] ++ cl) = Clause.inSlot .pattern [c] ++ Clause.inSlot .pattern cl :=
        List.filterMap_append
      rw [← List.singleton_append, happend, hc, hcl, List.nil_append]

/-- The patterns of a query. -/
def patterns (q : Config) : List Config := q.childrenAt "filter_wml"

/-- A filter of a query is the null filter of the empty one, or is put together from
clauses that hold the patterns of the query, in order. -/
def HoldsPatterns (flat : Bool) (q : Config) (f : Filter .troop) : Prop :=
  (q.isEmpty = true ∧ f = .pass) ∨ ∃ cl : List (Clause .troop), f = assemble flat q.get .troop cl ∧
    Clause.inSlot .pattern cl = ((patterns q).map patternTest).map .troopTest

/-- **A query of patterns** compiles to a filter that holds them. -/
theorem coincide_compileIn (flat : Bool) (q : Config) :
    Coincide (HoldsPatterns flat q) (compileIn S flat .troop q) (compileIn S flat .troop q) := by
  obtain ⟨as, cs⟩ := q
  simp only [compileIn]
  split
  · next hempty => exact .pure (.inl ⟨by simpa [Config.isEmpty] using hempty, rfl⟩)
  · refine (coincide_compileChildren S flat [] cs).bind fun cl hcl => .pure (.inr ⟨cl, rfl, ?_⟩)
    rw [hcl, List.map_map]
    rfl

end

variable {σ : Type}

/-- **A query of patterns alone** says whether the snapshot matches them all. -/
theorem says_patterns (ctx : Context σ) (flat : Bool) (ps : List Config) (t : Troop) (l : Location) (made asked : Scope) :
    Says ctx flat (s := .troop) (t, l) made asked (.node Table.empty (ps.map (Prod.mk "filter_wml")))
      (ps.all t.snapshot.matchesPattern) := by
  have hsays := says_plain ctx flat Table.empty rfl rfl ps t l made asked
  have htests : plainTests (Table.empty : Table String Scalar).get? ps = ps.map patternTest := List.append_nil _
  rwa [htests, all_patternTest] at hsays

/-- **The patterns of a query are matched against the snapshot.**  A query that consists of
patterns holds of a troop exactly when its snapshot matches them all, in every context and
every scope.

In the filter of any query that compiles, the clauses for patterns are those of the
query's patterns, in order, and asking them gives the conjunction of their matches with
the snapshot and leaves the session as it is.  It can be asked with one snapshot at most. -/
theorem patterns_exact (ctx : Context σ) (flat : Bool) (t : Troop) (l : Location) :
    (∀ (ps : List Config) made asked, Says ctx flat (s := .troop) (t, l) made asked
      (.node Table.empty (ps.map (Prod.mk "filter_wml"))) (ps.all t.snapshot.matchesPattern)) ∧
    (∀ q start f, ((build q (some ctx) flat).run.run start).1 = .ok f →
      (q.isEmpty = true ∧ f = .pass) ∨ ∃ cl : List (Clause .troop), f = assemble flat q.get .troop cl ∧
        Clause.inSlot .pattern cl = ((patterns q).map patternTest).map .troopTest ∧
        ∀ s, ((Filter.all (Clause.inSlot .pattern cl)).run ctx (t, l)).run s =
          ((patterns q).all t.snapshot.matchesPattern, s)) ∧
    ∀ ps : List Config, (t.matchInTurn none ps).1 = ps.all t.snapshot.matchesPattern ∧ (t.matchInTurn none ps).2 ≤ 1 := by
  refine ⟨fun ps made asked => says_patterns ctx flat ps t l made asked, fun q start f hf => ?_, fun ps => ?_⟩
  · rcases (coincide_compileIn ctx.setting flat q).of_ok hf with hempty | ⟨cl, hfilter, hpatterns⟩
    · exact .inl hempty
    · refine .inr ⟨cl, hfilter, hpatterns, fun s => ?_⟩
      rw [hpatterns, Filter.run, Filter.ask_all_troopTests, all_patternTest]
      rfl
  · exact Troop.matchInTurn_eq (fun s hs => absurd hs (Option.not_mem_none s)) ps

/-- A troop with a variable. -/
def warden : Troop := { picket with «variables» := .ofAttributes [("oath", .str "sworn")] }

/-- A query with a field, a pattern for the variables alone and one that asks for them twice. -/
def oathQuery : Config :=
  .node (Table.ofList [("id", .str "picket")])
    [("filter_wml", .wrap "variables" (.ofAttributes [("oath", .str "sworn")])), ("not", .ofAttributes [("side", .int 2)]),
      ("filter_wml", .node Table.empty
        [("variables", .empty), ("not", .ofAttributes [("side", .int 2)]), ("variables", .wrap "not" .empty)])]

/-- What `patterns_exact` says of `oathQuery`: the warden matches the first pattern and not the second. -/
theorem patterns_exact_oathQuery :
    ∃ f, ((build oathQuery (some meadow) false).run.run idle).1 = .ok f ∧
      ∃ cl : List (Clause .troop), f = assemble false oathQuery.get .troop cl ∧
        Clause.inSlot .pattern cl = ((patterns oathQuery).map patternTest).map .troopTest ∧
        (∀ s, ((Filter.all (Clause.inSlot .pattern cl)).run meadow (warden, ⟨1, 0⟩)).run s =
          ((patterns oathQuery).all warden.snapshot.matchesPattern, s)) ∧
        (patterns oathQuery).map warden.snapshot.matchesPattern = [true, false] := by
  obtain ⟨-, hbuilt, -⟩ := patterns_exact meadow false warden ⟨1, 0⟩
  rcases hbuilt oathQuery idle _ rfl with ⟨hempty, -⟩ | ⟨cl, hfilter, hslot, hrun⟩
  · exact absurd hempty (by decide)
  · exact ⟨_, rfl, cl, hfilter, hslot, hrun, by decide⟩

end Query
end Muster
