/-
# Queries in print

Two queries that agree are the same in print, and a query compiles as its print does:
to the filter in print, with the same error where it is refused, and in the same
session (`compileIn_printed`).  A filter in print is the filter with the patterns that
it holds in print, which answers no differently (`ask_printed`).  So equal queries make
equal filters (`equal_queries`).

The print of a query must read as the query does, by each of its fields.  This is where
the conditions come from: no attribute is a floating-point number, and the fields that
are truth values, false by default, hold no integer other than 0 and 1
(`ReadsAsPrinted`).
-/

import Muster.Proofs.Config.Printed
import Muster.Proofs.Filter.Composition
import Muster.Proofs.Filter.Rewriting

namespace Muster

/-! ### Fields -/

namespace Config

/-- What every field of a query reads is the same for its print. -/
structure ReadsAsPrinted (c : Config) : Prop where
  noReal : c.HasNoReal
  flags : ∀ e ∈ c.attributes.entries, e.1 ∈ ["canrecruit", "is_enemy"] → e.2.isFlag = true

/-- The attributes of a query are a list, so it can be seen whether each reads as it is printed. -/
instance (c : Config) : Decidable c.ReadsAsPrinted :=
  decidable_of_iff (c.HasNoReal ∧ ∀ e ∈ c.attributes.entries, e.1 ∈ ["canrecruit", "is_enemy"] → e.2.isFlag = true)
    ⟨fun h => ⟨h.1, h.2⟩, fun h => ⟨h.noReal, h.flags⟩⟩

namespace ReadsAsPrinted

variable {c : Config} {key : String} {a : Scalar} (h : c.ReadsAsPrinted) (ha : c.get key = some a)
include h ha

/-- No field is a floating-point number. -/
theorem isReal : a.isReal = false := h.noReal (key, a) (Table.get?_eq_some_iff.1 ha)

/-- A truth value, false by default, is no integer but 0 and 1. -/
theorem isFlag (hkey : key ∈ ["canrecruit", "is_enemy"]) : a.isFlag = true :=
  h.flags (key, a) (Table.get?_eq_some_iff.1 ha) hkey

end ReadsAsPrinted

end Config

namespace Query

variable {α : Type}

/-- A text is tested in print as it is. -/
theorem textTest_printed (v : Value) (test : String → α) : textTest v.printed test = textTest v test := by
  cases v <;> rfl

/-- A list has the same items in print. -/
theorem ofValue_printed (v : Value) : ListField.ofValue v.printed = ListField.ofValue v := by
  cases v <;> rfl

/-- A list is tested in print as it is. -/
theorem listTest_printed (v : Value) (test : List String → α) : listTest v.printed test = listTest v test := by
  rw [listTest, listTest, ofValue_printed]

/-- Coordinates are tested in print as they are. -/
theorem coordinateTests_printed (x y : Value) : coordinateTests x.printed y.printed = coordinateTests x y := by
  cases x <;> cases y <;> rfl

/-- An integer reads the same in print unless it is a floating-point number. -/
theorem toInt_printed {v : Value} (h : ∀ a, v = some a → a.isReal = false) (default : Int64) :
    v.printed.toInt default = v.toInt default := by
  cases v with
  | none => rfl
  | some a => exact congrArg (·.getD default) (Scalar.toInt?_printed (h a rfl))

/-- An integer is then tested in print as it is. -/
theorem intTest_printed {v : Value} (h : ∀ a, v = some a → a.isReal = false) (test : Int64 → α) :
    intTest v.printed test = intTest v test := by
  cases v with
  | none => rfl
  | some a => exact congrArg (fun n => [test n]) (toInt_printed h (-1))

/-- A flag, false by default, reads the same in print. -/
theorem map_toBool_printed {v : Value} (h : ∀ a, v = some a → a.isReal = false)
    (hflag : ∀ a, v = some a → a.isFlag = true) (f : Bool → α) :
    (v.printed.map fun a => f (Value.toBool (some a) false)) = v.map fun a => f (Value.toBool (some a) false) := by
  cases v with
  | none => rfl
  | some a =>
    have hread := Scalar.toBool?_printed (h a rfl) (hflag a rfl)
    exact congrArg (fun b : Option Bool => some (f (b.getD false))) hread

/-- A truth value, true by default, reads the same in print unless it is a floating-point number. -/
theorem toBool_printed {v : Value} (h : ∀ a, v = some a → a.isReal = false) : v.printed.toBool true = v.toBool true := by
  cases v with
  | none => rfl
  | some a => exact Scalar.toBool_printed (h a rfl)

section

variable {c : Config} (hc : c.ReadsAsPrinted)
include hc

/-- The tests of the traits are the same in print. -/
theorem traitTests_printed : traitTests c.printed.get = traitTests c.get := by
  have hreal : ∀ key a, c.get key = some a → a.isReal = false := fun _ _ => hc.isReal
  have hflag : ∀ a, c.get "canrecruit" = some a → a.isFlag = true := fun _ ha => hc.isFlag ha (by decide)
  have hrecruit := map_toBool_printed (hreal _) hflag TroopTest.canRecruit
  simp only [traitTests, boolTest, Config.get_printed, textTest_printed, listTest_printed, coordinateTests_printed,
    toInt_printed (hreal _), intTest_printed (hreal _), hrecruit]

/-- What an adjacency clause counts is the same in print. -/
theorem adjacency_printed : adjacency c.printed.get = adjacency c.get := by
  have hreal : ∀ key a, c.get key = some a → a.isReal = false := fun _ _ => hc.isReal
  have hflag : ∀ a, c.get "is_enemy" = some a → a.isFlag = true := fun _ ha => hc.isFlag ha (by decide)
  have hdirections : ∀ v : Value, (v.printed.elim Direction.all fun a => Direction.parseList a.text) =
      v.elim Direction.all fun a => Direction.parseList a.text := by
    rintro (_ | a) <;> rfl
  have hcounts : ∀ v : Value, v.printed.elim "1-6" Scalar.text = v.elim "1-6" Scalar.text := by
    rintro (_ | a) <;> rfl
  have hhostile := map_toBool_printed (hreal _) hflag id
  simp only [adjacency, Config.get_printed, hdirections, hcounts]
  exact congrArg (Adjacency.mk _ · _) hhostile

end

/-- The tests of identity are the same in print. -/
theorem identityTests_printed (c : Config) : identityTests c.printed.get = identityTests c.get := by
  simp only [identityTests, Config.get_printed, textTest_printed, listTest_printed]

/-- The lookups are the same in print. -/
theorem lookupTests_printed (c : Config) : lookupTests c.printed.get = lookupTests c.get := by
  simp only [lookupTests, Config.get_printed, textTest_printed]

/-- The tests of a team are the same in print. -/
theorem teamTests_printed (c : Config) : teamTests c.printed.get = teamTests c.get := by
  have hcontroller : ∀ v : Value, (v.printed.bind fun a => Controller.parse? a.text) =
      v.bind fun a => Controller.parse? a.text := by
    rintro (_ | a) <;> rfl
  simp only [teamTests, Config.get_printed, textTest_printed, listTest_printed, hcontroller]

/-- The tests of a place are the same in print. -/
theorem placeTests_printed (flat : Bool) (c : Config) : placeTests flat c.printed.get = placeTests flat c.get := by
  have htext : ∀ v : Value, v.printed.text = v.text := by rintro (_ | a) <;> rfl
  simp only [placeTests, alignmentTests, Config.get_printed, listTest_printed, ofValue_printed, htext]

end Query

/-! ### Filters -/

/-- The test with its pattern in print. -/
def TroopTest.printed : TroopTest → TroopTest
  | stored pattern => stored pattern.printed
  | snapshot pattern => snapshot pattern.printed
  | test => test

/-- A test without a pattern is the same in print. -/
theorem TroopTest.printed_of_hasPattern {test : TroopTest} (h : test.hasPattern = false) : test.printed = test := by
  cases test with
  | stored pattern => contradiction
  | snapshot pattern => contradiction
  | _ => rfl

/-- A test in print holds of the same troops. -/
theorem TroopTest.holds_printed (b : Board) (t : Troop) (l : Location) (test : TroopTest) :
    test.printed.holds b t l = test.holds b t l := by
  cases test with
  | stored pattern => exact Config.matchesPattern_printed _ _
  | snapshot pattern => exact Config.matchesPattern_printed _ _
  | _ => rfl

/-- **A pattern in print** makes the test in print. -/
theorem Query.patternTest_printed (p : Config) : patternTest p.printed = (patternTest p).printed := by
  obtain ⟨as, cs⟩ := p
  have hempty : (as.mapValues Scalar.printed).isEmpty = as.isEmpty := List.isEmpty_map
  simp only [Config.printed, patternTest, Config.attributes_node, Config.children_node, hempty]
  cases as.isEmpty with
  | false => rfl
  | true =>
    match cs with
    | [] => rfl
    | [(tag, inner)] =>
      by_cases htag : tag = "variables"
      · subst htag
        rfl
      · simp [Config.printedAll, htag, TroopTest.printed, Config.printed]
    | _ :: _ :: _ => simp [Config.printedAll, TroopTest.printed, Config.printed]

namespace Filter

/-- The filter with its patterns in print. -/
def printed : {s : Subject} → Filter s → Filter s
  | _, pass => pass
  | _, both first second => both first.printed second.printed
  | _, joined c sofar next => joined c sofar.printed next.printed
  | _, troopTest test => troopTest test.printed
  | _, sideTest test => sideTest test
  | _, placeTest test => placeTest test
  | _, formula text => formula text
  | _, script name => script name
  | _, bound own => bound own.printed
  | _, standing f => standing f.printed
  | _, ofSide f => ofSide f.printed
  | _, adjacent a f => adjacent a f.printed
  | _, teamed f => teamed f.printed
  | _, enemyOf f => enemyOf f.printed
  | _, alliedWith f => alliedWith f.printed
  | _, hasTroop f => hasTroop f.printed
  | _, onMap f => onMap f.printed
  | _, occupied f => occupied f.printed

variable {m : Type → Type} [Monad m] (S : Setting m)

/-- **A filter in print answers as the filter does.** -/
theorem ask_printed : ∀ {s : Subject} (f : Filter s), f.printed.ask S = f.ask S
  | _, pass => rfl
  | _, both f g => by funext x; simp only [printed, ask, ask_printed f, ask_printed g]
  | _, joined _ f g => by funext x; simp only [printed, ask, ask_printed f, ask_printed g]
  | _, troopTest test => by funext x; simp only [printed, ask, test.holds_printed]
  | _, sideTest _ => rfl
  | _, placeTest _ => rfl
  | _, formula _ => rfl
  | _, script _ => rfl
  | _, bound f => by funext x; simp only [printed, ask, ask_printed f]
  | _, standing f => by funext x; simp only [printed, ask, ask_printed f]
  | _, ofSide f => by funext x; simp only [printed, ask, ask_printed f]
  | _, adjacent _ f => by funext x; simp only [printed, ask, ask_printed f]
  | _, teamed f => by funext x; simp only [printed, ask, ask_printed f]
  | _, enemyOf f => by funext x; simp only [printed, ask, ask_printed f]
  | _, alliedWith f => by funext x; simp only [printed, ask, ask_printed f]
  | _, hasTroop f => by funext x; simp only [printed, ask, ask_printed f]
  | _, onMap f => by funext x; simp only [printed, ask, ask_printed f]
  | _, occupied f => by funext x; simp only [printed, ask, ask_printed f]

/-- **A filter in print** selects the same sides. -/
theorem sidesIn_printed (f : Filter .side) : f.printed.sidesIn S = f.sidesIn S := by
  rw [sidesIn, sidesIn, ask_printed]

/-- Printing goes through what puts tests and conditionals together. -/
theorem printed_rewriting : Rewriting printed where
  pass := rfl
  both _ _ := rfl
  joined _ _ _ := rfl
  teamed _ := rfl
  onMap _ := rfl

end Filter

/-! ### Queries -/

namespace Clause

variable {s : Subject}

/-- The clause with its filter in print. -/
def printed : Clause s → Clause s
  | conditional c f => conditional c f.printed
  | own slot f => own slot f.printed

/-- A clause in print is the clause with its filter in print. -/
theorem printed_eq : printed (s := s) = rewrite Filter.printed := by
  funext c
  cases c <;> rfl

/-- A slot in print holds what it held, in print. -/
theorem inSlot_printed (slot : Slot) (cs : List (Clause s)) :
    inSlot slot (cs.map printed) = (inSlot slot cs).map Filter.printed := by
  rw [printed_eq, inSlot_rewrite]

/-- The last filter of a slot is the last in print. -/
theorem lastInSlot_printed (slot : Slot) (cs : List (Clause s)) :
    lastInSlot slot (cs.map printed) = (lastInSlot slot cs).map Filter.printed := by
  rw [printed_eq, lastInSlot_rewrite]

end Clause

namespace Query

variable {flat : Bool} {c : Config}

/-- Tests without patterns are the same in print. -/
theorem map_printed_troopTest {tests : List TroopTest} (h : ∀ test ∈ tests, test.hasPattern = false) :
    (tests.map Filter.troopTest).map Filter.printed = tests.map .troopTest := by
  rw [List.map_map]
  exact List.map_congr_left fun test htest => congrArg Filter.troopTest (TroopTest.printed_of_hasPattern (h test htest))

/-- Lookups hold no pattern. -/
theorem map_printed_lookupTests (get : String → Value) : (lookupTests get).map Filter.printed = lookupTests get := by
  have htext : ∀ (v : Value) (test : String → Filter .troop), (∀ s, (test s).printed = test s) →
      (textTest v test).map Filter.printed = textTest v test := by
    rintro (_ | a) test h
    · rfl
    · exact congrArg (fun f => [f]) (h a.text)
  rw [lookupTests, List.map_append, List.map_append, htext _ _ fun _ => rfl, htext _ _ fun _ => rfl,
    htext _ _ fun _ => rfl]

/-- **The own tests** of a query in print are its own tests in print. -/
theorem ownTests_printed (hc : c.ReadsAsPrinted) (s : Subject) (cs : List (Clause s)) :
    (ownTests flat c.get s cs).map Filter.printed = ownTests flat c.printed.get s (cs.map Clause.printed) := by
  cases s with
  | troop =>
    obtain ⟨hidentity, htraits⟩ := List.forall_mem_append.1 (hasPattern_of_mem c.get)
    simp only [ownTests, List.map_append, Clause.inSlot_printed, identityTests_printed, traitTests_printed hc,
      lookupTests_printed, map_printed_troopTest hidentity, map_printed_troopTest htraits, map_printed_lookupTests]
  | side =>
    simp only [ownTests, List.map_append, Clause.lastInSlot_printed, teamTests_printed, List.map_map]
    rfl
  | place =>
    simp only [ownTests, List.map_append, Clause.inSlot_printed, placeTests_printed, List.map_map]
    rfl

/-- A child that is no query makes the same test in print. -/
theorem test_printed_of_pattern {s : Subject} {tag : String} {test : Config → Filter s}
    (h : TagMeaning.ofTag s tag = .pattern test) (child : Config) : test child.printed = (test child).printed := by
  unfold TagMeaning.ofTag TagMeaning.ofOwnTag at h
  split at h
  · cases h
  · split at h <;> cases h
    exact congrArg Filter.troopTest (patternTest_printed child)

/-- The filter of a query in print is put together as the filter of the query. -/
theorem assemble_printed (hc : c.ReadsAsPrinted) (s : Subject) (cs : List (Clause s)) :
    (assemble flat c.get s cs).printed = assemble flat c.printed.get s (cs.map Clause.printed) := by
  have hown : (guardOwn s (.all (ownTests flat c.get s cs))).printed =
      guardOwn s (.all (ownTests flat c.printed.get s (cs.map Clause.printed))) := by
    rw [← ownTests_printed hc, ← Filter.printed_rewriting.all]
    cases s <;> rfl
  rw [Filter.printed_rewriting.assemble, assemble, hown, Clause.printed_eq]

variable {m : Type → Type} [Monad m] [LawfulMonad m] (S : Setting m)

/-- **A clause** of a query in print is its clause in print. -/
theorem ofPart_printed (hc : c.ReadsAsPrinted) {s inner : Subject} (p : Part s inner) (f : Filter inner) :
    Clause.ofPart S c.printed.get p f.printed = Clause.printed <$> Clause.ofPart S c.get p f := by
  cases p with
  | vision =>
    have hvisible : (c.printed.get "visible").toBool true = (c.get "visible").toBool true := by
      rw [Config.get_printed]
      exact toBool_printed fun _ => hc.isReal
    simp only [Clause.ofPart, hvisible, Filter.sidesIn_printed, map_bind, map_pure]
    rfl
  | adjacent =>
    simp only [Clause.ofPart, adjacency_printed hc, map_pure]
    rfl
  | _ =>
    simp only [Clause.ofPart, map_pure]
    rfl

mutual

/-- **The print of a query compiles** to the filter in print. -/
theorem compileIn_printed (flat : Bool) (s : Subject) :
    ∀ q : Config, q.Everywhere Config.ReadsAsPrinted →
      compileIn S flat s q.printed = Filter.printed <$> compileIn S flat s q
  | .node as cs, hq => by
    obtain ⟨hhere, hbelow⟩ := Config.everywhere_node.1 hq
    have hempty : (as.mapValues Scalar.printed).isEmpty = as.isEmpty := List.isEmpty_map
    have hchildren : (Config.printedAll cs).isEmpty = cs.isEmpty := by cases cs <;> rfl
    rw [Config.printed, compileIn, compileIn, hempty, hchildren]
    split
    · rw [map_pure]
      rfl
    · rw [compileChildren_printed flat s [] cs hbelow, map_bind, bind_map_left]
      refine bind_congr fun cl => ?_
      rw [map_pure]
      exact congrArg pure (assemble_printed hhere s cl).symm

/-- The children of a query in print compile to its clauses in print, or fail with the same error.
-/
theorem compileChildren_printed (flat : Bool) (s : Subject) (seen : List Slot) :
    ∀ cs : List (String × Config), (∀ e ∈ cs, e.2.Everywhere Config.ReadsAsPrinted) →
      compileChildren S flat s seen (Config.printedAll cs) =
        List.map Clause.printed <$> compileChildren S flat s seen cs
  | [], _ => (map_pure (List.map Clause.printed) []).symm
  | (tag, child) :: rest, hcs => by
    obtain ⟨hchild, hrest⟩ := List.forall_mem_cons.1 hcs
    rw [Config.printedAll, compileChildren, compileChildren]
    split
    · exact compileChildren_printed flat s seen rest hrest
    · next test hm =>
      rw [compileChildren_printed flat s seen rest hrest, map_bind, bind_map_left]
      refine bind_congr fun cl => ?_
      rw [map_pure, test_printed_of_pattern hm]
      rfl
    · next inner p _ =>
      rw [map_bind]
      refine bind_congr fun seen' => ?_
      rw [compileIn_printed flat inner child hchild, map_bind, bind_map_left]
      refine bind_congr fun f => ?_
      have hhere : child.ReadsAsPrinted := by
        cases hchild
        assumption
      have hclause : (liftM (Clause.ofPart S child.printed.get p f.printed) : ExceptT FilterError m (Clause s)) =
          Clause.printed <$> liftM (Clause.ofPart S child.get p f) := by
        rw [ofPart_printed S hhere, liftM_map]
      rw [hclause, map_bind, bind_map_left]
      refine bind_congr fun clause => ?_
      rw [compileChildren_printed flat s seen' rest hrest, map_bind, bind_map_left]
      refine bind_congr fun cl => ?_
      rw [map_pure]
      rfl

end

/-! ### In a context -/

variable {σ : Type} {a b : Config}

/-- Two outcomes of compiling a query over troops in a context: the same error, or
filters that answer alike in every session. -/
def SameOutcome (ctx : Context σ) : Except FilterError (Filter .troop) → Except FilterError (Filter .troop) → Prop
  | .error e, .error e' => e = e'
  | .ok f, .ok g => ∀ t l, f.matchesAt ctx t l = g.matchesAt ctx t l
  | _, _ => False

/-- What compiles to the same in print has the same outcome. -/
theorem sameOutcome_of_printed {ctx : Context σ} {x y : Except FilterError (Filter .troop)}
    (h : Filter.printed <$> x = Filter.printed <$> y) : SameOutcome ctx x y := by
  cases x with
  | error e =>
    cases y with
    | error e' => exact Except.error.inj h
    | ok g => cases h
  | ok f =>
    cases y with
    | error e' => cases h
    | ok g =>
      have hfg : f.printed = g.printed := Except.ok.inj h
      intro t l
      calc f.matchesAt ctx t l = f.printed.ask ctx.setting (t, l) := by rw [f.ask_printed]; rfl
        _ = g.printed.ask ctx.setting (t, l) := by rw [hfg]
        _ = g.matchesAt ctx t l := by rw [g.ask_printed]; rfl

/-- **Queries that agree compile alike.**  Take two queries that agree, so that every
attribute prints the same in both, no matter its kind, and none of whose attributes is
a floating-point number; `canrecruit` and `is_enemy` are no integers other than 0 and 1,
at any node.  In any context, with any plug-ins, from any session and in any light they
are compiled with the same effect on the session, and both refused with the same error
or both turned into filters that give the same verdict, as runs, on every troop at
every location. -/
theorem equal_queries (hab : a.agrees b = true) (ha : a.Everywhere Config.ReadsAsPrinted)
    (hb : b.Everywhere Config.ReadsAsPrinted) (ctx : Context σ) (flat : Bool) (start : Session σ) :
    ((build a (some ctx) flat).run.run start).2 = ((build b (some ctx) flat).run.run start).2 ∧
      SameOutcome ctx ((build a (some ctx) flat).run.run start).1 ((build b (some ctx) flat).run.run start).1 := by
  have hprint : Filter.printed <$> build a (some ctx) flat = Filter.printed <$> build b (some ctx) flat := by
    have hequal : a.printed = b.printed := (Config.agrees_iff_printed_eq a b).1 hab
    calc Filter.printed <$> compileIn ctx.setting flat .troop a = compileIn ctx.setting flat .troop a.printed :=
          (compileIn_printed ctx.setting flat .troop a ha).symm
      _ = compileIn ctx.setting flat .troop b.printed := by rw [hequal]
      _ = Filter.printed <$> compileIn ctx.setting flat .troop b := compileIn_printed ctx.setting flat .troop b hb
  have hrun : ∀ q : Config, (Filter.printed <$> build q (some ctx) flat).run.run start =
      (Filter.printed <$> ((build q (some ctx) flat).run.run start).1, ((build q (some ctx) flat).run.run start).2) := by
    intro q
    rw [ExceptT.run_map, StateT.run_map]
    rfl
  have hstart := congrArg (fun x => x.run.run start) hprint
  simp only [hrun] at hstart
  obtain ⟨houtcome, hsession⟩ := Prod.mk.inj hstart
  exact ⟨hsession, sameOutcome_of_printed houtcome⟩

/-- A query with a field of each kind, a clause about neighbours, a vision clause and a pattern. -/
def patrolQuery : Config :=
  .node (Table.ofList [("canrecruit", .bool false), ("level", .int (-1)), ("side", .str "1,2")])
    [("filter_adjacent", .ofAttributes [("count", .int 2), ("is_enemy", .int 1)]),
      ("filter_vision", .ofAttributes [("side", .int 1), ("visible", .bool true)]),
      ("filter_wml", .ofAttributes [("level", .int 3)])]

/-- What `equal_queries` says of `patrolQuery` and its print. -/
theorem equal_queries_patrolQuery :
    patrolQuery.agrees patrolQuery.printed = true ∧ patrolQuery.Everywhere Config.ReadsAsPrinted ∧
      patrolQuery.printed.Everywhere Config.ReadsAsPrinted ∧
      (∃ f, ((build patrolQuery (some countingContext) false).run.run ⟨.empty, 0⟩).1 = .ok f) ∧
      SameOutcome countingContext ((build patrolQuery (some countingContext) false).run.run ⟨.empty, 0⟩).1
        ((build patrolQuery.printed (some countingContext) false).run.run ⟨.empty, 0⟩).1 := by
  have hagrees : patrolQuery.agrees patrolQuery.printed = true := by decide
  have hleaf : ∀ as : Table String Scalar, (Config.node as []).ReadsAsPrinted →
      (Config.node as []).Everywhere Config.ReadsAsPrinted := fun _ h => .node h nofun
  have hquery : patrolQuery.Everywhere Config.ReadsAsPrinted := .node (by decide) (by
    simpa using ⟨hleaf _ (by decide), hleaf _ (by decide), hleaf _ (by decide)⟩)
  have hprint : patrolQuery.printed.Everywhere Config.ReadsAsPrinted := .node (by decide) (by
    simpa [Config.printedAll] using ⟨hleaf _ (by decide), hleaf _ (by decide), hleaf _ (by decide)⟩)
  exact ⟨hagrees, hquery, hprint, ⟨_, rfl⟩, (equal_queries hagrees hquery hprint countingContext false ⟨.empty, 0⟩).2⟩

end Query
end Muster
