/-
# Queries about the troop alone

A *plain* query over troops has fields and patterns only, and calls no plug-in: it asks
about the troop and the location, and about nothing else.  Such a query always
compiles, and its verdict is the conjunction of single tests, in every context, in
every scope and whatever state the plug-ins are in (`Query.says_plain`).

The tests are those of the fields, in groups, with the patterns between the traits and
the field `find_in` (`Query.plainTests`).  A query of one field is plain unless it is a
formula or a script (`Query.says_field`).
-/

import Muster.Proofs.Config.Documents
import Muster.Proofs.Filter.Composition

namespace Muster

/-! ### Asking tests that look at the troop alone -/

section

variable {m : Type → Type} [Monad m] [LawfulMonad m] (S : Setting m)

/-- **Single tests asked in order** give their conjunction, and nothing else happens. -/
theorem Filter.ask_all_troopTests (tests : List TroopTest) (t : Troop) (l : Location) :
    (Filter.all (tests.map .troopTest)).ask S (t, l) = pure (tests.all (·.holds S.toBoard t l)) := by
  induction tests with
  | nil => rfl
  | cons test tests ih =>
    have hstep : (Filter.all ((test :: tests).map .troopTest)).ask S (t, l) =
        (pure (test.holds S.toBoard t l) >>= fun passes =>
          if passes then (Filter.all (tests.map .troopTest)).ask S (t, l) else pure false) := rfl
    rw [hstep, pure_bind, ih, List.all_cons]
    cases test.holds S.toBoard t l <;> rfl

end

/-- Binding a troop while nothing is asked changes nothing. -/
theorem Context.run_testing_pure {σ : Type} (ctx : Context σ) (t : Troop) (l : Location) (v : Bool) (s : Session σ) :
    (ctx.setting.testing t l (pure v)).run s = (v, s) := by
  simp only [setting]
  split <;> rfl

/-- In a quiet setting a troop that is asked nothing is tested to no effect. -/
def Setting.Quiet {m : Type → Type} [Monad m] (S : Setting m) : Prop := ∀ t l v, S.testing t l (pure v) = pure v

/-- Tests of the board never call a plug-in. -/
theorem Context.quiet {σ : Type} (ctx : Context σ) : ctx.setting.Quiet := fun t l v =>
  funext fun s => ctx.run_testing_pure t l v s

namespace Query

/-! ### Blank fields -/

/-- A list that is not there asks nothing. -/
@[simp] theorem listTest_none {α : Type} (test : List String → α) : listTest none test = [] := rfl

/-- A text that is not there asks nothing. -/
@[simp] theorem textTest_none {α : Type} (test : String → α) : textTest none test = [] := rfl

/-- An integer that is not there asks nothing. -/
@[simp] theorem intTest_none {α : Type} (test : Int64 → α) : intTest none test = [] := rfl

/-- A truth value that is not there asks nothing. -/
@[simp] theorem boolTest_none {α : Type} (test : Bool → α) : boolTest none test = [] := rfl

/-- Coordinates that are not there ask nothing. -/
@[simp] theorem coordinateTests_none : coordinateTests none none = [] := rfl

/-! ### The empty query -/

/-- When compiling gives the null filter. -/
theorem isNull_iff {s : Subject} {as : Table String Scalar} {cs : List (String × Config)} :
    (s = .troop && as.isEmpty && cs.isEmpty) = true ↔ s = .troop ∧ as.isEmpty = true ∧ cs = [] := by
  rw [Bool.and_eq_true, Bool.and_eq_true, decide_eq_true_eq, List.isEmpty_iff, and_assoc]

/-- **An empty query** has no tests to ask; its filter would bind the troop for nothing. -/
theorem assemble_of_isEmpty (flat : Bool) {as : Table String Scalar} (has : as.isEmpty = true) :
    assemble flat as.get? .troop [] = .bound .pass := by
  rw [Table.get?_of_isEmpty has]
  rfl

/-! ### Compiling patterns -/

/-- The clause of a pattern. -/
def patternClause (pattern : Config) : Clause .troop := .own .pattern (.troopTest (patternTest pattern))

section

variable {m : Type → Type} [Monad m] [LawfulMonad m] (S : Setting m)

/-- **Patterns compile by themselves,** each to its clause. -/
theorem compileChildren_patterns (flat : Bool) (seen : List Slot) (patterns : List Config) :
    compileChildren S flat .troop seen (patterns.map (Prod.mk "filter_wml")) = pure (patterns.map patternClause) := by
  induction patterns with
  | nil => rfl
  | cons pattern patterns ih =>
    have hmeaning : TagMeaning.ofTag .troop "filter_wml" =
        .pattern fun child => .troopTest (patternTest child) := rfl
    simp only [List.map_cons, compileChildren, hmeaning, ih, pure_bind]
    rfl

end

/-- Patterns are no conditionals. -/
theorem joinConditionals_patterns (f : Filter .troop) (patterns : List Config) :
    Clause.joinConditionals f (patterns.map patternClause) = f := by
  induction patterns with
  | nil => rfl
  | cons _ _ ih => exact ih

/-- Patterns fill their own slot, in order, and no other. -/
theorem inSlot_patterns (slot : Slot) (patterns : List Config) :
    Clause.inSlot slot (patterns.map patternClause) =
      if slot = .pattern then patterns.map fun p => .troopTest (patternTest p) else [] := by
  rw [Clause.inSlot, List.filterMap_map]
  split
  · next h =>
    rw [← List.filterMap_eq_map]
    exact congrArg (List.filterMap · patterns) (funext fun _ => if_pos h.symm)
  · next h => exact List.filterMap_eq_nil_iff.2 fun _ _ => if_neg (Ne.symm h)

/-! ### Plain queries -/

/-- The tests of a plain query with the given fields and patterns, in the order in
which they are asked. -/
def plainTests (get : String → Value) (patterns : List Config) : List TroopTest :=
  identityTests get ++ traitTests get ++ patterns.map patternTest ++ textTest (get "find_in") .listedIn

/-- **The own tests of a plain query** are single tests. -/
theorem ownTests_plain (flat : Bool) {get : String → Value} (hformula : get "formula" = none)
    (hscript : get "lua_function" = none) (patterns : List Config) :
    ownTests flat get .troop (patterns.map patternClause) = (plainTests get patterns).map .troopTest := by
  have hlookup : lookupTests get = (textTest (get "find_in") .listedIn).map .troopTest := by
    rw [lookupTests, hformula, hscript, textTest, textTest, textTest, textTest]
    cases get "find_in" <;> rfl
  simp only [ownTests, hlookup, inSlot_patterns, plainTests, List.map_append, List.map_map, reduceCtorEq, if_true,
    if_false, List.append_nil]
  rfl

/-- The filter of single tests. -/
def plainFilter (tests : List TroopTest) : Filter .troop := .bound (.all (tests.map .troopTest))

/-- **A plain query compiles** to the filter of its tests, or to the null filter. -/
theorem compileIn_plain {m : Type → Type} [Monad m] [LawfulMonad m] (S : Setting m) (flat : Bool)
    {as : Table String Scalar} (hformula : as.get? "formula" = none) (hscript : as.get? "lua_function" = none)
    (patterns : List Config) :
    compileIn S flat .troop (.node as (patterns.map (Prod.mk "filter_wml"))) =
      pure (if as.isEmpty && patterns.isEmpty then .pass else plainFilter (plainTests as.get? patterns)) := by
  have hassemble : assemble flat as.get? .troop (patterns.map patternClause) =
      plainFilter (plainTests as.get? patterns) := by
    rw [assemble, joinConditionals_patterns, ownTests_plain flat hformula hscript]
    rfl
  rw [compileIn, compileChildren_patterns, pure_bind, hassemble, List.isEmpty_map, decide_eq_true rfl, Bool.true_and]
  split <;> rfl

/-- A query without fields and patterns has no tests. -/
theorem plainTests_of_isEmpty {as : Table String Scalar} (h : as.isEmpty = true) : plainTests as.get? [] = [] := by
  rw [Table.get?_of_isEmpty h]
  rfl

variable {σ : Type} (ctx : Context σ)

/-- **A plain filter** asks its tests and leaves the session as it was. -/
theorem run_plainFilter (tests : List TroopTest) (t : Troop) (l : Location) (s : Session σ) :
    ((plainFilter tests).run ctx (t, l)).run s = (tests.all (·.holds ctx.toBoard t l), s) := by
  rw [Filter.run, plainFilter, Filter.ask, Filter.ask_all_troopTests]
  exact ctx.run_testing_pure t l _ s

/-- **A plain query says what its tests say,** in every context and every scope. -/
theorem says_plain (flat : Bool) (as : Table String Scalar) (hformula : as.get? "formula" = none)
    (hscript : as.get? "lua_function" = none) (patterns : List Config) (t : Troop) (l : Location) (made asked : Scope) :
    Says ctx flat (s := .troop) (t, l) made asked (.node as (patterns.map (Prod.mk "filter_wml")))
      ((plainTests as.get? patterns).all (·.holds ctx.toBoard t l)) := by
  intro host host'
  refine ⟨if as.isEmpty && patterns.isEmpty then .pass else plainFilter (plainTests as.get? patterns), ?_, ?_⟩
  · rw [compile, compileIn_plain _ flat hformula hscript]
    rfl
  · split
    · next hempty =>
      obtain ⟨has, hpatterns⟩ := (Bool.and_eq_true _ _).mp hempty
      obtain rfl := List.isEmpty_iff.1 hpatterns
      rw [plainTests_of_isEmpty has]
      rfl
    · rw [run_plainFilter]

/-! ### One field -/

/-- A query of one field has nothing at any other key. -/
theorem get?_field (key : String) (a : Scalar) :
    (Table.ofList [(key, a)]).get? = fun k => if k = key then some a else none := by
  funext k
  rw [Table.get?_ofList (List.pairwise_singleton _ _), Table.lookup]
  simp [Table.lookup]

/-- The tests of a plain query with one field. -/
def fieldTests (key : String) (a : Scalar) : List TroopTest := plainTests (fun k => if k = key then some a else none) []

/-- **A field says what its tests say.** -/
theorem says_field (flat : Bool) {key : String} (hformula : key ≠ "formula") (hscript : key ≠ "lua_function")
    (a : Scalar) (t : Troop) (l : Location) (made asked : Scope) :
    Says ctx flat (s := .troop) (t, l) made asked (.ofAttributes [(key, a)])
      ((fieldTests key a).all (·.holds ctx.toBoard t l)) := by
  have hblank : ∀ k, key ≠ k → (Table.ofList [(key, a)]).get? k = none := by
    intro k hk
    rw [get?_field]
    exact if_neg (Ne.symm hk)
  have hsays := says_plain ctx flat _ (hblank _ hformula) (hblank _ hscript) [] t l made asked
  rwa [get?_field] at hsays

end Query
end Muster
