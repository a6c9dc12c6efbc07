/-
# Blank lists

A list of commas and blanks has no items, and a list-valued field without items asks
nothing.  So a query asks the same with such a field as without it, at any node that is a
query (`Query.blank_lists`).

There is one difference in the filters.  The query over troops with nothing in it is the
null filter, while with a blank list it binds the troop for the duration of no tests at all.
`Filter.pruned` takes such bindings out, which no verdict notices (`Filter.ask_pruned`), and the two
queries compile to filters that are equal when pruned (`Query.compileIn_blank`).
-/

import Muster.Proofs.Filter.Plain
import Muster.Proofs.Filter.Rewriting
import Muster.Proofs.Filter.Walk
import Muster.Proofs.Text.Items
import Mathlib.Data.List.TakeWhile
import Mathlib.Logic.Relation

namespace Muster

/-! ### Lists without items -/

namespace Text

/-- A text of commas and blanks only. -/
def IsBlankList (text : String) : Prop := ∀ c ∈ text.toList, c = ',' ∨ isBlank c = true

/-- A text is a blank list or not by its characters. -/
instance (text : String) : Decidable (IsBlankList text) := List.decidableBAll _ _

/-- **A blank list has no items.** -/
theorem splitList_of_isBlankList {text : String} (h : IsBlankList text) : splitList text = [] := by
  have hpiece : ∀ piece ∈ text.toList.splitOn ',', trim piece = [] := by
    intro piece hpiece
    have hblank : piece.dropWhile isBlank = [] := List.dropWhile_eq_nil_iff.2 fun c hc => by
      obtain ⟨hmem, hcomma⟩ := mem_and_ne_of_mem_splitOn hpiece hc
      exact (h c hmem).resolve_left hcomma
    rw [trim, trimLeft, hblank]
    rfl
  have hkept : (commaPieces text).filter (fun piece => !piece.isEmpty) = [] := by
    simpa [commaPieces, List.filter_eq_nil_iff] using hpiece
  rw [splitList, hkept, List.map_nil]

end Text

/-! ### Pruning -/

namespace Filter

/-- The filter without the bindings of troops about which nothing is asked. -/
def pruned : {s : Subject} → Filter s → Filter s
  | _, pass => pass
  | _, both first second => both first.pruned second.pruned
  | _, joined c sofar next => joined c sofar.pruned next.pruned
  | _, troopTest test => troopTest test
  | _, sideTest test => sideTest test
  | _, placeTest test => placeTest test
  | _, formula text => formula text
  | _, script name => script name
  | _, bound own => if own.pruned.isNull then pass else bound own.pruned
  | _, standing f => standing f.pruned
  | _, ofSide f => ofSide f.pruned
  | _, adjacent a f => adjacent a f.pruned
  | _, teamed f => teamed f.pruned
  | _, enemyOf f => enemyOf f.pruned
  | _, alliedWith f => alliedWith f.pruned
  | _, hasTroop f => hasTroop f.pruned
  | _, onMap f => onMap f.pruned
  | _, occupied f => occupied f.pruned

/-- Pruning goes through what puts tests and conditionals together. -/
theorem pruned_rewriting : Rewriting pruned where
  pass := rfl
  both _ _ := rfl
  joined _ _ _ := rfl
  teamed _ := rfl
  onMap _ := rfl

/-- The filter of the empty query is the one that passes, and no other. -/
theorem eq_pass_of_isNull {s : Subject} {f : Filter s} (h : f.isNull = true) : f = pass := by
  cases f <;> first | rfl | cases h

variable {m : Type → Type} [Monad m] {S : Setting m}

/-- **Pruning does not change a verdict.** -/
theorem ask_pruned (hS : S.Quiet) : ∀ {s : Subject} (f : Filter s), f.pruned.ask S = f.ask S
  | _, pass => rfl
  | _, both f g => by funext x; simp only [pruned, ask, ask_pruned hS f, ask_pruned hS g]
  | _, joined _ f g => by funext x; simp only [pruned, ask, ask_pruned hS f, ask_pruned hS g]
  | _, troopTest _ => rfl
  | _, sideTest _ => rfl
  | _, placeTest _ => rfl
  | _, formula _ => rfl
  | _, script _ => rfl
  | _, bound f => by
    funext x
    obtain ⟨t, l⟩ := x
    rw [pruned, ask, ← ask_pruned hS f]
    split
    · next hnull =>
      rw [eq_pass_of_isNull hnull]
      exact (hS t l true).symm
    · rfl
  | _, standing f => by funext x; simp only [pruned, ask, ask_pruned hS f]
  | _, ofSide f => by funext x; simp only [pruned, ask, ask_pruned hS f]
  | _, adjacent _ f => by funext x; simp only [pruned, ask, ask_pruned hS f]
  | _, teamed f => by funext x; simp only [pruned, ask, ask_pruned hS f]
  | _, enemyOf f => by funext x; simp only [pruned, ask, ask_pruned hS f]
  | _, alliedWith f => by funext x; simp only [pruned, ask, ask_pruned hS f]
  | _, hasTroop f => by funext x; simp only [pruned, ask, ask_pruned hS f]
  | _, onMap f => by funext x; simp only [pruned, ask, ask_pruned hS f]
  | _, occupied f => by funext x; simp only [pruned, ask, ask_pruned hS f]

/-- **The sides that pass** a query pass it when it is pruned. -/
theorem sidesIn_pruned (hS : S.Quiet) (f : Filter .side) : f.pruned.sidesIn S = f.sidesIn S := by
  rw [sidesIn, sidesIn, ask_pruned hS]

end Filter

/-! ### Queries -/

namespace Query

/-- The fields of a query that hold lists. -/
def listFields : Subject → List String
  | .troop => ["id", "type", "variation", "has_variation", "ability", "race", "side"]
  | .side => ["team_name"]
  | .place => ["terrain", "time_of_day", "time_of_day_id"]

/-- A query, and the same with a blank list in a field that was absent, at one of its nodes
that are queries. -/
inductive AddsBlank : Subject → Config → Config → Prop where
  | here {s : Subject} {as : Table String Scalar} {key text : String} (hkey : key ∈ listFields s)
      (habsent : as.get? key = none) (htext : Text.IsBlankList text) (cs : List (String × Config)) :
      AddsBlank s (.node as cs) (.node (as.insert key (.str text)) cs)
  | within {s inner : Subject} {tag : String} {child child' : Config} (htag : childSubject? s tag = some inner)
      (h : AddsBlank inner child child') (as : Table String Scalar) (before after : List (String × Config)) :
      AddsBlank s (.node as (before ++ (tag, child) :: after)) (.node as (before ++ (tag, child') :: after))

/-! ### Tests -/

variable {text : String}

/-- A blank list asks nothing. -/
theorem listTest_blank {α : Type} (h : Text.IsBlankList text) (test : List String → α) :
    listTest (some (.str text)) test = [] := by
  have hitems : (ListField.ofValue (some (.str text))).items = [] := Text.splitList_of_isBlankList h
  rw [listTest, hitems]

/-- A blank list of alignments asks nothing. -/
theorem alignmentTests_blank (h : Text.IsBlankList text) (flat : Bool) :
    alignmentTests flat (some (.str text)) = [] := by
  have hitems : (ListField.ofValue (some (.str text))).items = [] := Text.splitList_of_isBlankList h
  rw [alignmentTests, hitems]
  rfl

/-- **A blank list makes no test,** and no other field is touched. -/
theorem ownTests_blank {s : Subject} {get get' : String → Value} {key : String} (hkey : key ∈ listFields s)
    (habsent : get key = none) (htext : Text.IsBlankList text) (hset : get' key = some (.str text))
    (hother : ∀ key', key' ≠ key → get' key' = get key') (flat : Bool) (cs : List (Clause s)) :
    ownTests flat get' s cs = ownTests flat get s cs := by
  have hfield : ∀ key', key' ∉ listFields s → get' key' = get key' := fun key' h =>
    hother key' fun heq => h (heq ▸ hkey)
  -- A field of any kind is read alike if reading it gives the same for a blank list and for none.
  have hread : ∀ {β : Type} (read : Value → β), read (some (.str text)) = read none →
      ∀ key', read (get' key') = read (get key') := by
    intro β read h key'
    by_cases heq : key' = key
    · rw [heq, hset, habsent, h]
    · rw [hother key' heq]
  have hlist : ∀ {β : Type} (test : List String → β) key', listTest (get' key') test = listTest (get key') test :=
    fun test => hread (listTest · test) (listTest_blank htext test)
  cases s with
  | troop =>
    have hside := hread (fun v => listTest v (TroopTest.side (v.toInt (-999)))) (listTest_blank htext _) "side"
    rw [hlist] at hside
    simp (disch := decide) only [ownTests, identityTests, traitTests, lookupTests, hfield, hlist, hside]
  | side =>
    simp (disch := decide) only [ownTests, teamTests, hfield, hlist]
  | place =>
    have halignment := hread (alignmentTests flat) (alignmentTests_blank htext flat) "time_of_day"
    simp (disch := decide) only [ownTests, placeTests, hfield, hlist, halignment]

/-! ### Compiling -/

/-- What a query has besides its lists stays. -/
theorem AddsBlank.get_eq {s : Subject} {q q' : Config} (h : AddsBlank s q q') {key : String}
    (hkey : key ∉ listFields s) : q'.get key = q.get key := by
  cases h with
  | @here _ as key' text hkey' habsent htext cs =>
    exact as.get?_insert_of_ne (fun heq : key = key' => hkey (heq ▸ hkey')) _
  | within => rfl

/-- The fields that a clause reads of its child are no lists. -/
theorem adjacency_congr {get get' : String → Value}
    (h : ∀ key ∈ ["adjacent", "is_enemy", "count"], get' key = get key) : adjacency get' = adjacency get := by
  simp only [adjacency, h "adjacent" (by decide), h "is_enemy" (by decide), h "count" (by decide)]

/-- The tests of the fields of a query have nothing to prune. -/
theorem pruned_of_mem_ownTests {s : Subject} {flat : Bool} {get : String → Value} :
    ∀ f ∈ ownTests flat get s [], f.pruned = f :=
  forall_mem_fieldTests (P := fun f => f.pruned = f) (fun _ => rfl) rfl rfl rfl rfl

/-- Clauses that are equal when pruned make filters that are equal when pruned. -/
theorem pruned_assemble_congr {s : Subject} (flat : Bool) (get : String → Value) {cs cs' : List (Clause s)}
    (h : cs'.map (Clause.rewrite Filter.pruned) = cs.map (Clause.rewrite Filter.pruned)) :
    (assemble flat get s cs').pruned = (assemble flat get s cs).pruned := by
  have hown : (guardOwn s (.all (ownTests flat get s cs'))).pruned =
      (guardOwn s (.all (ownTests flat get s cs))).pruned := by
    have hall : (Filter.all (ownTests flat get s cs')).pruned = (Filter.all (ownTests flat get s cs)).pruned := by
      rw [Filter.pruned_rewriting.all, Filter.pruned_rewriting.all, map_rewrite_ownTests pruned_of_mem_ownTests, h,
        ← map_rewrite_ownTests pruned_of_mem_ownTests]
    cases s with
    | troop => simp only [guardOwn, Filter.pruned, hall]
    | side => exact hall
    | place => exact hall
  rw [Filter.pruned_rewriting.assemble, Filter.pruned_rewriting.assemble, hown, h]

section

variable {m : Type → Type} [Monad m] [LawfulMonad m] {S : Setting m} (hS : S.Quiet)
include hS

/-- The clause of a child is the same when pruned if its filter is and the fields that are no lists
are. -/
theorem ofPart_pruned {s inner : Subject} (p : Part s inner) {get get' : String → Value}
    (hget : ∀ key ∉ listFields inner, get' key = get key) {f f' : Filter inner} (hf : f'.pruned = f.pruned) :
    Clause.rewrite Filter.pruned <$> Clause.ofPart S get' p f' =
      Clause.rewrite Filter.pruned <$> Clause.ofPart S get p f := by
  cases p with
  | vision =>
    have hsides : f'.sidesIn S = f.sidesIn S := by
      rw [← Filter.sidesIn_pruned hS, hf, Filter.sidesIn_pruned hS]
    rw [Clause.ofPart, Clause.ofPart, hsides, hget "visible" (by decide)]
  | adjacent =>
    have hadjacency : adjacency get' = adjacency get := adjacency_congr fun key hkey => hget key (by
      revert key
      decide)
    simp only [Clause.ofPart, map_pure, Clause.rewrite, Filter.pruned, hadjacency, hf]
  | _ => simp only [Clause.ofPart, map_pure, Clause.rewrite, Filter.pruned, hf]

/-- Children compile to the same clauses when pruned if one of them does that is changed. -/
theorem compileChildren_blank (flat : Bool) {s inner : Subject} {tag : String} {child child' : Config}
    (htag : childSubject? s tag = some inner) (hget : ∀ key ∉ listFields inner, child'.get key = child.get key)
    (hchild : Filter.pruned <$> compileIn S flat inner child' = Filter.pruned <$> compileIn S flat inner child)
    (after before : List (String × Config)) (seen : List Slot) :
    List.map (Clause.rewrite Filter.pruned) <$> compileChildren S flat s seen (before ++ (tag, child') :: after) =
      List.map (Clause.rewrite Filter.pruned) <$> compileChildren S flat s seen (before ++ (tag, child) :: after) := by
  induction before generalizing seen with
  | nil =>
    rw [childSubject?_eq] at htag
    rw [List.nil_append, List.nil_append, compileChildren, compileChildren]
    cases hm : TagMeaning.ofTag s tag with
    | ignored => exact absurd htag (by rw [hm]; nofun)
    | pattern => exact absurd htag (by rw [hm]; nofun)
    | part inner' p =>
      rw [hm] at htag
      obtain rfl : inner' = inner := Option.some.inj htag
      simp only [map_bind]
      refine bind_congr fun seen' => bind_eq_of_map_eq hchild fun f' f hf => ?_
      have hclause : Clause.rewrite Filter.pruned <$>
            (liftM (Clause.ofPart S child'.get p f') : ExceptT FilterError m (Clause s)) =
          Clause.rewrite Filter.pruned <$> liftM (Clause.ofPart S child.get p f) := by
        rw [← liftM_map, ofPart_pruned hS p hget hf, liftM_map]
      refine bind_eq_of_map_eq hclause fun c' c hc => ?_
      simp only [map_pure, List.map_cons, hc]
  | cons e before ih =>
    obtain ⟨tag', other⟩ := e
    rw [List.cons_append, List.cons_append, compileChildren, compileChildren]
    split
    · exact ih seen
    · simp only [map_bind, map_pure]
      exact bind_eq_of_map_eq (ih seen) fun cl' cl hcl => by simp only [List.map_cons, hcl]
    · simp only [map_bind, map_pure]
      refine bind_congr fun seen' => bind_congr fun f => bind_congr fun c => ?_
      exact bind_eq_of_map_eq (ih seen') fun cl' cl hcl => by simp only [List.map_cons, hcl]

/-- **With a blank list a query compiles alike,** to filters that are equal when pruned. -/
theorem compileIn_blank (flat : Bool) {s : Subject} {q q' : Config} (h : AddsBlank s q q') :
    Filter.pruned <$> compileIn S flat s q' = Filter.pruned <$> compileIn S flat s q := by
  induction h with
  | @here s as key text hkey habsent htext cs =>
    have hassemble : assemble flat (as.insert key (.str text)).get? s = assemble flat as.get? s := by
      funext cl
      rw [assemble, assemble, ownTests_blank hkey habsent htext (as.get?_insert_self ..)
        fun key' hne => as.get?_insert_of_ne hne _]
    rw [compileIn, compileIn, as.isEmpty_insert, hassemble, Bool.and_false, Bool.false_and, if_neg Bool.false_ne_true]
    split
    · next hnull =>
      -- The null filter was there before, and now a troop is bound for no tests.
      obtain ⟨rfl, has, rfl⟩ := isNull_iff.1 hnull
      rw [compileChildren, pure_bind, map_pure, map_pure, assemble_of_isEmpty flat has]
      rfl
    · rfl
  | @within s inner tag child child' htag h as before after ih =>
    have hempty : (before ++ (tag, child') :: after).isEmpty = (before ++ (tag, child) :: after).isEmpty := by
      cases before <;> rfl
    rw [compileIn, compileIn, hempty]
    split
    · rfl
    · simp only [map_bind, map_pure]
      exact bind_eq_of_map_eq (compileChildren_blank hS flat htag (fun _ => h.get_eq) ih after before [])
        fun cl' cl hcl => congrArg pure (pruned_assemble_congr flat as.get? hcl)

/-- **Any number of blank lists** may be added, one after the other. -/
theorem compileIn_blanks (flat : Bool) {s : Subject} {q q' : Config} (h : Relation.ReflTransGen (AddsBlank s) q q') :
    Filter.pruned <$> compileIn S flat s q' = Filter.pruned <$> compileIn S flat s q := by
  induction h with
  | refl => rfl
  | tail _ hstep ih => exact (compileIn_blank hS flat hstep).trans ih

end

/-! ### In a context -/

variable {σ : Type}

/-- Two builds that have the same effect on the session, and are both refused with the same
error or both give filters, whose runs are the same on every candidate in every context. -/
def BuildAlike {s : Subject} (x y : Build σ (Filter s)) : Prop :=
  ∀ start, (x.run.run start).2 = (y.run.run start).2 ∧
    ∀ {τ : Type} (ctx : Context τ), (x.run.run start).1.map (Filter.run ctx) = (y.run.run start).1.map (Filter.run ctx)

/-- **Builds of filters that are equal when pruned** are alike. -/
theorem buildAlike_of_pruned {s : Subject} {x y : Build σ (Filter s)} (h : Filter.pruned <$> x = Filter.pruned <$> y) :
    BuildAlike x y := by
  intro start
  have hstart := congrArg (fun z => z.run.run start) h
  simp only [run_map] at hstart
  obtain ⟨houtcome, hsession⟩ := Prod.mk.inj hstart
  refine ⟨hsession, fun ctx => ?_⟩
  have hpruned : ∀ z : Except FilterError (Filter s),
      (z.map Filter.pruned).map (Filter.run ctx) = z.map (Filter.run ctx) := by
    rintro (e | f)
    · rfl
    · exact congrArg Except.ok (Filter.ask_pruned ctx.quiet f)
  rw [← hpruned, houtcome, hpruned]

/-- **Blank lists constrain nothing, anywhere in a query.**  Give any list-valued fields that
are absent, at any nodes of a query that are queries, lists of commas and blanks.  In every
context, with any plug-ins and in any light, the query with them is compiled like the one
without, whatever it is about; and a query over troops is built like the one without, also
where there is no context. -/
theorem blank_lists (flat : Bool) :
    (∀ (s : Subject) (q q' : Config), Relation.ReflTransGen (AddsBlank s) q q' →
      ∀ {σ : Type} (ctx : Context σ), BuildAlike (compile ctx flat s q') (compile ctx flat s q)) ∧
    ∀ q q' : Config, Relation.ReflTransGen (AddsBlank .troop) q q' →
      ∀ {σ : Type} (ctx : Option (Context σ)), BuildAlike (build q' ctx flat) (build q ctx flat) := by
  refine ⟨fun s q q' h _ ctx => buildAlike_of_pruned (compileIn_blanks ctx.quiet flat h), fun q q' h _ ctx => ?_⟩
  cases ctx with
  | none => exact fun _ => ⟨rfl, fun _ => rfl⟩
  | some ctx => exact buildAlike_of_pruned (compileIn_blanks ctx.quiet flat h)

/-- A query for a sage with some neighbour. -/
def sageQuery : Config := .node (Table.ofList [("type", .str "Sage")]) [("filter_adjacent", .empty)]

/-- The query for a sage, of any side and with a neighbour of any race. -/
def sageQueryWithBlanks : Config :=
  .node ((Table.ofList [("type", .str "Sage")]).insert "side" (.str " , "))
    [("filter_adjacent", .node (Table.empty.insert "race" (.str ",")) [])]

/-- What `blank_lists` says of the queries for a sage. -/
theorem blank_lists_sageQuery :
    Relation.ReflTransGen (AddsBlank .troop) sageQuery sageQueryWithBlanks ∧
      (∃ f, ((build sageQuery (some countingContext) false).run.run ⟨.empty, 0⟩).1 = .ok f) ∧
      BuildAlike (compile countingContext false .troop sageQueryWithBlanks)
        (compile countingContext false .troop sageQuery) ∧
      BuildAlike (build sageQueryWithBlanks (some countingContext) false)
        (build sageQuery (some countingContext) false) := by
  have hrace : AddsBlank .troop .empty (.node (Table.empty.insert "race" (.str ",")) []) :=
    .here (by decide) rfl (by decide) []
  have hside : AddsBlank .troop sageQuery
      (.node ((Table.ofList [("type", .str "Sage")]).insert "side" (.str " , ")) [("filter_adjacent", .empty)]) :=
    .here (by decide) (by decide) (by decide) _
  have h : Relation.ReflTransGen (AddsBlank .troop) sageQuery sageQueryWithBlanks :=
    (Relation.ReflTransGen.single hside).tail (.within (by decide) hrace _ [] [])
  obtain ⟨hcompile, hbuild⟩ := blank_lists false
  exact ⟨h, ⟨_, rfl⟩, hcompile _ _ _ h countingContext, hbuild _ _ h (some countingContext)⟩

end Query
end Muster
