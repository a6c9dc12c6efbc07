/-
# Flat queries and local light

A flat query leaves the local light out of every test of the time of day.  The
flag is handed down when a query is compiled, to each child that is a query and
from there to the tests of places, which alone look at the light.  So two boards
that differ in their local light alone are the same board to a flat query, however
deep in it the places are (`Query.flat_hides_light`).

The runs themselves are the same on both boards, not only their results: plug-ins
may keep a state, as long as they do not read the light.  Hence a statement about
compiling has to say two things at once, that the two computations are one and that
all filters which it can give are flat, since the viewers of a vision clause are
asked for before the rest is compiled (`Coincide`).
-/

import Muster.Proofs.Filter.Origin

namespace Muster

/-! ### Computations that are one -/

section

variable {m : Type → Type} [Monad m] [LawfulMonad m] {α β : Type} {P : α → Prop} {Q : β → Prop}

/-- Two computations that are one, all of whose results have a property. -/
def Coincide (P : α → Prop) (x y : m α) : Prop := ∃ z : m { a // P a }, Subtype.val <$> z = x ∧ Subtype.val <$> z = y

namespace Coincide

omit [LawfulMonad m] in
/-- The two computations are one. -/
theorem eq {x y : m α} (h : Coincide P x y) : x = y := by
  obtain ⟨z, rfl, hy⟩ := h
  exact hy

/-- Giving back what has the property coincides. -/
theorem pure {a : α} (ha : P a) : Coincide P (Pure.pure a : m α) (Pure.pure a) :=
  ⟨Pure.pure ⟨a, ha⟩, map_pure .., map_pure ..⟩

/-- A computation coincides with itself. -/
theorem refl (x : m α) : Coincide (fun _ => True) x x := by
  have hx : (Subtype.val <$> (fun a => (⟨a, trivial⟩ : { _a : α // True })) <$> x) = x := by
    rw [Functor.map_map]
    exact id_map x
  exact ⟨_, hx, hx⟩

/-- **Coinciding is kept by sequencing,** where what follows need only coincide on
the results that there can be. -/
theorem bind {x y : m α} {f g : α → m β} (hx : Coincide P x y) (hf : ∀ a, P a → Coincide Q (f a) (g a)) :
    Coincide Q (x >>= f) (y >>= g) := by
  obtain ⟨z, rfl, rfl⟩ := hx
  let next (a : { a // P a }) : m { b // Q b } := (hf a.1 a.2).choose
  have hnext : ∀ a : { a // P a }, Subtype.val <$> next a = f a ∧ Subtype.val <$> next a = g a := fun a =>
    (hf a.1 a.2).choose_spec
  refine ⟨z >>= next, ?_, ?_⟩
  · simp only [map_bind, bind_map_left, (hnext _).1]
  · simp only [map_bind, bind_map_left, (hnext _).2]

/-- A computation that cannot fail coincides with another one also where failing is possible. -/
theorem exceptT {x y : m α} (h : Coincide P x y) (ε : Type) :
    Coincide P (liftM x : ExceptT ε m α) (liftM y : ExceptT ε m α) := by
  obtain ⟨z, rfl, rfl⟩ := h
  have hz : (Subtype.val <$> (liftM z : ExceptT ε m { a // P a })) = liftM (Subtype.val <$> z) := (liftM_map ..).symm
  exact ⟨liftM z, hz, hz⟩

end Coincide

end

/-- **What a run gives** has the property of its results. -/
theorem Coincide.of_ok {σ ε α : Type} {P : α → Prop} {x y : ExceptT ε (Run σ) α} (h : Coincide P x y) {start : Session σ}
    {a : α} (ha : (x.run.run start).1 = .ok a) : P a := by
  obtain ⟨z, rfl, -⟩ := h
  have hmap : ((Subtype.val <$> z : ExceptT ε (Run σ) α).run.run start).1 = (z.run.run start).1.map Subtype.val := by
    rw [ExceptT.run_map, StateT.run_map]
    rfl
  rw [hmap] at ha
  obtain ⟨⟨b, hb⟩, -, rfl⟩ := Oracle.map_eq_ok_iff.1 ha
  exact hb

/-! ### Flat filters -/

/-- Whether a test of a place leaves the local light out. -/
def PlaceTest.IsFlat : PlaceTest → Prop
  | alignment flat _ => flat = true
  | timeOfDay flat _ => flat = true
  | _ => True

/-- Whether every test of a place in a filter leaves the local light out. -/
def Filter.IsFlat : {s : Subject} → Filter s → Prop
  | _, both f g => f.IsFlat ∧ g.IsFlat
  | _, joined _ f g => f.IsFlat ∧ g.IsFlat
  | _, placeTest test => test.IsFlat
  | _, bound f => f.IsFlat
  | _, standing f => f.IsFlat
  | _, ofSide f => f.IsFlat
  | _, adjacent _ f => f.IsFlat
  | _, teamed f => f.IsFlat
  | _, enemyOf f => f.IsFlat
  | _, alliedWith f => f.IsFlat
  | _, hasTroop f => f.IsFlat
  | _, onMap f => f.IsFlat
  | _, occupied f => f.IsFlat
  | _, _ => True

/-- Filters put together from flat ones are flat. -/
theorem Filter.closed_isFlat : Filter.Closed fun f => f.IsFlat where
  pass := trivial
  both := And.intro
  joined := And.intro
  bound := id
  teamed := id
  onMap := id

namespace Query

/-- The tests of a place that a flat query makes are flat. -/
theorem isFlat_of_mem_placeTests {get : String → Value} : ∀ test ∈ placeTests true get, test.IsFlat := by
  have halignment : ∀ test ∈ alignmentTests true (get "time_of_day"), test.IsFlat := by
    unfold alignmentTests
    split
    · exact fun _ h => absurd h List.not_mem_nil
    · exact List.forall_mem_singleton.2 rfl
  simp only [placeTests, List.cons_append, List.forall_mem_cons, List.forall_mem_append]
  exact ⟨trivial, ⟨forall_mem_listTest fun _ => trivial, halignment⟩, forall_mem_listTest fun _ => rfl⟩

/-- **The fields of a flat query make flat tests.** -/
theorem isFlat_of_mem_ownTests {s : Subject} {get : String → Value} : ∀ f ∈ ownTests true get s [], f.IsFlat := by
  by_cases hs : s = .place
  · subst hs
    simp only [ownTests, List.forall_mem_append, List.forall_mem_map]
    exact ⟨isFlat_of_mem_placeTests, fun _ h => absurd h List.not_mem_nil⟩
  · exact fun f hf => forall_mem_fieldTests (P := fun {s} f => s ≠ .place → f.IsFlat) (fun _ _ => trivial)
      (fun _ => trivial) (fun h => absurd rfl h) (fun _ => trivial) (fun _ => trivial) f hf hs

end Query

/-! ### Boards that differ in their light -/

/-- The board with the given local light in place of its own. -/
def Board.relit (b : Board) (light : Table Location Int) : Board := { b with light := light }

namespace Setting

variable {m : Type → Type} [Monad m]

/-- The setting with the given local light in place of its own. -/
def relit (S : Setting m) (light : Table Location Int) : Setting m := { S with toBoard := S.toBoard.relit light }

variable (S : Setting m) (light : Table Location Int)

omit [Monad m] in
/-- A test of a troop does not look at the light. -/
theorem troopTest_relit (test : TroopTest) (t : Troop) (l : Location) :
    test.holds (S.relit light).toBoard t l = test.holds S.toBoard t l := by
  cases test <;> rfl

omit [Monad m] in
/-- A flat test of a place does not look at the light. -/
theorem placeTest_relit {test : PlaceTest} (h : test.IsFlat) (l : Location) :
    test.holds (S.relit light).toBoard l = test.holds S.toBoard l := by
  cases test with
  | coordinates => rfl
  | terrain => rfl
  | alignment =>
    obtain rfl := h
    rfl
  | timeOfDay =>
    obtain rfl := h
    rfl

/-- **A flat filter is asked the same way in any light.** -/
theorem ask_relit : ∀ {s : Subject} {f : Filter s}, f.IsFlat → ∀ x, f.ask (S.relit light) x = f.ask S x
  | _, .pass, _, _ => rfl
  | _, .both f g, h, x => by
    obtain ⟨hf, hg⟩ : f.IsFlat ∧ g.IsFlat := h
    simp only [Filter.ask, ask_relit hf, ask_relit hg]
  | _, .joined _ f g, h, x => by
    obtain ⟨hf, hg⟩ : f.IsFlat ∧ g.IsFlat := h
    simp only [Filter.ask, ask_relit hf, ask_relit hg]
  | _, .troopTest test, _, (t, l) => by simp only [Filter.ask, troopTest_relit]
  | _, .sideTest _, _, _ => rfl
  | _, .placeTest _, h, l => by simp only [Filter.ask, placeTest_relit S light h]
  | _, .formula _, _, _ => rfl
  | _, .script _, _, _ => rfl
  | _, .bound f, h, (t, l) => congrArg (S.testing t l) (ask_relit (f := f) h (t, l))
  | _, .standing f, h, (_, l) => ask_relit (f := f) h l
  | _, .ofSide f, h, (t, _) => ask_relit (f := f) h t.side
  | _, .adjacent _ f, h, _ => by simp only [Filter.ask, ask_relit (f := f) h]; rfl
  | _, .teamed f, h, _ => by simp only [Filter.ask, ask_relit (f := f) h]; rfl
  | _, .enemyOf f, h, _ => by
    have hf : f.ask (S.relit light) = f.ask S := funext (ask_relit (f := f) h)
    simp only [Filter.ask, hf]
    rfl
  | _, .alliedWith f, h, _ => by
    have hf : f.ask (S.relit light) = f.ask S := funext (ask_relit (f := f) h)
    simp only [Filter.ask, hf]
    rfl
  | _, .hasTroop f, h, _ => by simp only [Filter.ask, ask_relit (f := f) h]; rfl
  | _, .onMap f, h, _ => by simp only [Filter.ask, ask_relit (f := f) h]; rfl
  | _, .occupied f, h, _ => by simp only [Filter.ask, ask_relit (f := f) h]; rfl

/-- **A flat filter selects the same sides in any light.** -/
theorem sidesIn_relit {f : Filter .side} (h : f.IsFlat) : f.sidesIn (S.relit light) = f.sidesIn S := by
  have hf : f.ask (S.relit light) = f.ask S := funext (S.ask_relit light h)
  simp only [Filter.sidesIn, hf]
  rfl

section

variable [LawfulMonad m]

/-- A clause that a flat filter makes is flat, and the same in any light. -/
theorem ofPart_relit (get : String → Value) {s inner : Subject} (p : Part s inner) {f : Filter inner} (h : f.IsFlat) :
    Coincide (fun c : Clause s => c.filter.IsFlat) (Clause.ofPart (S.relit light) get p f) (Clause.ofPart S get p f) := by
  cases p with
  | vision =>
    simp only [Clause.ofPart, S.sidesIn_relit light h]
    exact (Coincide.refl _).bind fun _ _ => .pure trivial
  | _ => exact .pure h

mutual

/-- **A flat query compiles the same way in any light,** and only to flat filters. -/
theorem compileIn_relit (s : Subject) :
    ∀ q : Config, Coincide (fun f => f.IsFlat) (Query.compileIn (S.relit light) true s q) (Query.compileIn S true s q)
  | .node as cs => by
    simp only [Query.compileIn]
    split
    · exact .pure trivial
    · exact (compileChildren_relit s [] cs).bind fun _ hcs =>
        .pure (Query.closed_assemble Filter.closed_isFlat Query.isFlat_of_mem_ownTests hcs)

/-- **The children of a flat query** compile alike in every light, each to a flat clause. -/
theorem compileChildren_relit (s : Subject) (seen : List Slot) :
    ∀ cs : List (String × Config), Coincide (fun cl : List (Clause s) => ∀ c ∈ cl, c.filter.IsFlat)
      (Query.compileChildren (S.relit light) true s seen cs) (Query.compileChildren S true s seen cs)
  | [] => .pure fun _ h => absurd h List.not_mem_nil
  | (tag, child) :: rest => by
    simp only [Query.compileChildren]
    split
    · exact compileChildren_relit s seen rest
    · next test hm =>
      have hpattern : (Filter.troopTest (Query.patternTest child)).IsFlat := trivial
      have htest : (test child).IsFlat := TagMeaning.forall_pattern (P := fun _ f => f.IsFlat) hpattern hm
      exact (compileChildren_relit s seen rest).bind fun _ hcs => .pure (List.forall_mem_cons.2 ⟨htest, hcs⟩)
    · next inner p _ =>
      refine (Coincide.refl _).bind fun seen' _ => ?_
      refine (compileIn_relit inner child).bind fun f hf => ?_
      refine ((S.ofPart_relit light child.get p hf).exceptT _).bind fun c hc => ?_
      exact (compileChildren_relit s seen' rest).bind fun _ hcs => .pure (List.forall_mem_cons.2 ⟨hc, hcs⟩)

end

end

end Setting

/-! ### In a context -/

namespace Context

variable {σ : Type}

/-- The context whose board has the given local light in place of its own. -/
def relit (ctx : Context σ) (light : Table Location Int) : Context σ := { ctx with toBoard := ctx.toBoard.relit light }

/-- A context whose formulas do not read the local light; scripts see no board at all. -/
def IgnoresLight (ctx : Context σ) : Prop :=
  ∀ evaluate ∈ ctx.formula, ∀ light text l t,
    evaluate (ctx.toBoard.relit light) text l t = evaluate ctx.toBoard text l t

/-- Where no plug-in reads the light, changing it changes the board alone. -/
theorem IgnoresLight.setting_relit {ctx : Context σ} (h : ctx.IgnoresLight) (light : Table Location Int) :
    (ctx.relit light).setting = ctx.setting.relit light := by
  have hformula : (ctx.relit light).setting.formula = ctx.setting.formula := by
    funext text l t
    simp only [setting, relit]
    cases he : ctx.formula with
    | none => rfl
    | some evaluate => exact h evaluate he light text l t
  change { (ctx.relit light).setting with formula := (ctx.relit light).setting.formula } = _
  rw [hformula]
  rfl

end Context

namespace Query

variable {σ : Type} {ctx : Context σ}

/-- **Flat queries do not see the local light.**  Take two boards that differ in
their local light alone, and formulas that do not read it.  Compiling a flat query
over troops, sides or places is the same run on both boards, and so is asking its
filter about any candidate: from every session, and so in every scope, it gives
the same result and leaves the plug-ins in the same state. -/
theorem flat_hides_light (hctx : ctx.IgnoresLight) (light : Table Location Int) (q : Config) :
    (build q (some (ctx.relit light)) true = build q (some ctx) true ∧
      ∀ start f, ((build q (some ctx) true).run.run start).1 = .ok f → ∀ t l,
        f.matchesAt (ctx.relit light) t l = f.matchesAt ctx t l) ∧
    ∀ s, compile (ctx.relit light) true s q = compile ctx true s q ∧
      ∀ start f, ((compile ctx true s q).run.run start).1 = .ok f → ∀ x, f.run (ctx.relit light) x = f.run ctx x := by
  have hcompile : ∀ s, compile (ctx.relit light) true s q = compile ctx true s q ∧
      ∀ start f, ((compile ctx true s q).run.run start).1 = .ok f →
        ∀ x, f.run (ctx.relit light) x = f.run ctx x := by
    intro s
    have hcoincide := ctx.setting.compileIn_relit light s q
    refine ⟨?_, fun start f hf x => ?_⟩
    · rw [compile, compile, hctx.setting_relit]
      exact hcoincide.eq
    · rw [hcoincide.eq] at hcoincide
      rw [Filter.run, Filter.run, hctx.setting_relit]
      exact ctx.setting.ask_relit light (hcoincide.of_ok hf) x
  obtain ⟨hbuild, htroop⟩ := hcompile .troop
  exact ⟨⟨hbuild, fun start f hf t l => htroop start f hf (t, l)⟩, hcompile⟩

/-- A dark passage of two hexes, and an evaluator that numbers its calls and says
yes to the first three. -/
def passage : Context Nat where
  toBoard := ({ map := Grid.filled 2 1 "Uu" } : Board).place { id := "mole", type := "Ghast", location := ⟨1, 0⟩ }
  formula := some fun _ _ _ _ => do
    modify fun s => { s with host := s.host + 1 }
    return decide ((← get).host < 4)

/-- The plug-ins of the passage do not read the light. -/
theorem passage_ignoresLight : passage.IgnoresLight := by
  intro evaluate he
  obtain rfl := Option.some.inj he
  exact fun _ _ _ _ => rfl

/-- A lantern that hangs in the second hex. -/
def lantern : Table Location Int := Table.ofList [(⟨1, 0⟩, 30)]

/-- A query for a neighbour of whom a formula holds and who stands where nobody is favoured. -/
def dimQuery : Config :=
  .wrap "filter_adjacent" (.node (Table.ofList [("formula", .str "awake")])
    [("filter_location", .ofAttributes [("time_of_day", .str "neutral")])])

/-- The hypotheses of `flat_hides_light` are met by `dimQuery` in the passage with the lantern. -/
theorem flat_hides_light_passage :
    passage.IgnoresLight ∧ ∃ f, ((build dimQuery (some passage) true).run.run ⟨.empty, 0⟩).1 = .ok f ∧
      ((build dimQuery (some (passage.relit lantern)) true).run.run ⟨.empty, 0⟩).1 = .ok f ∧
      ∀ t, f.matchesAt (passage.relit lantern) t ⟨0, 0⟩ = f.matchesAt passage t ⟨0, 0⟩ := by
  obtain ⟨⟨hbuild, hmatches⟩, -⟩ := flat_hides_light passage_ignoresLight lantern dimQuery
  refine ⟨passage_ignoresLight, _, rfl, ?_, fun t => hmatches ⟨.empty, 0⟩ _ rfl t _⟩
  rw [hbuild]
  rfl

/-- A query that is not flat tells the lantern. -/
example (t : Troop) :
    ∃ f, ((build dimQuery (some passage) false).run.run ⟨.empty, 0⟩).1 = .ok f ∧
      ((f.matchesAt passage t ⟨0, 0⟩).run ⟨.empty, 0⟩).1 = true ∧
      ((f.matchesAt (passage.relit lantern) t ⟨0, 0⟩).run ⟨.empty, 0⟩).1 = false :=
  ⟨_, rfl, rfl, rfl⟩

end Query
end Muster
