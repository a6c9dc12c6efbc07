/-
# Verdicts without a run

Where the plug-ins answer as functions of the scope, a filter has a verdict that
is a function of the scope too.  An `Oracle` is a board with such answers;
`verdict` asks a filter of it and `compiled` compiles a query with it.  A context
whose plug-ins are functions (`Context.IsFunctional`) has an oracle, and its runs
give what the oracle says, whatever the state of the plug-ins, and leave the scope
as it was (`Context.Follows.run`, `Context.Follows.compile`).

The equations of `verdict` are those of a truth value: `both` is a conjunction,
`joined` joins, and a bound filter is asked under one more binding.
-/

import Muster.Proofs.Filter.Setting

namespace Muster

/-- A computation that only looks at the scope. -/
def Look (α : Type) : Type := Scope → α

namespace Look

/-- Answers that depend on the scope are a monad, every step being asked in the same scope. -/
instance : Monad Look where
  pure a := fun _ => a
  bind x f := fun sc => f (x sc) sc

/-- The laws hold since functions are equal that are equal everywhere. -/
instance : LawfulMonad Look :=
  LawfulMonad.mk' Look (fun _ => rfl) (fun _ _ => rfl) (fun _ _ _ => rfl)

variable {α β : Type}

/-- What is given back does not depend on the scope. -/
@[simp] theorem pure_apply (a : α) (sc : Scope) : (pure a : Look α) sc = a := rfl

/-- Both steps are asked in one scope. -/
@[simp] theorem bind_apply (x : Look α) (f : α → Look β) (sc : Scope) : (x >>= f) sc = f (x sc) sc := rfl

/-- A choice made outside the scope is made before asking. -/
theorem ite_apply (c : Bool) (x y : Look α) (sc : Scope) :
    (if c then x else y) sc = if c then x sc else y sc := by cases c <;> rfl

/-- Selecting is filtering by the answers. -/
theorem select_apply (p : α → Look Bool) (sc : Scope) :
    ∀ as : List α, Run.select p as sc = as.filter fun a => p a sc
  | [] => rfl
  | a :: as => by
    simp only [Run.select, bind_apply, pure_apply, select_apply p sc as, List.filter_cons]

/-- The first that passes is found by the answers. -/
theorem first?_apply (p : α → Look Bool) (sc : Scope) :
    ∀ as : List α, Run.first? p as sc = as.find? fun a => p a sc
  | [] => rfl
  | a :: as => by
    rw [Run.first?, bind_apply, List.find?_cons]
    cases p a sc with
    | false => exact first?_apply p sc as
    | true => rfl

end Look

/-- A board whose formulas and scripts are answered by functions of the scope. -/
structure Oracle extends Board where
  formula : String → Location → Troop → Look Bool
  script : String → Troop → Look Bool

/-- The scope in which a troop at a location is tested. -/
def Scope.under (sc : Scope) (t : Troop) (l : Location) : Scope :=
  if l.isValid then sc.push ⟨Scope.thisUnit, t.id, l⟩ else sc

namespace Oracle

/-- The setting in which computations only look at the scope. -/
def setting (o : Oracle) : Setting Look where
  toBoard := o.toBoard
  formula := o.formula
  script := o.script
  testing t l own := fun sc => own (sc.under t l)

/-- The verdict of a filter on a candidate under a scope. -/
def verdict (o : Oracle) {s : Subject} (f : Filter s) (x : s.Candidate) : Look Bool := f.ask o.setting x

/-- The sides that pass under a scope. -/
def sides (o : Oracle) (f : Filter .side) : Look (List Int32) := f.sidesIn o.setting

/-- The filter of a query compiled under a scope. -/
def compiled (o : Oracle) (flat : Bool) (s : Subject) (q : Config) : Look (Except FilterError (Filter s)) :=
  (Query.compileIn o.setting flat s q).run

/-- The clauses of children compiled under a scope. -/
def clauses (o : Oracle) (flat : Bool) (s : Subject) (seen : List Slot) (cs : List (String × Config)) :
    Look (Except FilterError (List (Clause s))) :=
  (Query.compileChildren o.setting flat s seen cs).run

section Equations

variable (o : Oracle) (sc : Scope)

/-- The null filter passes everything. -/
@[simp] theorem verdict_pass {s : Subject} (x : s.Candidate) : o.verdict .pass x sc = true := rfl

/-- Two filters in turn are a conjunction. -/
@[simp] theorem verdict_both {s : Subject} (f g : Filter s) (x : s.Candidate) :
    o.verdict (.both f g) x sc = (o.verdict f x sc && o.verdict g x sc) := by
  simp only [verdict, Filter.ask, Look.bind_apply]
  cases f.ask o.setting x sc <;> rfl

/-- A conditional joins two verdicts. -/
@[simp] theorem verdict_joined {s : Subject} (c : Conditional) (f g : Filter s) (x : s.Candidate) :
    o.verdict (.joined c f g) x sc = c.join (o.verdict f x sc) (o.verdict g x sc) := rfl

/-- A test of a troop holds or not by the board. -/
@[simp] theorem verdict_troopTest (test : TroopTest) (t : Troop) (l : Location) :
    o.verdict (.troopTest test) (t, l) sc = test.holds o.toBoard t l := rfl

/-- A test of a side is one of its team, and fails where there is none. -/
@[simp] theorem verdict_sideTest (test : SideTest) (side : Int32) :
    o.verdict (.sideTest test) side sc = (o.team? side).any (test.holds ·) := rfl

/-- A test of a place holds or not by the board. -/
@[simp] theorem verdict_placeTest (test : PlaceTest) (l : Location) :
    o.verdict (.placeTest test) l sc = test.holds o.toBoard l := rfl

/-- A formula answers from the scope, the location and the troop. -/
@[simp] theorem verdict_formula (text : String) (t : Troop) (l : Location) :
    o.verdict (.formula text) (t, l) sc = o.formula text l t sc := rfl

/-- A script answers from the scope and the troop. -/
@[simp] theorem verdict_script (name : String) (t : Troop) (l : Location) :
    o.verdict (.script name) (t, l) sc = o.script name t sc := rfl

/-- A bound filter is asked with the troop bound. -/
@[simp] theorem verdict_bound (own : Filter .troop) (t : Troop) (l : Location) :
    o.verdict (.bound own) (t, l) sc = o.verdict own (t, l) (sc.under t l) := rfl

/-- A place filter is asked about the location of the troop. -/
@[simp] theorem verdict_standing (f : Filter .place) (t : Troop) (l : Location) :
    o.verdict (.standing f) (t, l) sc = o.verdict f l sc := rfl

/-- A side filter is asked about the side of the troop. -/
@[simp] theorem verdict_ofSide (f : Filter .side) (t : Troop) (l : Location) :
    o.verdict (.ofSide f) (t, l) sc = o.verdict f t.side sc := rfl

/-- An adjacency clause counts the troops next to the location that pass and are of the hostility
asked for. -/
@[simp] theorem verdict_adjacent (a : Adjacency) (f : Filter .troop) (t : Troop) (l : Location) :
    o.verdict (.adjacent a f) (t, l) sc =
      a.counts.contains (((a.directions.filterMap fun d => o.roster.at? (l.neighbor d)).filter
        fun n => o.verdict f (n, n.location) sc).filter
          fun n => a.hostile.all (o.isHostile t n.side == ·)).length := by
  simp only [verdict, Filter.ask, Look.bind_apply, Look.select_apply]
  rfl

/-- A side without a team does not pass. -/
@[simp] theorem verdict_teamed (f : Filter .side) (side : Int32) :
    o.verdict (.teamed f) side sc = ((o.team? side).isSome && o.verdict f side sc) := by
  simp only [verdict, Filter.ask, Look.ite_apply]
  change (if (o.team? side).isSome then o.verdict f side sc else false) = _
  cases (o.team? side).isSome <;> rfl

/-- The sides that pass, in ascending order. -/
@[simp] theorem sides_apply (f : Filter .side) :
    o.sides f sc = ((o.teams.map Team.side).filter fun side => o.verdict f side sc).mergeSort
      fun a b => decide (a ≤ b) := by
  simp only [sides, Filter.sidesIn, Look.bind_apply, Look.select_apply]
  rfl

/-- A side passes if some side is selected and its team counts every one as an enemy. -/
@[simp] theorem verdict_enemyOf (f : Filter .side) (side : Int32) :
    o.verdict (.enemyOf f) side sc =
      (!((o.teams.map Team.side).filter fun other => o.verdict f other sc).isEmpty &&
        (o.team? side).any fun team =>
          ((o.teams.map Team.side).filter fun other => o.verdict f other sc).all team.isEnemy) := by
  simp only [verdict, Filter.ask, Look.bind_apply, Look.select_apply]
  rfl

/-- A side passes if some side is selected and its team counts none as an enemy. -/
@[simp] theorem verdict_alliedWith (f : Filter .side) (side : Int32) :
    o.verdict (.alliedWith f) side sc =
      (!((o.teams.map Team.side).filter fun other => o.verdict f other sc).isEmpty &&
        (o.team? side).any fun team =>
          !((o.teams.map Team.side).filter fun other => o.verdict f other sc).any team.isEnemy) := by
  simp only [verdict, Filter.ask, Look.bind_apply, Look.select_apply]
  rfl

/-- A side passes if one of its troops does, where this stands. -/
@[simp] theorem verdict_hasTroop (f : Filter .troop) (side : Int32) :
    o.verdict (.hasTroop f) side sc =
      (o.roster.troops.filter (·.side == side)).any fun t => o.verdict f (t, t.location) sc := by
  simp only [verdict, Filter.ask, Look.bind_apply, Look.pure_apply, Look.first?_apply, List.isSome_find?]
  rfl

/-- A location off the map does not pass. -/
@[simp] theorem verdict_onMap (f : Filter .place) (l : Location) :
    o.verdict (.onMap f) l sc = (o.map.holds l && o.verdict f l sc) := by
  simp only [verdict, Filter.ask, Look.ite_apply]
  change (if o.map.holds l then o.verdict f l sc else false) = _
  cases o.map.holds l <;> rfl

/-- A place passes if a troop stands there and passes. -/
@[simp] theorem verdict_occupied (f : Filter .troop) (l : Location) :
    o.verdict (.occupied f) l sc = (o.roster.at? l).any fun t => o.verdict f (t, t.location) sc := by
  simp only [verdict, Filter.ask, setting]
  cases o.roster.at? l <;> rfl

/-- Several filters in turn are a conjunction. -/
@[simp] theorem verdict_all {s : Subject} (fs : List (Filter s)) (x : s.Candidate) :
    o.verdict (.all fs) x sc = fs.all fun f => o.verdict f x sc := by
  induction fs with
  | nil => rfl
  | cons f fs ih =>
    rw [List.all_cons, ← ih]
    exact o.verdict_both sc f (.all fs) x

/-- Two steps in one scope, the first of which may fail. -/
theorem run_bind {α β : Type} (x : ExceptT FilterError Look α) (f : α → ExceptT FilterError Look β) :
    (x >>= f).run sc = (x.run sc).bind fun a => (f a).run sc := by
  change ExceptT.bindCont f (x.run sc) sc = _
  cases x.run sc <;> rfl

variable (flat : Bool) (s : Subject)

omit o sc in
/-- What succeeds and is changed has succeeded. -/
theorem map_eq_ok_iff {ε α β : Type} {x : Except ε α} {f : α → β} {b : β} :
    x.map f = .ok b ↔ ∃ a, x = .ok a ∧ f a = b := by
  cases x <;> simp [Except.map]

omit o sc in
/-- What succeeds in two steps succeeds in each. -/
theorem bind_eq_ok_iff {ε α β : Type} {x : Except ε α} {f : α → Except ε β} {b : β} :
    x.bind f = .ok b ↔ ∃ a, x = .ok a ∧ f a = .ok b := by
  cases x <;> simp [Except.bind]

/-- A query compiles to the null filter if nothing is in it, or else to its tests and clauses. -/
theorem compiled_node (as : Table String Scalar) (cs : List (String × Config)) :
    o.compiled flat s (.node as cs) sc =
      if s = .troop && as.isEmpty && cs.isEmpty then .ok .pass
      else (o.clauses flat s [] cs sc).map (Query.assemble flat as.get? s) := by
  simp only [compiled, clauses, Query.compileIn]
  split
  · rfl
  · rw [run_bind]
    cases (Query.compileChildren o.setting flat s [] cs).run sc <;> rfl

/-- A query without children has no clauses. -/
@[simp] theorem clauses_nil (seen : List Slot) : o.clauses flat s seen [] sc = .ok [] := rfl

/-- The clauses of several children: each child is compiled by itself, after the
check that it may occur. -/
theorem clauses_cons (seen : List Slot) (tag : String) (child : Config) (rest : List (String × Config)) :
    o.clauses flat s seen ((tag, child) :: rest) sc =
      match TagMeaning.ofTag s tag with
      | .ignored => o.clauses flat s seen rest sc
      | .pattern test => (o.clauses flat s seen rest sc).map (.own .pattern (test child) :: ·)
      | .part inner p =>
        (Query.checkOnce seen p).bind fun seen' => (o.compiled flat inner child sc).bind fun f =>
          (o.clauses flat s seen' rest sc).map (Clause.ofPart o.setting child.get p f sc :: ·) := by
  simp only [compiled, clauses, Query.compileChildren]
  cases TagMeaning.ofTag s tag with
  | ignored => rfl
  | pattern test =>
    simp only [run_bind]
    cases (Query.compileChildren o.setting flat s seen rest).run sc <;> rfl
  | part inner p =>
    simp only [run_bind]
    cases Query.checkOnce seen p with
    | error => rfl
    | ok seen' =>
      cases (Query.compileIn o.setting flat inner child).run sc with
      | error => rfl
      | ok f =>
        change ((Query.compileChildren o.setting flat s seen' rest).run sc).bind _ =
          ((Query.compileChildren o.setting flat s seen' rest).run sc).map _
        cases (Query.compileChildren o.setting flat s seen' rest).run sc <;> rfl

end Equations

end Oracle

/-! ### Contexts whose plug-ins are functions -/

/-- A run *answers* by the scope when its result depends on nothing else and it
leaves the scope as it found it. -/
def Run.Answers {σ α : Type} (r : Run σ α) (v : Look α) : Prop :=
  ∀ s : Session σ, (r.run s).1 = v s.scope ∧ (r.run s).2.scope = s.scope

/-- Answering by the scope is kept by sequencing. -/
def Run.answers (σ : Type) : Simulation (Run σ) Look where
  rel := Run.Answers
  rel_pure _ _ := ⟨rfl, rfl⟩
  rel_bind {_ _ x y f g} hx hf s := by
    obtain ⟨h₁, h₂⟩ := hx s
    obtain ⟨h₃, h₄⟩ := hf (x.run s).1 (x.run s).2
    change ((f (x.run s).1).run (x.run s).2).1 = g (y s.scope) s.scope ∧
      ((f (x.run s).1).run (x.run s).2).2.scope = s.scope
    exact ⟨by rw [h₃, h₁, h₂], by rw [h₄, h₂]⟩

/-- A troop is tested under its binding, which is gone afterwards. -/
theorem Run.Answers.testing {σ : Type} {ctx : Context σ} {t : Troop} {l : Location} {own : Run σ Bool}
    {v : Look Bool} (h : own.Answers v) : (ctx.setting.testing t l own).Answers fun sc => v (sc.under t l) := by
  intro s
  simp only [Context.setting, Scope.under]
  split
  · obtain ⟨h₁, h₂⟩ := h ⟨s.scope.push ⟨Scope.thisUnit, t.id, l⟩, s.host⟩
    exact ⟨h₁, congrArg Scope.pop h₂⟩
  · exact h s

namespace Context

variable {σ : Type} {ctx : Context σ} {o : Oracle}

/-- A context whose plug-ins answer as functions of what they are given and of the
scope. -/
structure IsFunctional (ctx : Context σ) : Prop where
  formula : ∀ evaluate ∈ ctx.formula, ∀ text l t, ∃ v, (evaluate ctx.toBoard text l t).Answers v
  script : ∀ call ∈ ctx.script, ∀ name t, ∃ v, (call name t).Answers v

/-- A context whose runs answer what an oracle says. -/
abbrev Follows (ctx : Context σ) (o : Oracle) : Prop := ctx.setting.Alike (Run.answers σ) o.setting

/-- A context whose plug-ins answer as the same functions of what they are given and
of the scope on every board of a kind. -/
structure AnswersOn (ctx : Context σ) (kind : Board → Prop) : Prop where
  formula : ∀ evaluate ∈ ctx.formula, ∀ text l t, ∃ v, ∀ b, kind b → (evaluate b text l t).Answers v
  script : ∀ call ∈ ctx.script, ∀ name t, ∃ v, (call name t).Answers v

/-- A context whose plug-ins answer from what they are given and from the scope
alone, whatever the board. -/
abbrev IsBlind (ctx : Context σ) : Prop := ctx.AnswersOn fun _ => True

/-- **One oracle for all boards of a kind:** over each of them the context follows
the same answers. -/
theorem AnswersOn.exists_follows {kind : Board → Prop} (h : ctx.AnswersOn kind) :
    ∃ formula script, ∀ b, kind b → ({ ctx with toBoard := b } : Context σ).Follows ⟨b, formula, script⟩ := by
  have hf : ∀ text l t, ∃ v, ∀ b, kind b →
      (({ ctx with toBoard := b } : Context σ).setting.formula text l t).Answers v := by
    intro text l t
    cases he : ctx.formula with
    | none => exact ⟨fun _ => false, fun _ _ _ => by simp only [setting]; exact ⟨rfl, rfl⟩⟩
    | some evaluate => simpa [setting] using h.formula evaluate he text l t
  have hs : ∀ name t, ∃ v, (ctx.setting.script name t).Answers v := by
    intro name t
    cases he : ctx.script with
    | none => exact ⟨fun _ => true, fun _ => by simp only [setting, he]; exact ⟨rfl, rfl⟩⟩
    | some call => simpa [setting, he] using h.script call he name t
  let formula text l t := (hf text l t).choose
  let script name t := (hs name t).choose
  exact ⟨formula, script, fun b hb => ⟨rfl, fun text l t => (hf text l t).choose_spec b hb,
    fun name t => (hs name t).choose_spec, fun _ _ => Run.Answers.testing⟩⟩

/-- **A context whose plug-ins are functions follows an oracle** over its board. -/
theorem IsFunctional.exists_follows (h : ctx.IsFunctional) :
    ∃ o : Oracle, o.toBoard = ctx.toBoard ∧ ctx.Follows o := by
  have hctx : ctx.AnswersOn (· = ctx.toBoard) := by
    refine ⟨fun evaluate he text l t => ?_, h.script⟩
    obtain ⟨v, hv⟩ := h.formula evaluate he text l t
    exact ⟨v, fun b hb => hb ▸ hv⟩
  obtain ⟨formula, script, hfollows⟩ := hctx.exists_follows
  exact ⟨⟨ctx.toBoard, formula, script⟩, rfl, hfollows ctx.toBoard rfl⟩

/-- **Runs answer what the oracle says.** -/
theorem Follows.run (h : ctx.Follows o) {s : Subject} (f : Filter s) (x : s.Candidate) :
    (f.run ctx x).Answers (o.verdict f x) := h.ask f x

/-- **Compiling gives what the oracle compiles.** -/
theorem Follows.compile (h : ctx.Follows o) (flat : Bool) (s : Subject) (q : Config) :
    (Query.compile ctx flat s q).run.Answers (o.compiled flat s q) := h.compileIn flat s q

end Context
end Muster
