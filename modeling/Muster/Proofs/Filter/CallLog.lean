/-
# The calls of the plug-ins

An *evaluation* of a filter is its run with the log of what the plug-ins were asked: the
formulas and the scripts, in order, with the scope in force (`Filter.evaluation`).
Keeping the log does not change the run (`Filter.run_eq_evaluation`).

The evaluation of a compiled query is that of its own tests followed by those of all its
conditional children, each from the session that the one before it leaves
(`conditionals_evaluated`).  No verdict saves a call.
-/

import Mathlib.Data.List.Forall2
import Muster.Proofs.Filter.Conditionals
import Muster.Proofs.Filter.Plain

namespace Muster

/-- A call of a plug-in, with the scope in force. -/
inductive PluginCall where
  | formula (text : String) (troop : Troop) (location : Location) (scope : Scope)
  | script (name : String) (troop : Troop) (scope : Scope)

/-- A run that keeps a log of the calls of the plug-ins. -/
abbrev Logged (σ : Type) := WriterT (List PluginCall) (Run σ)

namespace Logged

variable {σ : Type}

/-- Make a call, and log it with the scope in force. -/
def calling (entry : Scope → PluginCall) (call : Run σ Bool) : Logged σ Bool := WriterT.mk do
  let s ← get
  let verdict ← call
  return (verdict, [entry s.scope])

/-- Two logged computations in turn have the calls of the first and then those of the second. -/
theorem run_bind {α β : Type} (x : Logged σ α) (f : α → Logged σ β) (s : Session σ) :
    ((x >>= f).run).run s =
      let first := x.run.run s
      let second := (f first.1.1).run.run first.2
      ((second.1.1, first.1.2 ++ second.1.2), second.2) := rfl

/-- Forgetting the log of a run gives the run. -/
def forgetful (σ : Type) : Simulation (Run σ) (Logged σ) where
  rel r w := ∀ s, ((w.run.run s).1.1, (w.run.run s).2) = r.run s
  rel_pure _ _ := rfl
  rel_bind {_ _ r w f g} hx hf s := by
    rw [run_bind]
    change _ = (f (r.run s).1).run (r.run s).2
    rw [← hx s]
    exact hf _ _

end Logged

namespace Context

variable {σ : Type} (ctx : Context σ)

/-- The setting of a context in which the calls of the plug-ins are logged. -/
def logged : Setting (Logged σ) where
  toBoard := ctx.toBoard
  formula text l t :=
    match ctx.formula with
    | some evaluate => Logged.calling (.formula text t l) (evaluate ctx.toBoard text l t)
    | none => return false
  script name t :=
    match ctx.script with
    | some call => Logged.calling (.script name t) (call name t)
    | none => return true
  testing t l own := WriterT.mk (if l.isValid then Run.withThisUnit t l own.run else own.run)

/-- Forgetting the log of a plug-in gives the plug-in. -/
theorem alike_logged : ctx.setting.Alike (Logged.forgetful σ) ctx.logged where
  board := rfl
  formula text l t s := by
    simp only [setting, logged]
    cases ctx.formula <;> rfl
  script name t s := by
    simp only [setting, logged]
    cases ctx.script <;> rfl
  testing t l own own' h s := by
    simp only [setting, logged, WriterT.run_mk]
    split
    · rw [Run.run_withThisUnit, Run.run_withThisUnit, ← h]
    · exact h s

/-- Tests of the board make no calls. -/
theorem quiet_logged : ctx.logged.Quiet := by
  intro t l v
  simp only [logged]
  split <;> rfl

end Context

/-! ### Evaluations -/

/-- What comes of evaluating a filter. -/
structure Evaluation (σ : Type) where
  verdict : Bool
  /-- The calls of the plug-ins, in order. -/
  calls : List PluginCall
  after : Session σ

variable {σ : Type}

/-- An evaluation followed by those of conditionals, their verdicts joined. -/
def Evaluation.joined (base : Evaluation σ) (conditionals : List Conditional) (es : List (Evaluation σ)) :
    Evaluation σ where
  verdict := Conditional.joinAll base.verdict (conditionals.zip (es.map Evaluation.verdict))
  calls := base.calls ++ es.flatMap Evaluation.calls
  after := es.foldl (fun _ e => e.after) base.after

namespace Logged

/-- What comes of a run that keeps a log. -/
def evaluation (w : Logged σ Bool) (start : Session σ) : Evaluation σ :=
  let outcome := w.run.run start
  ⟨outcome.1.1, outcome.1.2, outcome.2⟩

/-- Evaluations one after the other, each from the session that the one before it leaves. -/
def evaluations {α : Type} (ask : α → Logged σ Bool) : List α → Session σ → List (Evaluation σ)
  | [], _ => []
  | a :: as, start =>
    let first := evaluation (ask a) start
    first :: evaluations ask as first.after

/-- An evaluation in two parts: the second starts in the session that the first leaves. -/
theorem evaluation_bind (x : Logged σ Bool) (f : Bool → Logged σ Bool) (start : Session σ) :
    evaluation (x >>= f) start =
      let first := evaluation x start
      let second := evaluation (f first.verdict) first.after
      ⟨second.verdict, first.calls ++ second.calls, second.after⟩ := rfl

/-- **Every child is evaluated,** one after the other. -/
theorem evaluation_foldChildren {α : Type} (ask : α → Logged σ Bool) (base : Bool) (children : List (Conditional × α))
    (start : Session σ) :
    evaluation (Conditional.foldChildren ask base children) start =
      (Evaluation.mk base [] start).joined (children.map Prod.fst) (evaluations ask (children.map Prod.snd) start) := by
  induction children generalizing base start with
  | nil => rfl
  | cons e rest ih =>
    obtain ⟨c, child⟩ := e
    rw [Conditional.foldChildren, evaluation_bind]
    simp only [ih]
    rfl

end Logged

/-- The evaluation of a filter on a candidate. -/
def Filter.evaluation (ctx : Context σ) {s : Subject} (f : Filter s) (x : s.Candidate) (start : Session σ) :
    Evaluation σ := Logged.evaluation (f.ask ctx.logged x) start

/-- **Logging the calls does not change a run.** -/
theorem Filter.run_eq_evaluation (ctx : Context σ) {s : Subject} (f : Filter s) (x : s.Candidate) (start : Session σ) :
    (f.run ctx x).run start = ((f.evaluation ctx x start).verdict, (f.evaluation ctx x start).after) :=
  (ctx.alike_logged.ask f x start).symm

/-! ### Compiled queries -/

namespace Query

variable {ctx : Context σ} {flat : Bool} {s : Subject}

/-- A filter that a query can compile to; it depends on the session only as far as plug-ins
are asked for the viewers of vision clauses. -/
def CompilesTo (ctx : Context σ) (flat : Bool) (q : Config) (f : Filter s) : Prop :=
  ∃ start, ((compile ctx flat s q).run.run start).1 = .ok f

/-- What succeeds in two steps has succeeded in each. -/
theorem exists_of_bind_eq_ok {α β : Type} {x : Build σ α} {g : α → Build σ β} {start : Session σ} {b : β}
    (h : ((x >>= g).run.run start).1 = .ok b) :
    ∃ a start', (x.run.run start).1 = .ok a ∧ ((g a).run.run start').1 = .ok b := by
  change ((ExceptT.bindCont g (x.run.run start).1).run (x.run.run start).2).1 = .ok b at h
  cases hx : (x.run.run start).1 with
  | ok a =>
    rw [hx] at h
    exact ⟨a, _, rfl, h⟩
  | error e =>
    rw [hx] at h
    cases h

/-- **The conditionals of compiled children** are the conditional children, each compiled. -/
theorem conditionals_of_compileChildren {cs : List (String × Config)} {seen : List Slot} {start : Session σ}
    {cl : List (Clause s)} (h : ((compileChildren ctx.setting flat s seen cs).run.run start).1 = .ok cl) :
    List.Forall₂ (fun e c => e.1 = c.1 ∧ CompilesTo ctx flat e.2 c.2) (Config.conditionalChildren cs)
      (Clause.conditionals cl) := by
  induction cs generalizing seen start cl with
  | nil =>
    obtain rfl := Except.ok.inj h
    exact .nil
  | cons e rest ih =>
    obtain ⟨tag, child⟩ := e
    rw [Config.conditionalChildren_cons]
    rw [compileChildren, TagMeaning.ofTag] at h
    cases ht : Conditional.ofTag? tag with
    | some c =>
      simp only [ht] at h
      obtain ⟨seen', start₁, -, h⟩ := exists_of_bind_eq_ok h
      obtain ⟨f, start₂, hf, h⟩ := exists_of_bind_eq_ok h
      obtain ⟨clause, start₃, hclause, h⟩ := exists_of_bind_eq_ok h
      obtain ⟨cl', start₄, hcl', h⟩ := exists_of_bind_eq_ok h
      obtain rfl := Except.ok.inj hclause
      obtain rfl := Except.ok.inj h
      exact .cons ⟨rfl, start₁, hf⟩ (ih hcl')
    | none =>
      simp only [ht] at h
      cases hm : TagMeaning.ofOwnTag s tag with
      | ignored =>
        rw [hm] at h
        exact ih h
      | pattern test =>
        rw [hm] at h
        obtain ⟨cl', start₁, hcl', h⟩ := exists_of_bind_eq_ok h
        obtain rfl := Except.ok.inj h
        have hrest := ih hcl'
        exact hrest
      | part inner p =>
        rw [hm] at h
        obtain ⟨seen', start₁, -, h⟩ := exists_of_bind_eq_ok h
        obtain ⟨f, start₂, -, h⟩ := exists_of_bind_eq_ok h
        obtain ⟨clause, start₃, hclause, h⟩ := exists_of_bind_eq_ok h
        obtain ⟨cl', start₄, hcl', h⟩ := exists_of_bind_eq_ok h
        obtain rfl := Except.ok.inj h
        have hrest := ih hcl'
        cases p with
        | conditional c => exact absurd hm (TagMeaning.ofOwnTag_ne_conditional tag c)
        | _ =>
          obtain rfl := Except.ok.inj hclause
          exact hrest

/-- **A compiled query** answers as what is put together from its compiled children. -/
theorem exists_clauses {q : Config} {start : Session σ} {f : Filter s}
    (hf : ((compile ctx flat s q).run.run start).1 = .ok f) :
    ∃ cl, ((compileChildren ctx.setting flat s [] q.children).run.run start).1 = .ok cl ∧
      f.ask ctx.logged = (assemble flat q.get s cl).ask ctx.logged := by
  obtain ⟨as, cs⟩ := q
  rw [compile, compileIn] at hf
  split at hf
  · next hnull =>
    -- The null filter asks nothing, and neither do the tests of an empty query.
    obtain ⟨rfl, has, rfl⟩ := isNull_iff.1 hnull
    obtain rfl := Except.ok.inj hf
    refine ⟨[], rfl, funext fun x => ?_⟩
    have hassemble : assemble flat (Config.node as []).get .troop [] = .bound .pass := assemble_of_isEmpty flat has
    rw [hassemble]
    exact (ctx.quiet_logged x.1 x.2 true).symm
  · obtain ⟨cl, start', hcl, hf⟩ := exists_of_bind_eq_ok hf
    obtain rfl := Except.ok.inj hf
    exact ⟨cl, hcl, rfl⟩

/-- **The evaluation of a known candidate** is that of the own tests, followed by those of the
conditionals. -/
theorem evaluation_assemble (get : String → Value) (cl : List (Clause s)) {x : s.Candidate}
    (hx : ctx.knows s x = true) (asked : Session σ) :
    (assemble flat get s cl).evaluation ctx x asked =
      let own := (guardOwn s (.all (ownTests flat get s cl))).evaluation ctx x asked
      own.joined ((Clause.conditionals cl).map Prod.fst) (Logged.evaluations (fun g : Filter s => g.ask ctx.logged x)
        ((Clause.conditionals cl).map Prod.snd) own.after) := by
  rw [Filter.evaluation, ask_assemble ctx.logged x flat get cl hx, Logged.evaluation_bind]
  simp only [Logged.evaluation_foldChildren]
  rfl

/-- **Every conditional is evaluated.**  Joining the verdicts of children, with any way of asking
that may read and change a state, asks each child exactly once, in order, whatever the base
and the verdicts.  The result is true exactly if the base or some child tagged `or` is true,
no later child tagged `and` is false, and no later one tagged `not` is true.

So in every context, from every session, whatever its plug-ins do, a query that compiles has
compiled conditional children, and evaluating it on a candidate that the board knows is
evaluating its own tests and then all of them in document order: the log of calls is the log of
the own tests followed by those of the children.  A candidate that the board does not know,
a side without a team or a location off the map, is refused, and nothing is evaluated. -/
theorem conditionals_evaluated :
    (∀ {τ α : Type} (ask : α → StateM τ Bool) (base : Bool) (children : List (Conditional × α)) (start : τ),
      let asked := ((children.map Prod.snd).mapM ask).run start
      let verdicts := (children.map Prod.fst).zip asked.1
      (Conditional.foldChildren ask base children).run start = (Conditional.joinAll base verdicts, asked.2) ∧
        (Conditional.foldChildren (Conditional.recording ask) base children).run.run start =
          ((Conditional.joinAll base verdicts, children.map Prod.snd), asked.2) ∧
        (Conditional.joinAll base verdicts = true ↔ Conditional.SomeStarts ((.or, base) :: verdicts))) ∧
    ∀ {σ : Type} (ctx : Context σ) (flat : Bool) {s : Subject} (q : Config) (start : Session σ) (f : Filter s),
      ((compile ctx flat s q).run.run start).1 = .ok f →
      ∃ cl, ((compileChildren ctx.setting flat s [] q.children).run.run start).1 = .ok cl ∧
        List.Forall₂ (fun e c => e.1 = c.1 ∧ CompilesTo ctx flat e.2 c.2) q.conditionals (Clause.conditionals cl) ∧
        ∀ (x : s.Candidate) (asked : Session σ),
          let evaluation := f.evaluation ctx x asked
          let own := (guardOwn s (.all (ownTests flat q.get s cl))).evaluation ctx x asked
          let children := Logged.evaluations (fun g : Filter s => g.ask ctx.logged x)
            ((Clause.conditionals cl).map Prod.snd) own.after
          (f.run ctx x).run asked = (evaluation.verdict, evaluation.after) ∧
            (ctx.knows s x = true → evaluation = own.joined ((Clause.conditionals cl).map Prod.fst) children) ∧
            (ctx.knows s x = false → evaluation = ⟨false, [], asked⟩) := by
  refine ⟨fun ask base children start => ?_, fun ctx flat s q start f hf => ?_⟩
  · have hfold := congrArg (·.run start) (Conditional.foldChildren_eq ask base children)
    have hrecord := congrArg (·.run start) (Conditional.run_foldChildren_recording ask base children)
    simp only [StateT.run_map] at hfold hrecord
    refine ⟨hfold, ?_, Conditional.joinAll_eq_true_iff ..⟩
    rw [hrecord, hfold]
    rfl
  · obtain ⟨cl, hcl, hask⟩ := exists_clauses hf
    refine ⟨cl, hcl, conditionals_of_compileChildren hcl, fun x asked => ⟨f.run_eq_evaluation ctx x asked, ?_, ?_⟩⟩
    · intro hx
      rw [← evaluation_assemble q.get cl hx asked]
      simp only [Filter.evaluation, hask]
    · intro hx
      simp only [Filter.evaluation, hask, ask_assemble_of_not_knows ctx.logged x flat q.get cl hx]
      rfl

/-- A context in which every formula holds of the second side only, and no script holds. -/
def chorusContext : Context Nat := { countingContext with script := some fun _ _ => return false }

/-- A query whose base is false, and whose verdict is settled by its last child. -/
def chorusQuery : Config :=
  .node (Table.ofList [("formula", .str "first")])
    [("and", .ofAttributes [("formula", .str "second")]), ("or", .empty),
      ("not", .ofAttributes [("lua_function", .str "third")])]

/-- What `conditionals_evaluated` says of `chorusQuery`: all three plug-in calls are made. -/
theorem conditionals_evaluated_chorusQuery :
    ∃ f : Filter .troop, ((compile chorusContext false .troop chorusQuery).run.run ⟨.empty, 0⟩).1 = .ok f ∧
      ((f.evaluation chorusContext (scout, ⟨1, 1⟩) ⟨.empty, 0⟩).calls.length = 3 ∧
        (f.evaluation chorusContext (scout, ⟨1, 1⟩) ⟨.empty, 0⟩).verdict = true) ∧
      ∃ cl, ((compileChildren chorusContext.setting false .troop [] chorusQuery.children).run.run ⟨.empty, 0⟩).1 =
          .ok cl ∧
        let own := (guardOwn .troop (.all (ownTests false chorusQuery.get .troop cl))).evaluation chorusContext
          (scout, ⟨1, 1⟩) ⟨.empty, 0⟩
        f.evaluation chorusContext (scout, ⟨1, 1⟩) ⟨.empty, 0⟩ =
          own.joined ((Clause.conditionals cl).map Prod.fst)
            (Logged.evaluations (fun g : Filter .troop => g.ask chorusContext.logged (scout, ⟨1, 1⟩))
              ((Clause.conditionals cl).map Prod.snd) own.after) := by
  obtain ⟨cl, hcl, -, hevaluation⟩ :=
    conditionals_evaluated.2 chorusContext false (s := .troop) chorusQuery ⟨.empty, 0⟩ _ rfl
  obtain ⟨-, hknown, -⟩ := hevaluation (scout, ⟨1, 1⟩) ⟨.empty, 0⟩
  exact ⟨_, rfl, ⟨by decide, by decide⟩, cl, hcl, hknown rfl⟩

end Query
end Muster
