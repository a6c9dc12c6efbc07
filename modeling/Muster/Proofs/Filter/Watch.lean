/-
# Watching a run

A watched run does what the run does and records every call of the formula
evaluator: what was asked, the scope in force, and the troops whose own tests were
in progress.  Which tests are in progress is not read off the scope: a troop is
added to the list where its own tests begin, bound or not, and what is asked
after they end does not see it.

`Context.watched` is the setting in which everything is watched; forgetting the
record gives the run (`ask_watched`, `compileIn_watched`).
-/

import Muster.Proofs.Filter.Setting

namespace Muster

/-- A call of the formula evaluator for a troop at a location. -/
structure Call where
  text : String
  troop : Troop
  location : Location
  /-- The scope in force. -/
  scope : Scope
  /-- The troops whose own tests are in progress, and where they are checked, the innermost first. -/
  inProgress : List (Troop × Location)

/-- A run that records the calls of the formula evaluator, given the troops whose
own tests are in progress. -/
def Watched (σ α : Type) : Type := List (Troop × Location) → Run σ (α × List Call)

namespace Watched

variable {σ : Type}

/-- A watched computation is a run that adds to a record, given the troops under test. -/
instance : Monad (Watched σ) where
  pure a := fun _ => return (a, [])
  bind x f := fun nodes => do
    let (a, calls) ← x nodes
    let (b, calls') ← f a nodes
    return (b, calls ++ calls')

/-- Two watched computations in turn have the record of the first and then that of the second. -/
theorem run_bind {α β : Type} (x : Watched σ α) (f : α → Watched σ β) (nodes : List (Troop × Location))
    (s : Session σ) :
    ((x >>= f) nodes).run s =
      let first := (x nodes).run s
      let second := (f first.1.1 nodes).run first.2
      ((second.1.1, first.1.2 ++ second.1.2), second.2) := rfl

/-- The laws hold since records are put together in order. -/
instance : LawfulMonad (Watched σ) :=
  LawfulMonad.mk' (Watched σ)
    (fun x => by
      funext nodes s
      change ((((x nodes).run s).1.1, ((x nodes).run s).1.2 ++ []), ((x nodes).run s).2) = (x nodes).run s
      rw [List.append_nil]
      rfl)
    (fun _ _ => rfl)
    (fun x f g => by
      funext nodes s
      change ((x >>= f >>= g) nodes).run s = ((x >>= fun a => f a >>= g) nodes).run s
      simp only [run_bind, List.append_assoc])

end Watched

/-- The setting of a context in which everything is watched. -/
def Context.watched {σ : Type} (ctx : Context σ) : Setting (Watched σ) where
  toBoard := ctx.toBoard
  formula text l t := fun nodes => do
    match ctx.formula with
    | some evaluate =>
      let s ← get
      let verdict ← evaluate ctx.toBoard text l t
      return (verdict, [⟨text, t, l, s.scope, nodes⟩])
    | none => return (false, [])
  script name t := fun _ => do
    let verdict ← ctx.setting.script name t
    return (verdict, [])
  testing t l own := fun nodes =>
    if l.isValid then Run.withThisUnit t l (own ((t, l) :: nodes)) else own ((t, l) :: nodes)

namespace Watched

variable {σ : Type} {ctx : Context σ}

/-- Forgetting the record of a watched run gives a run. -/
def forgetful (σ : Type) : Simulation (Run σ) (Watched σ) where
  rel r w := ∀ nodes s, (((w nodes).run s).1.1, ((w nodes).run s).2) = r.run s
  rel_pure _ _ _ := rfl
  rel_bind {_ _ r w f g} hx hf nodes s := by
    rw [run_bind]
    change _ = (f (r.run s).1).run (r.run s).2
    rw [← hx nodes s]
    exact hf _ nodes _

/-- Forgetting the record gives the setting that is watched. -/
theorem alike (ctx : Context σ) : ctx.setting.Alike (forgetful σ) ctx.watched where
  board := rfl
  formula text l t nodes s := by
    simp only [Context.setting, Context.watched]
    cases ctx.formula <;> rfl
  script name t _ _ := rfl
  testing t l own own' h nodes s := by
    simp only [Context.setting, Context.watched]
    split
    · rw [Run.run_withThisUnit, Run.run_withThisUnit, ← h ((t, l) :: nodes)]
    · exact h _ s

end Watched

/-- **Watching does not change a run.** -/
theorem Filter.ask_watched {σ : Type} (ctx : Context σ) {s : Subject} (f : Filter s) (x : s.Candidate)
    (nodes : List (Troop × Location)) (start : Session σ) :
    (((f.ask ctx.watched x nodes).run start).1.1, ((f.ask ctx.watched x nodes).run start).2) =
      (f.run ctx x).run start := (Watched.alike ctx).ask f x nodes start

/-- **Watching does not change what is compiled.** -/
theorem Query.compileIn_watched {σ : Type} (ctx : Context σ) (flat : Bool) (s : Subject) (q : Config)
    (nodes : List (Troop × Location)) (start : Session σ) :
    ((((compileIn ctx.watched flat s q).run nodes).run start).1.1,
      (((compileIn ctx.watched flat s q).run nodes).run start).2) = (compile ctx flat s q).run.run start :=
  (Watched.alike ctx).compileIn flat s q nodes start

end Muster
