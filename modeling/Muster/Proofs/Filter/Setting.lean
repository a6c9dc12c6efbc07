/-
# Settings that answer alike

A filter reaches the world only through its setting, so what two settings have
in common their filters have in common as well.  What they have in common is a
`Simulation`: a relation between the computations of two monads that equal
results satisfy and that sequencing keeps.  Where the parts of two settings are
related, so is everything that is asked in them (`Alike.ask`) and compiled in
them (`Alike.compileIn`).
-/

import Muster.Filter.Compile

namespace Muster

/-- A relation between the computations of two monads which sequencing keeps. -/
structure Simulation (m n : Type → Type) [Monad m] [Monad n] where
  rel : {α : Type} → m α → n α → Prop
  rel_pure : ∀ {α : Type} (a : α), rel (pure a) (pure a)
  rel_bind : ∀ {α β : Type} {x : m α} {y : n α} {f : α → m β} {g : α → n β}, rel x y →
    (∀ a, rel (f a) (g a)) → rel (x >>= f) (y >>= g)

namespace Simulation

variable {m n : Type → Type} [Monad m] [Monad n] (R : Simulation m n)

/-- **Asking every member of a list keeps a relation.** -/
theorem select {α : Type} {p : α → m Bool} {q : α → n Bool} (h : ∀ a, R.rel (p a) (q a)) :
    ∀ as : List α, R.rel (Run.select p as) (Run.select q as)
  | [] => R.rel_pure _
  | a :: as => R.rel_bind (h a) fun _ => R.rel_bind (select h as) fun _ => R.rel_pure _

/-- **Asking up to the first member that passes keeps a relation.** -/
theorem first? {α : Type} {p : α → m Bool} {q : α → n Bool} (h : ∀ a, R.rel (p a) (q a)) :
    ∀ as : List α, R.rel (Run.first? p as) (Run.first? q as)
  | [] => R.rel_pure _
  | a :: as => by
    refine R.rel_bind (h a) fun b => ?_
    cases b with
    | false => exact first? h as
    | true => exact R.rel_pure _

/-- The relation between computations that may fail: the computations of their
outcomes are related. -/
def exceptT (ε : Type) : Simulation (ExceptT ε m) (ExceptT ε n) where
  rel x y := R.rel x.run y.run
  rel_pure a := R.rel_pure (Except.ok a)
  rel_bind hx hf := R.rel_bind hx fun
    | .ok a => hf a
    | .error e => R.rel_pure (Except.error e)

variable {R}

/-- A result or an error is related to itself. -/
theorem exceptT_ofExcept {ε α : Type} (x : Except ε α) :
    (R.exceptT ε).rel (liftM x : ExceptT ε m α) (liftM x : ExceptT ε n α) := R.rel_pure x

/-- What cannot fail is related as it was. -/
theorem exceptT_lift [LawfulMonad m] [LawfulMonad n] {ε α : Type} {x : m α} {y : n α} (h : R.rel x y) :
    (R.exceptT ε).rel (liftM x : ExceptT ε m α) (liftM y : ExceptT ε n α) := by
  have hx : (liftM x : ExceptT ε m α).run = x >>= fun a => pure (Except.ok a) := by
    rw [bind_pure_comp]; rfl
  have hy : (liftM y : ExceptT ε n α).run = y >>= fun a => pure (Except.ok a) := by
    rw [bind_pure_comp]; rfl
  change R.rel (liftM x : ExceptT ε m α).run (liftM y : ExceptT ε n α).run
  rw [hx, hy]
  exact R.rel_bind h fun _ => R.rel_pure _

end Simulation

/-- Two settings over one board whose parts are related. -/
structure Setting.Alike {m n : Type → Type} [Monad m] [Monad n] (R : Simulation m n) (S : Setting m)
    (T : Setting n) : Prop where
  board : S.toBoard = T.toBoard
  formula : ∀ text l t, R.rel (S.formula text l t) (T.formula text l t)
  script : ∀ name t, R.rel (S.script name t) (T.script name t)
  testing : ∀ t l {own : m Bool} {own' : n Bool}, R.rel own own' →
    R.rel (S.testing t l own) (T.testing t l own')

namespace Setting.Alike

variable {m n : Type → Type} [Monad m] [Monad n] {R : Simulation m n} {S : Setting m} {T : Setting n}

/-- **Related settings answer alike.**  Every filter has related verdicts in them. -/
theorem ask (h : S.Alike R T) : ∀ {s : Subject} (f : Filter s) (x : s.Candidate), R.rel (f.ask S x) (f.ask T x)
  | _, .pass, _ => R.rel_pure _
  | _, .both f g, x => by
    refine R.rel_bind (ask h f x) fun b => ?_
    cases b with
    | false => exact R.rel_pure _
    | true => exact ask h g x
  | _, .joined _ f g, x => R.rel_bind (ask h f x) fun _ => R.rel_bind (ask h g x) fun _ => R.rel_pure _
  | _, .troopTest _, (t, l) => by simp only [Filter.ask, h.board]; exact R.rel_pure _
  | _, .sideTest _, _ => by simp only [Filter.ask, h.board]; exact R.rel_pure _
  | _, .placeTest _, _ => by simp only [Filter.ask, h.board]; exact R.rel_pure _
  | _, .formula text, (t, l) => h.formula text l t
  | _, .script name, (t, _) => h.script name t
  | _, .bound own, (t, l) => h.testing t l (ask h own (t, l))
  | _, .standing f, (_, l) => ask h f l
  | _, .ofSide f, (t, _) => ask h f t.side
  | _, .adjacent _ f, (_, _) => by
    simp only [Filter.ask, h.board]
    exact R.rel_bind (R.select (fun n => ask h f (n, n.location)) _) fun _ => R.rel_pure _
  | _, .teamed f, side => by
    simp only [Filter.ask, h.board]
    split
    · exact ask h f side
    · exact R.rel_pure _
  | _, .enemyOf f, _ => by
    simp only [Filter.ask, h.board]
    exact R.rel_bind (R.select (ask h f) _) fun _ => R.rel_pure _
  | _, .alliedWith f, _ => by
    simp only [Filter.ask, h.board]
    exact R.rel_bind (R.select (ask h f) _) fun _ => R.rel_pure _
  | _, .hasTroop f, _ => by
    simp only [Filter.ask, h.board]
    exact R.rel_bind (R.first? (fun t => ask h f (t, t.location)) _) fun _ => R.rel_pure _
  | _, .onMap f, l => by
    simp only [Filter.ask, h.board]
    split
    · exact ask h f l
    · exact R.rel_pure _
  | _, .occupied f, l => by
    simp only [Filter.ask, h.board]
    split
    · exact ask h f _
    · exact R.rel_pure _

/-- **Related settings select alike.** -/
theorem sidesIn (h : S.Alike R T) (f : Filter .side) : R.rel (f.sidesIn S) (f.sidesIn T) := by
  simp only [Filter.sidesIn, h.board]
  exact R.rel_bind (R.select (h.ask f) _) fun _ => R.rel_pure _

/-- Related settings make related clauses. -/
theorem ofPart (h : S.Alike R T) (get : String → Value) :
    ∀ {s inner : Subject} (p : Part s inner) (f : Filter inner),
      R.rel (Clause.ofPart S get p f) (Clause.ofPart T get p f)
  | _, _, .vision, f => R.rel_bind (h.sidesIn f) fun _ => R.rel_pure _
  | _, _, .conditional _, _ => R.rel_pure _
  | _, _, .location, _ => R.rel_pure _
  | _, _, .side, _ => R.rel_pure _
  | _, _, .adjacent, _ => R.rel_pure _
  | _, _, .enemyOf, _ => R.rel_pure _
  | _, _, .alliedWith, _ => R.rel_pure _
  | _, _, .hasTroop, _ => R.rel_pure _
  | _, _, .occupant, _ => R.rel_pure _

mutual

/-- **Related settings compile alike.**  Every query has related outcomes in them. -/
theorem compileIn [LawfulMonad m] [LawfulMonad n] (h : S.Alike R T) (flat : Bool) (s : Subject) :
    ∀ q : Config, (R.exceptT FilterError).rel (Query.compileIn S flat s q) (Query.compileIn T flat s q)
  | .node as cs => by
    simp only [Query.compileIn]
    split
    · exact (R.exceptT _).rel_pure _
    · exact (R.exceptT _).rel_bind (compileChildren h flat s [] cs) fun _ => (R.exceptT _).rel_pure _

/-- **Related settings** compile children to related clauses. -/
theorem compileChildren [LawfulMonad m] [LawfulMonad n] (h : S.Alike R T) (flat : Bool) (s : Subject)
    (seen : List Slot) :
    ∀ cs : List (String × Config), (R.exceptT FilterError).rel (Query.compileChildren S flat s seen cs)
      (Query.compileChildren T flat s seen cs)
  | [] => (R.exceptT _).rel_pure _
  | (tag, child) :: rest => by
    simp only [Query.compileChildren]
    split
    · exact compileChildren h flat s seen rest
    · exact (R.exceptT _).rel_bind (compileChildren h flat s seen rest) fun _ => (R.exceptT _).rel_pure _
    · next inner p _ =>
      refine (R.exceptT _).rel_bind (Simulation.exceptT_ofExcept _) fun seen' => ?_
      refine (R.exceptT _).rel_bind (compileIn h flat inner child) fun f => ?_
      refine (R.exceptT _).rel_bind (Simulation.exceptT_lift (h.ofPart child.get p f)) fun _ => ?_
      exact (R.exceptT _).rel_bind (compileChildren h flat s seen' rest) fun _ => (R.exceptT _).rel_pure _

end

end Setting.Alike
end Muster
