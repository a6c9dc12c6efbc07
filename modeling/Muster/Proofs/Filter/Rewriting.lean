/-
# Rewriting filters

A *rewriting* turns filters into filters over the same subject, and goes through what puts
tests and conditionals together (`Filter.Rewriting`).  So it goes through the filter of a
query down to the own tests and the conditionals (`Query.rewrite_assemble`), and where it
leaves the tests of fields alone, it is enough to rewrite the clauses
(`Query.map_rewrite_ownTests`).
-/

import Mathlib.Logic.Function.Basic
import Muster.Proofs.Filter.Origin

namespace Muster

/-- **What is forgotten is not noticed.**  Where two computations give the same but for what
`F` forgets, so do those that go on from there and look at nothing else. -/
theorem bind_eq_of_map_eq {m : Type → Type} [Monad m] [LawfulMonad m] {α β γ : Type} [Inhabited γ] {F : α → β}
    {x y : m α} {f g : α → m γ} (h : F <$> x = F <$> y) (hfg : ∀ a b, F a = F b → f a = g b) : x >>= f = y >>= g := by
  obtain rfl : f = g := funext fun a => hfg a a rfl
  obtain ⟨H, rfl⟩ : ∃ H, f = H ∘ F := (Function.factorsThrough_iff f).1 fun a b hab => hfg a b hab
  calc x >>= (H ∘ F) = (F <$> x) >>= H := (bind_map_left F x H).symm
    _ = y >>= (H ∘ F) := by rw [h, bind_map_left]; rfl

/-- There is a filter over every subject, the one that passes. -/
instance {s : Subject} : Inhabited (Filter s) := ⟨.pass⟩

/-- A function on filters that goes through what puts tests and conditionals together. -/
structure Filter.Rewriting (rewrite : ∀ {s : Subject}, Filter s → Filter s) : Prop where
  pass : ∀ {s : Subject}, rewrite (.pass : Filter s) = .pass
  both : ∀ {s : Subject} (f g : Filter s), rewrite (.both f g) = .both (rewrite f) (rewrite g)
  joined : ∀ {s : Subject} (c : Conditional) (f g : Filter s),
    rewrite (.joined c f g) = .joined c (rewrite f) (rewrite g)
  teamed : ∀ f : Filter .side, rewrite (.teamed f) = .teamed (rewrite f)
  onMap : ∀ f : Filter .place, rewrite (.onMap f) = .onMap (rewrite f)

/-- The clause with its filter rewritten. -/
def Clause.rewrite {s : Subject} (rewrite : Filter s → Filter s) : Clause s → Clause s
  | conditional c f => conditional c (rewrite f)
  | own slot f => own slot (rewrite f)

namespace Clause

variable {s : Subject} (g : Filter s → Filter s)

/-- A slot of rewritten clauses holds the rewritten filters. -/
theorem inSlot_rewrite (slot : Slot) (cs : List (Clause s)) :
    inSlot slot (cs.map (rewrite g)) = (inSlot slot cs).map g := by
  rw [inSlot, inSlot, List.filterMap_map, List.map_filterMap]
  refine congrArg (List.filterMap · cs) (funext fun c => ?_)
  cases c with
  | conditional c f => rfl
  | own slot' f => exact (apply_ite (Option.map g) (slot' = slot) (some f) none).symm

/-- The last filter of a slot is rewritten with the others. -/
theorem lastInSlot_rewrite (slot : Slot) (cs : List (Clause s)) :
    lastInSlot slot (cs.map (rewrite g)) = (lastInSlot slot cs).map g := by
  rw [lastInSlot, lastInSlot, inSlot_rewrite, List.getLast?_map, Option.toList_map]

end Clause

namespace Filter.Rewriting

variable {rewrite : ∀ {s : Subject}, Filter s → Filter s} (h : Rewriting rewrite) {s : Subject}
include h

/-- A conjunction is rewritten part by part. -/
theorem all (fs : List (Filter s)) : rewrite (Filter.all fs) = Filter.all (fs.map rewrite) := by
  induction fs with
  | nil => exact h.pass
  | cons f fs ih => exact (h.both f _).trans (congrArg _ ih)

/-- Conditionals are rewritten where they stand. -/
theorem joinConditionals (f : Filter s) (cs : List (Clause s)) :
    rewrite (Clause.joinConditionals f cs) = Clause.joinConditionals (rewrite f) (cs.map (Clause.rewrite rewrite)) := by
  induction cs generalizing f with
  | nil => rfl
  | cons c cs ih =>
    cases c with
    | conditional c g =>
      refine (ih (.joined c f g)).trans ?_
      rw [h.joined]
      rfl
    | own slot g => exact ih f

/-- **A rewriting goes through the filter of a query** down to its own tests and its conditionals. -/
theorem assemble (flat : Bool) (get : String → Value) (cs : List (Clause s)) :
    rewrite (Query.assemble flat get s cs) =
      Query.guardWhole s (Clause.joinConditionals (rewrite (Query.guardOwn s (.all (Query.ownTests flat get s cs))))
        (cs.map (Clause.rewrite rewrite))) := by
  rw [Query.assemble, ← h.joinConditionals]
  cases s with
  | troop => rfl
  | side => exact h.teamed _
  | place => exact h.onMap _

end Filter.Rewriting

/-- **Where the tests of fields stay,** the own tests are rewritten by rewriting the clauses. -/
theorem Query.map_rewrite_ownTests {s : Subject} {rewrite : Filter s → Filter s} {flat : Bool} {get : String → Value}
    (hfields : ∀ f ∈ ownTests flat get s [], rewrite f = f) (cs : List (Clause s)) :
    (ownTests flat get s cs).map rewrite = ownTests flat get s (cs.map (Clause.rewrite rewrite)) := by
  have hstay : ∀ fs : List (Filter s), (∀ f ∈ fs, rewrite f = f) → fs.map rewrite = fs := fun fs hfs =>
    (List.map_congr_left hfs).trans (List.map_id fs)
  cases s with
  | troop =>
    simp only [ownTests, List.forall_mem_append] at hfields ⊢
    obtain ⟨⟨⟨⟨⟨⟨⟨hidentity, -⟩, -⟩, htraits⟩, -⟩, -⟩, -⟩, hlookups⟩ := hfields
    simp only [List.map_append, Clause.inSlot_rewrite, hstay _ hidentity, hstay _ htraits, hstay _ hlookups]
  | side =>
    simp only [ownTests, List.forall_mem_append] at hfields ⊢
    simp only [List.map_append, Clause.lastInSlot_rewrite, hstay _ hfields.1.1.1]
  | place =>
    simp only [ownTests, List.forall_mem_append] at hfields ⊢
    simp only [List.map_append, Clause.inSlot_rewrite, hstay _ hfields.1]

/-- What a build gives, put through a function. -/
theorem Query.run_map {σ α β : Type} (f : α → β) (x : Build σ α) (start : Session σ) :
    (f <$> x).run.run start = ((x.run.run start).1.map f, (x.run.run start).2) := by
  rw [ExceptT.run_map, StateT.run_map]
  rfl

end Muster
