/-
# Conditionals are all asked

Asking the children of a query and joining their verdicts are two things: each child is
asked once, in document order, whatever the verdicts are (`Conditional.foldChildren_eq`),
and a record of who is asked names them all (`Conditional.run_foldChildren_recording`).

The verdicts are joined from left to right, without precedence, and still there is a closed
form.  The base and every child tagged `or` are *starting points*.  The result is true
exactly if some starting point is and nothing behind it objects: every later child tagged
`and` is true and every later one tagged `not` is false (`Conditional.joinAll_eq_true_iff`).

In the filter of a query the conditionals come after its own tests (`Query.ask_assemble`),
for a candidate that the board knows; about any other candidate nothing is asked.
-/

import Mathlib.Control.Monad.Writer
import Muster.Proofs.Filter.Composition

namespace Muster

section

variable {m : Type → Type} [Monad m] [LawfulMonad m]

/-- Keeping a log obeys the laws of a monad. -/
instance lawfulMonad_writerT {ω : Type} : LawfulMonad (WriterT (List ω) m) :=
  .mk' _ (fun _ => by ext; simp) (fun _ _ => by ext; simp) (fun _ _ _ => by ext; simp)
    (fun _ _ => rfl) (fun _ _ => rfl) (fun _ _ => rfl) (fun _ _ => by ext; simp)

namespace Conditional

/-! ### Who is asked -/

variable {α : Type}

/-- Ask, and record who is asked. -/
def recording (ask : α → m Bool) (a : α) : WriterT (List α) m Bool :=
  WriterT.mk ((fun verdict => (verdict, [a])) <$> ask a)

variable (ask : α → m Bool) (base : Bool) (children : List (Conditional × α))

/-- **The children are asked in order,** and their verdicts joined.  The base and the verdicts
have no say in who is asked. -/
theorem foldChildren_eq :
    foldChildren ask base children =
      (fun verdicts => joinAll base ((children.map Prod.fst).zip verdicts)) <$> (children.map Prod.snd).mapM ask := by
  induction children generalizing base with
  | nil => simp [foldChildren, joinAll]
  | cons e rest ih =>
    obtain ⟨c, child⟩ := e
    simp only [foldChildren, ih, List.map_cons, List.mapM_cons, map_eq_pure_bind, bind_assoc, pure_bind]
    rfl

/-- **The record of who is asked** names every child once, in order. -/
theorem run_foldChildren_recording :
    (foldChildren (recording ask) base children).run =
      (fun verdict => (verdict, children.map Prod.snd)) <$> foldChildren ask base children := by
  induction children generalizing base with
  | nil =>
    rw [foldChildren, foldChildren, map_pure]
    rfl
  | cons e rest ih =>
    obtain ⟨c, child⟩ := e
    simp only [foldChildren, recording, WriterT.run_bind, WriterT.run_mk, ih, map_bind, bind_map_left, Functor.map_map]
    rfl

/-! ### The closed form -/

/-- No verdict objects: those tagged `and` are true, and those tagged `not` are false. -/
def NoneObjects (verdicts : List (Conditional × Bool)) : Prop :=
  ∀ e ∈ verdicts, (e.1 = .and → e.2 = true) ∧ (e.1 = .not → e.2 = false)

/-- Some verdict tagged `or` is true, and none behind it objects. -/
def SomeStarts (verdicts : List (Conditional × Bool)) : Prop :=
  ∃ before after, verdicts = before ++ (.or, true) :: after ∧ NoneObjects after

/-- A child objects if it is tagged `and` and false, or `not` and true. -/
theorem noneObjects_cons {c : Conditional} {v : Bool} {verdicts : List (Conditional × Bool)} :
    NoneObjects ((c, v) :: verdicts) ↔ ((c = .and → v = true) ∧ (c = .not → v = false)) ∧ NoneObjects verdicts :=
  List.forall_mem_cons

/-- A child starts anew if it is tagged `or` and true, and nothing behind it objects. -/
theorem someStarts_cons {c : Conditional} {v : Bool} {verdicts : List (Conditional × Bool)} :
    SomeStarts ((c, v) :: verdicts) ↔ (c = .or ∧ v = true ∧ NoneObjects verdicts) ∨ SomeStarts verdicts := by
  constructor
  · rintro ⟨before, after, h, hafter⟩
    cases before with
    | nil =>
      obtain ⟨he, rfl⟩ := List.cons.inj h
      obtain ⟨rfl, rfl⟩ := Prod.mk.inj he
      exact .inl ⟨rfl, rfl, hafter⟩
    | cons e before => exact .inr ⟨before, after, (List.cons.inj h).2, hafter⟩
  · rintro (⟨rfl, rfl, hafter⟩ | ⟨before, after, rfl, hafter⟩)
    · exact ⟨[], verdicts, rfl, hafter⟩
    · exact ⟨(c, v) :: before, after, rfl, hafter⟩

/-- **The closed form of joining.**  The base counts as a verdict tagged `or` in front of the others. -/
theorem joinAll_eq_true_iff (base : Bool) (verdicts : List (Conditional × Bool)) :
    joinAll base verdicts = true ↔ SomeStarts ((.or, base) :: verdicts) := by
  induction verdicts generalizing base with
  | nil =>
    have hnone : ¬ SomeStarts [] := fun ⟨before, _, h, _⟩ => by simp at h
    simp [joinAll, someStarts_cons, hnone, NoneObjects]
  | cons e verdicts ih =>
    obtain ⟨c, v⟩ := e
    change joinAll (c.join base v) verdicts = true ↔ _
    rw [ih, someStarts_cons, someStarts_cons, someStarts_cons, noneObjects_cons]
    cases c <;> cases base <;> cases v <;> simp [join]

end Conditional

/-! ### In the filter of a query -/

variable (S : Setting m) {s : Subject} (x : s.Candidate)

/-- The conditionals of a filter are asked after the rest, one after the other. -/
theorem Clause.ask_joinConditionals (f : Filter s) (cs : List (Clause s)) :
    (joinConditionals f cs).ask S x =
      f.ask S x >>= fun base => Conditional.foldChildren (fun g : Filter s => g.ask S x) base (conditionals cs) := by
  induction cs generalizing f with
  | nil => exact (bind_pure _).symm
  | cons c cs ih =>
    cases c with
    | conditional c g =>
      refine (ih (.joined c f g)).trans ?_
      simp only [Filter.ask, bind_assoc, pure_bind]
      rfl
    | own slot g => exact ih f

/-- **A known candidate** is put to the own tests, and then to every conditional. -/
theorem Query.ask_assemble (flat : Bool) (get : String → Value) (cs : List (Clause s)) (h : S.knows s x = true) :
    (assemble flat get s cs).ask S x =
      (guardOwn s (.all (ownTests flat get s cs))).ask S x >>= fun own =>
        Conditional.foldChildren (fun g : Filter s => g.ask S x) own (Clause.conditionals cs) := by
  rw [assemble, ← Clause.ask_joinConditionals]
  cases s with
  | troop => rfl
  | side => exact if_pos h
  | place => exact if_pos h

omit [LawfulMonad m] in
/-- **About an unknown candidate** nothing is asked. -/
theorem Query.ask_assemble_of_not_knows (flat : Bool) (get : String → Value) (cs : List (Clause s))
    (h : S.knows s x = false) : (assemble flat get s cs).ask S x = pure false := by
  cases s with
  | troop => cases h
  | side => exact if_neg (Bool.eq_false_iff.1 h)
  | place => exact if_neg (Bool.eq_false_iff.1 h)

end

end Muster
