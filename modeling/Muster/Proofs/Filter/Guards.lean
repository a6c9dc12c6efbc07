/-
# Guards given up in any order

Giving a guard up removes the innermost binding, whichever guard made it.  After two troops
are bound in turn, the outer one first:

| given up | binding left | guard held |
| --- | --- | --- |
| the inner guard | the outer one | the outer one |
| the outer guard | the outer one | the inner one |

So in any order there are as many bindings as guards, on top of those from before
(`Keeps.run`), but only where the latest guard goes first are they the bindings that the
guards held have made (`bindings_of_nested`).
-/

import Mathlib.Data.List.Basic
import Muster.Scope

namespace Muster
namespace GuardedScope

/-- A troop is bound, or a guard is given up. -/
inductive Step where
  | bind (b : Binding)
  | drop (guard : Nat)

/-- The binding that a step makes. -/
def Step.binding? : Step → Option Binding
  | bind b => some b
  | drop _ => none

/-- The scope after a step. -/
def step (g : GuardedScope) : Step → GuardedScope
  | .bind b => g.bind b
  | .drop guard => g.drop guard

/-- The scope after several steps. -/
def run (g : GuardedScope) (steps : List Step) : GuardedScope := steps.foldl step g

/-- A scope whose bindings have been made elsewhere. -/
def ofScope (s : Scope) : GuardedScope := { scope := s }

/-- A scope and its guards after several steps. -/
def after (s : Scope) (steps : List Step) : GuardedScope := (ofScope s).run steps

/-- The bindings that some steps make, in order: that of each guard at its number. -/
def bound (steps : List Step) : List Binding := steps.filterMap Step.binding?

/-- The bindings that the guards held have made, the latest first. -/
def heldBindings (g : GuardedScope) (bs : List Binding) : List Binding := g.held.filterMap fun guard => bs[guard]?

/-- A guard is the latest of those held. -/
def IsLatest (g : GuardedScope) (guard : Nat) : Prop := guard ∈ g.held ∧ ∀ other ∈ g.held, other ≤ guard

/-- Whether a guard is the latest can be seen from the guards held. -/
instance (g : GuardedScope) (guard : Nat) : Decidable (g.IsLatest guard) :=
  inferInstanceAs (Decidable (_ ∧ _))

/-- Only the latest guard held is ever given up. -/
def Nested : GuardedScope → List Step → Prop
  | _, [] => True
  | g, .bind b :: steps => Nested (g.bind b) steps
  | g, .drop guard :: steps => g.IsLatest guard ∧ Nested (g.drop guard) steps

/-- Whether guards are given up latest first can be seen by following the steps. -/
instance decidableNested : (g : GuardedScope) → (steps : List Step) → Decidable (Nested g steps)
  | _, [] => inferInstanceAs (Decidable True)
  | g, .bind b :: steps => decidableNested (g.bind b) steps
  | g, .drop guard :: steps =>
    have := decidableNested (g.drop guard) steps
    inferInstanceAs (Decidable (_ ∧ _))

/-- What a scope with guards keeps, on top of the bindings from before, when the bindings `bs`
have been made since. -/
structure Keeps (s : Scope) (bs : List Binding) (g : GuardedScope) : Prop where
  made : g.made = bs.length
  /-- The guards held are listed from the latest to the first. -/
  latestFirst : g.held.Pairwise (· > ·)
  isMade : ∀ guard ∈ g.held, guard < g.made
  bindings : ∃ above, g.scope.bindings = above ++ s.bindings ∧ above.reverse.Sublist bs ∧ above.length = g.held.length

variable {s : Scope} {bs : List Binding} {g : GuardedScope}

/-! ### Any order -/

/-- A guard holds if it is among those held. -/
theorem holds_iff {guard : Nat} : g.holds guard = true ↔ guard ∈ g.held := List.contains_iff_mem

/-- The bindings made by some steps, the first of them first. -/
theorem bound_cons (m : Step) (steps : List Step) : bound (m :: steps) = m.binding?.toList ++ bound steps := by
  cases m <;> rfl

/-- In the beginning nothing has been bound on top of the scope. -/
theorem keeps_ofScope (s : Scope) : Keeps s [] (ofScope s) where
  made := rfl
  latestFirst := .nil
  isMade _ h := absurd h List.not_mem_nil
  bindings := ⟨[], rfl, .slnil, rfl⟩

namespace Keeps

/-- **A binding** has a guard of its own. -/
theorem bind (h : Keeps s bs g) (b : Binding) : Keeps s (bs ++ [b]) (g.bind b) where
  made := by rw [List.length_append, ← h.made]; rfl
  latestFirst := List.pairwise_cons.2 ⟨h.isMade, h.latestFirst⟩
  isMade guard hguard := by
    rcases List.mem_cons.1 hguard with rfl | hguard
    · exact Nat.lt_succ_self _
    · exact Nat.lt_succ_of_lt (h.isMade guard hguard)
  bindings := by
    obtain ⟨above, hbindings, hsublist, hlength⟩ := h.bindings
    refine ⟨b :: above, congrArg (b :: ·) hbindings, ?_, congrArg (· + 1) hlength⟩
    rw [List.reverse_cons]
    exact hsublist.append (.refl _)

/-- **A guard given up** takes one binding away, which is none of those from before. -/
theorem drop (h : Keeps s bs g) (guard : Nat) : Keeps s bs (g.drop guard) := by
  rw [GuardedScope.drop]
  split
  · next hheld =>
    have hmem := holds_iff.1 hheld
    refine ⟨h.made, h.latestFirst.sublist List.erase_sublist, fun k hk => h.isMade k (List.mem_of_mem_erase hk), ?_⟩
    obtain ⟨above, hbindings, hsublist, hlength⟩ := h.bindings
    have hlast : (g.held.erase guard).length = g.held.length - 1 := List.length_erase_of_mem hmem
    cases above with
    | nil =>
      rw [List.length_nil] at hlength
      exact absurd hmem (List.eq_nil_of_length_eq_zero hlength.symm ▸ List.not_mem_nil)
    | cons b above =>
      refine ⟨above, congrArg List.tail hbindings, ?_, ?_⟩
      · rw [List.reverse_cons] at hsublist
        exact (List.sublist_append_left _ _).trans hsublist
      · rw [hlast, ← hlength, List.length_cons, Nat.add_sub_cancel]
  · exact h

/-- **A step keeps the invariant,** with one binding more if it makes one. -/
theorem step (h : Keeps s bs g) (m : Step) : Keeps s (bs ++ m.binding?.toList) (g.step m) := by
  cases m with
  | bind b => exact h.bind b
  | drop guard =>
    rw [Step.binding?, Option.toList_none, List.append_nil]
    exact h.drop guard

/-- **What a run of steps keeps,** in whatever order guards are given up. -/
theorem run (h : Keeps s bs g) (steps : List Step) : Keeps s (bs ++ bound steps) (g.run steps) := by
  induction steps generalizing bs g with
  | nil => rwa [bound, List.filterMap_nil, List.append_nil]
  | cons m steps ih =>
    rw [bound_cons, ← List.append_assoc]
    exact ih (h.step m)

end Keeps

/-! ### The latest first -/

/-- The latest guard is the head of the list. -/
theorem IsLatest.exists_held (h : Keeps s bs g) {guard : Nat} (hlatest : g.IsLatest guard) :
    ∃ rest, g.held = guard :: rest := by
  obtain ⟨hmem, hgreatest⟩ := hlatest
  have horder := h.latestFirst
  cases hheld : g.held with
  | nil => exact absurd (hheld ▸ hmem) List.not_mem_nil
  | cons first rest =>
    rw [hheld] at hmem hgreatest horder
    rcases List.mem_cons.1 hmem with rfl | hmem
    · exact ⟨rest, rfl⟩
    · have hless := (List.pairwise_cons.1 horder).1 guard hmem
      exact absurd (hgreatest first (List.mem_cons_self ..)) (Nat.not_le_of_lt hless)

/-- A new guard holds its own binding, in front of the others. -/
theorem heldBindings_bind (h : Keeps s bs g) (b : Binding) :
    (g.bind b).heldBindings (bs ++ [b]) = b :: g.heldBindings bs := by
  have hnew : (bs ++ [b])[g.made]? = some b := by rw [h.made, List.getElem?_concat_length]
  have hold : ∀ guard ∈ g.held, (bs ++ [b])[guard]? = bs[guard]? := fun guard hguard =>
    List.getElem?_append_left (h.made ▸ h.isMade guard hguard)
  have hheld : (g.bind b).held = g.made :: g.held := rfl
  rw [heldBindings, hheld, List.filterMap_cons_some hnew, List.filterMap_congr hold, heldBindings]

/-- **The latest guard takes its own binding with it,** so the others still hold theirs. -/
theorem bindings_drop (h : Keeps s bs g) {guard : Nat} (hlatest : g.IsLatest guard)
    (hg : g.scope.bindings = g.heldBindings bs ++ s.bindings) :
    (g.drop guard).scope.bindings = (g.drop guard).heldBindings bs ++ s.bindings := by
  obtain ⟨rest, hheld⟩ := hlatest.exists_held h
  obtain ⟨b, hb⟩ : ∃ b, bs[guard]? = some b := ⟨_, List.getElem?_eq_getElem (h.made ▸ h.isMade guard hlatest.1)⟩
  have hdrop : g.drop guard = ⟨g.scope.pop, g.made, rest⟩ := by
    rw [drop, if_pos (holds_iff.2 hlatest.1), hheld, List.erase_cons_head]
  rw [heldBindings, hheld, List.filterMap_cons_some hb, List.cons_append] at hg
  rw [hdrop]
  exact congrArg List.tail hg

/-- **Where the latest guard goes first,** the bindings are those that the guards held have
made. -/
theorem bindings_of_nested (h : Keeps s bs g) (hg : g.scope.bindings = g.heldBindings bs ++ s.bindings)
    {steps : List Step} (hnested : Nested g steps) :
    (g.run steps).scope.bindings = (g.run steps).heldBindings (bs ++ bound steps) ++ s.bindings := by
  induction steps generalizing bs g with
  | nil => rwa [bound, List.filterMap_nil, List.append_nil]
  | cons m steps ih =>
    cases m with
    | bind b =>
      have hbindings : (g.bind b).scope.bindings = (g.bind b).heldBindings (bs ++ [b]) ++ s.bindings := by
        rw [heldBindings_bind h, List.cons_append, ← hg]
        rfl
      rw [bound_cons, ← List.append_assoc]
      exact ih (h.bind b) hbindings hnested
    | drop guard =>
      obtain ⟨hlatest, hnested⟩ := hnested
      exact ih (h.drop guard) (bindings_drop h hlatest hg) hnested

/-- **Guards may be given up in any order.**  There are always as many bindings as guards held, on
top of those from before, which stay as they are; so a guard that is given up finds a binding to
take away.  Those on top were made by different steps, and lie in the order of these.  Where only
the latest guard held is ever given up, they are the bindings that the guards held have made, in
that order, and an alias means the last of them that has it, or else what it meant before. -/
theorem guards_in_any_order (s : Scope) (steps : List Step) :
    (after s steps).scope.depth = s.depth + (after s steps).held.length ∧
      (∀ guard, (after s steps).holds guard = true → s.depth < (after s steps).scope.depth) ∧
      (∃ above, (after s steps).scope.bindings = above ++ s.bindings ∧ above.reverse.Sublist (bound steps)) ∧
      ((after s steps).held.Pairwise (· > ·) ∧
        ∀ guard ∈ (after s steps).held, guard < (bound steps).length) ∧
      (Nested (ofScope s) steps →
        (after s steps).scope.bindings = (after s steps).heldBindings (bound steps) ++ s.bindings ∧
          ∀ name, (after s steps).scope.current? name =
            (((after s steps).heldBindings (bound steps)).find? fun b => b.alias == name).or (s.current? name)) := by
  have h : Keeps s (bound steps) (after s steps) := (keeps_ofScope s).run steps
  obtain ⟨above, hbindings, hsublist, hlength⟩ := h.bindings
  have hdepth : (after s steps).scope.depth = s.depth + (after s steps).held.length := by
    rw [Scope.depth, hbindings, List.length_append, hlength, Nat.add_comm, Scope.depth]
  refine ⟨hdepth, fun guard hguard => ?_, ⟨above, hbindings, hsublist⟩,
    ⟨h.latestFirst, fun guard hguard => h.made ▸ h.isMade guard hguard⟩, fun hnested => ?_⟩
  · have hheld : 0 < (after s steps).held.length := List.length_pos_of_mem (holds_iff.1 hguard)
    omega
  · have hmade : (after s steps).scope.bindings = (after s steps).heldBindings (bound steps) ++ s.bindings :=
      bindings_of_nested (keeps_ofScope s) rfl hnested
    refine ⟨hmade, fun name => ?_⟩
    rw [Scope.current?, hmade, List.find?_append, Scope.current?]

/-- A scope in which an ally is bound already. -/
def allyScope : Scope := ⟨[⟨"second_unit", "ally", ⟨0, 0⟩⟩]⟩

/-- Two troops are bound in turn, the guard of the inner one is given up, and a third is bound. -/
def patrolSteps : List Step :=
  [.bind ⟨Scope.thisUnit, "scout", ⟨1, 0⟩⟩, .bind ⟨Scope.thisUnit, "guide", ⟨1, 1⟩⟩, .drop 1,
    .bind ⟨"second_unit", "rear", ⟨2, 1⟩⟩]

/-- What `guards_in_any_order` says of `patrolSteps`. -/
theorem guards_in_any_order_patrol :
    Nested (ofScope allyScope) patrolSteps ∧ (after allyScope patrolSteps).holds 2 = true ∧
      allyScope.depth < (after allyScope patrolSteps).scope.depth ∧
      (after allyScope patrolSteps).scope.bindings =
        (after allyScope patrolSteps).heldBindings (bound patrolSteps) ++ allyScope.bindings ∧
      ((after allyScope patrolSteps).heldBindings (bound patrolSteps)).map Binding.id = ["rear", "scout"] := by
  obtain ⟨-, hinside, -, -, hlatest⟩ := guards_in_any_order allyScope patrolSteps
  have hnested : Nested (ofScope allyScope) patrolSteps := by decide
  have hheld : (after allyScope patrolSteps).holds 2 = true := by decide
  exact ⟨hnested, hheld, hinside 2 hheld, (hlatest hnested).1, by decide⟩

/-- Where the outer guard goes first, it takes the inner binding away. -/
example :
    let g := after .empty [.bind ⟨Scope.thisUnit, "scout", ⟨1, 0⟩⟩, .bind ⟨Scope.thisUnit, "guide", ⟨1, 1⟩⟩, .drop 0]
    g.held = [1] ∧ g.scope.bindings.map Binding.id = ["scout"] := by decide

end GuardedScope
end Muster
