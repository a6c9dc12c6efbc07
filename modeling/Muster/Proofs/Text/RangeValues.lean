/-
# The integers of a range list

The intervals of a range list may overlap, lie in one another or touch, and come in any order.
`RangeSet.values` lists their integers in three steps:

| step | `3-4,1,5-4` |
| --- | --- |
| the intervals one after the other | 3, 4, 1, 4, 5 |
| sorted | 1, 3, 4, 4, 5 |
| repetitions erased | 1, 3, 4, 5 |

No step loses a member of an interval or adds anything (`mem_values_iff`).  Erasing takes out
neighbours only, but in a sorted list equal integers are neighbours, so what remains ascends
strictly (`pairwise_eraseReps`).  A list with both properties is determined by its members, and
so two range lists hold the same integers exactly if they list the same values
(`values_eq_iff`).
-/

import Mathlib.Data.List.Sort
import Muster.Range

namespace Muster
namespace RangeSet

/-! ### Erasing repetitions -/

section

variable {n m : Int} {ns : List Int}

/-- What has been found already stays in front. -/
theorem eraseReps_loop (n : Int) (ns found : List Int) : List.eraseRepsBy.loop (· == ·) n ns found =
    found.reverse ++ List.eraseRepsBy.loop (· == ·) n ns [] := by
  induction ns generalizing n found with
  | nil => simp [List.eraseRepsBy.loop]
  | cons m ns ih =>
    simp only [List.eraseRepsBy.loop]
    split
    · exact ih n found
    · rw [ih m (n :: found), ih m [n], List.reverse_cons, List.append_assoc]
      rfl

/-- **Of two neighbours** the first is left out if they are equal. -/
theorem eraseReps_cons_cons : (n :: m :: ns).eraseReps =
    if n = m then (m :: ns).eraseReps else n :: (m :: ns).eraseReps := by
  simp only [List.eraseReps, List.eraseRepsBy, List.eraseRepsBy.loop]
  split
  · next heq =>
    obtain rfl := eq_of_beq heq
    rw [if_pos rfl]
  · next hne =>
    rw [if_neg (ne_of_beq_false hne), eraseReps_loop m ns [n]]
    rfl

/-- **Erasing repetitions keeps the members.** -/
theorem mem_eraseReps {k : Int} : k ∈ ns.eraseReps ↔ k ∈ ns := by
  induction ns with
  | nil => rfl
  | cons n ns ih =>
    cases ns with
    | nil => rfl
    | cons m ns =>
      rw [eraseReps_cons_cons]
      split
      · next heq =>
        have hfirst : k = n → k ∈ m :: ns := fun h => (h.trans heq) ▸ List.mem_cons_self ..
        exact ih.trans ((or_iff_right_of_imp hfirst).symm.trans List.mem_cons.symm)
      · exact List.mem_cons.trans ((or_congr_right ih).trans List.mem_cons.symm)

/-- **A sorted list without repetitions** ascends strictly. -/
theorem pairwise_eraseReps (h : ns.Pairwise (· ≤ ·)) : ns.eraseReps.Pairwise (· < ·) := by
  induction ns with
  | nil => exact .nil
  | cons n ns ih =>
    obtain ⟨hn, hns⟩ := List.pairwise_cons.1 h
    cases ns with
    | nil => exact List.pairwise_singleton ..
    | cons m ns =>
      rw [eraseReps_cons_cons]
      split
      · exact ih hns
      · next hne =>
        -- the next integer is greater, and no later one is less than that
        have hlt : n < m := lt_of_le_of_ne (hn m (List.mem_cons_self ..)) hne
        refine List.pairwise_cons.2 ⟨fun k hk => ?_, ih hns⟩
        rcases List.mem_cons.1 (mem_eraseReps.1 hk) with rfl | hk
        · exact hlt
        · exact Int.lt_of_lt_of_le hlt ((List.pairwise_cons.1 hns).1 k hk)

end

/-! ### Listed values -/

/-- **The values of a range list ascend strictly.** -/
theorem pairwise_values (r : RangeSet) : r.values.Pairwise (· < ·) :=
  pairwise_eraseReps (List.pairwise_mergeSort' (· ≤ ·) _)

/-- **The values of a range list are its members.** -/
theorem mem_values_iff {r : RangeSet} {n : Int} : n ∈ r.values ↔ r.contains n = true := by
  rw [values, mem_eraseReps, List.mem_mergeSort, List.mem_flatMap, contains, List.any_eq_true]
  exact exists_congr fun _ => and_congr_right fun _ => Interval.mem_values

/-- **Range lists with the same members** list the same values. -/
theorem values_eq_iff {r r' : RangeSet} : r.values = r'.values ↔ ∀ n, r.contains n = r'.contains n := by
  constructor
  · intro h n
    rw [Bool.eq_iff_iff, ← mem_values_iff, ← mem_values_iff, h]
  · intro h
    refine r.pairwise_values.eq_of_mem_iff r'.pairwise_values fun n => ?_
    rw [mem_values_iff, mem_values_iff, h]

/-- **The listed values of a range list are exactly its members.**  Whatever text a range list is
read from, its values ascend strictly, and an integer is among them if and only if the list
holds it.  So the values do not depend on how the intervals are written: two texts list the same
values exactly if they hold the same integers. -/
theorem listed_values (s : String) :
    (parse s).values.Pairwise (· < ·) ∧ (∀ n, n ∈ (parse s).values ↔ (parse s).contains n = true) ∧
      ∀ t, (parse t).values = (parse s).values ↔ ∀ n, (parse t).contains n = (parse s).contains n :=
  ⟨(parse s).pairwise_values, fun _ => mem_values_iff, fun _ => values_eq_iff⟩

/-- Overlapping intervals, one of them written backwards. -/
example : (parse "3-4,1,5-4").values = [1, 3, 4, 5] := by cbv

end RangeSet
end Muster
