/-
# The last writing decides

Placing a label and deleting one write at a single location: what stands there
afterwards depends on the last such step alone, and elsewhere nothing happens
(`Labels.WritesAt`).  So after a run of them a location has what the last step at it
leaves, or what it had before where no step names it (`WritesAt.exists_last` and
`WritesAt.get?_of_unnamed`).

Flattened, an edit is a list of such steps, its *leaves*.  Performing the edit and
applying it both come to running the leaves from left to right
(`Edit.run_leaves`).  They are separate recursions, and a deletion where there is no
label is performed by doing nothing.
-/

import Muster.Proofs.Editor.Undo

namespace Muster

/-- The label that stands where a label was placed: none if its text is empty. -/
def Label.standing? (label : Label) : Option Label := if label.text.isEmpty then none else some label

namespace Labels

/-- Steps each of which writes at one location, and does nothing elsewhere. -/
def WritesAt {ι : Type} (run : Labels → ι → Labels) (location : ι → Location) (outcome : ι → Option Label) : Prop :=
  ∀ ls i l, (run ls i).get? l = if l = location i then outcome i else ls.get? l

namespace WritesAt

variable {ι : Type} {run : Labels → ι → Labels} {location : ι → Location} {outcome : ι → Option Label} {l : Location}
  {is : List ι}

/-- **A location that no step names** keeps its label. -/
theorem get?_of_unnamed (h : WritesAt run location outcome) (ls : Labels) (hl : ∀ i ∈ is, location i ≠ l) :
    (is.foldl run ls).get? l = ls.get? l := by
  induction is generalizing ls with
  | nil => rfl
  | cons i is ih =>
    obtain ⟨hi, his⟩ := List.forall_mem_cons.1 hl
    rw [List.foldl_cons, ih (run ls i) his, h, if_neg (Ne.symm hi)]

/-- **The last step at a location decides** what is left there. -/
theorem exists_last (h : WritesAt run location outcome) (ls : Labels) (hl : ∃ i ∈ is, location i = l) :
    ∃ before last after, is = before ++ last :: after ∧ location last = l ∧ (∀ later ∈ after, location later ≠ l) ∧
      (is.foldl run ls).get? l = outcome last := by
  induction is generalizing ls with
  | nil =>
    obtain ⟨_, hi, -⟩ := hl
    exact absurd hi List.not_mem_nil
  | cons i is ih =>
    by_cases hlater : ∃ j ∈ is, location j = l
    · obtain ⟨before, last, after, rfl, hlast, hafter, hleft⟩ := ih (run ls i) hlater
      exact ⟨i :: before, last, after, rfl, hlast, hafter, hleft⟩
    · -- no later step is at the location, so this one is the last
      have hunnamed : ∀ j ∈ is, location j ≠ l := fun j hj heq => hlater ⟨j, hj, heq⟩
      have hi : location i = l := by
        obtain ⟨j, hj, heq⟩ := hl
        rcases List.mem_cons.1 hj with rfl | hj
        · exact heq
        · exact absurd heq (hunnamed j hj)
      refine ⟨[], i, is, rfl, hi, hunnamed, ?_⟩
      rw [List.foldl_cons, h.get?_of_unnamed _ hunnamed, h, if_pos hi.symm]

end WritesAt
end Labels

namespace Edit

/-- An edit that is no chain: the label that it places at a location, or none if it deletes the one there. -/
structure Leaf where
  location : Location
  label? : Option Label

namespace Leaf

/-- The leaf as an edit. -/
def edit : Leaf → Edit
  | ⟨l, some new⟩ => .label l new
  | ⟨l, none⟩ => .delete l

/-- What the leaf leaves at its location. -/
def outcome (leaf : Leaf) : Option Label := leaf.label?.bind Label.standing?

/-- The labels after the leaf. -/
def write (ls : Labels) : Leaf → Labels
  | ⟨l, some new⟩ => ls.place l new
  | ⟨l, none⟩ => ls.erase l

/-- A leaf writes at its location. -/
theorem writesAt : Labels.WritesAt write location outcome := by
  rintro ls ⟨l, label?⟩ l'
  cases label? with
  | none => exact Labels.get?_erase ls l l'
  | some new => exact Labels.get?_place ls l new l'

/-- Applying a leaf changes the labels of a draft and nothing else. -/
theorem apply_edit (leaf : Leaf) (d : Draft) : leaf.edit.apply d = { d with labels := write d.labels leaf } := by
  obtain ⟨l, label?⟩ := leaf
  cases label? <;> rfl

end Leaf

mutual

/-- The leaves of an edit, from left to right. -/
def leaves : Edit → List Leaf
  | label l new => [⟨l, some new⟩]
  | delete l => [⟨l, none⟩]
  | chain es => leavesAll es

/-- The leaves of several edits. -/
def leavesAll : List Edit → List Leaf
  | [] => []
  | e :: es => e.leaves ++ leavesAll es

end

/-- Leaves one after the other write labels only. -/
theorem applyAll_leaves (leaves : List Leaf) (d : Draft) :
    applyAll (leaves.map Leaf.edit) d = { d with labels := leaves.foldl Leaf.write d.labels } := by
  induction leaves generalizing d with
  | nil => rfl
  | cons leaf leaves ih => rw [List.map_cons, applyAll, ih, leaf.apply_edit, List.foldl_cons]

mutual

/-- **Applying an edit** is running its leaves from left to right. -/
theorem run_leaves : ∀ (e : Edit) (d : Draft), applyAll (e.leaves.map Leaf.edit) d = e.apply d
  | label _ _, _ => rfl
  | delete _, _ => rfl
  | chain es, d => run_leavesAll es d

/-- The leaves of several edits, one edit after the other. -/
theorem run_leavesAll : ∀ (es : List Edit) (d : Draft), applyAll ((leavesAll es).map Leaf.edit) d = applyAll es d
  | [], _ => rfl
  | e :: es, d => by
    rw [leavesAll, List.map_append, applyAll_append, run_leaves e d, run_leavesAll es, applyAll]

end

/-- **Applying an edit** is writing its leaves from left to right. -/
theorem apply_eq_leaves (e : Edit) (d : Draft) :
    e.apply d = { d with labels := e.leaves.foldl Leaf.write d.labels } := by
  rw [← run_leaves, applyAll_leaves]

/-- **Performing an edit and applying it agree,** on any draft: both run the leaves of the
edit from left to right.  So the map stays, and so does every label at a location that no leaf
names; at a location that some leaf names, the last of these decides: its label stands there if
it places one whose text is not empty, and no label otherwise. -/
theorem performed_as_applied (e : Edit) (d : Draft) :
    (e.perform d).2 = e.apply d ∧ e.apply d = applyAll (e.leaves.map Leaf.edit) d ∧ (e.apply d).map = d.map ∧
      (∀ l, (∀ leaf ∈ e.leaves, leaf.location ≠ l) → (e.apply d).labels.get? l = d.labels.get? l) ∧
      ∀ l, (∃ leaf ∈ e.leaves, leaf.location = l) → ∃ before last after, e.leaves = before ++ last :: after ∧
        last.location = l ∧ (∀ later ∈ after, later.location ≠ l) ∧ (e.apply d).labels.get? l = last.outcome := by
  refine ⟨e.perform_snd d, (e.run_leaves d).symm, ?_⟩
  rw [apply_eq_leaves]
  exact ⟨rfl, fun _ => Leaf.writesAt.get?_of_unnamed d.labels, fun _ => Leaf.writesAt.exists_last d.labels⟩

/-- What `performed_as_applied` says of `rebuild` on `fordDraft`: of the two leaves at one hex the
last, which places a label without text, takes the label there away. -/
theorem performed_as_applied_rebuild :
    (∃ leaf ∈ rebuild.leaves, leaf.location = ⟨1, 1⟩) ∧ (∀ leaf ∈ rebuild.leaves, leaf.location ≠ ⟨0, 0⟩) ∧
      (rebuild.apply fordDraft).labels.get? ⟨0, 0⟩ = fordDraft.labels.get? ⟨0, 0⟩ ∧
      ∃ before last after, rebuild.leaves = before ++ last :: after ∧ last.location = ⟨1, 1⟩ ∧
        (∀ later ∈ after, later.location ≠ ⟨1, 1⟩) ∧ (rebuild.apply fordDraft).labels.get? ⟨1, 1⟩ = last.outcome ∧
        last.outcome = none := by
  obtain ⟨-, -, -, hunnamed, hnamed⟩ := performed_as_applied rebuild fordDraft
  have hfirst : ∃ leaf ∈ rebuild.leaves, leaf.location = ⟨1, 1⟩ := ⟨_, List.mem_cons_self .., rfl⟩
  have hnone : ∀ leaf ∈ rebuild.leaves, leaf.location ≠ ⟨0, 0⟩ := by decide
  obtain ⟨before, last, after, hsplit, hlocation, hafter, hleft⟩ := hnamed ⟨1, 1⟩ hfirst
  have hgone : (rebuild.apply fordDraft).labels.get? ⟨1, 1⟩ = none := rfl
  exact ⟨hfirst, hnone, hunnamed ⟨0, 0⟩ hnone, before, last, after, hsplit, hlocation, hafter, hleft, hleft ▸ hgone⟩

end Edit
end Muster
