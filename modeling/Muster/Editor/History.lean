/-
# Undo and redo

A history is a draft with two stacks of edits: those that undo what was done, and
those that redo what was undone.  Undoing and redoing move between the stacks;
doing something new forgets what could be redone.
-/

import Muster.Editor.Edit

namespace Muster

/-- A draft and how to go back and forth. -/
structure History where
  draft : Draft
  undos : List Edit := []
  redos : List Edit := []

namespace History

/-- Perform a new edit; the answer is its inverse, if it has one. -/
def perform (h : History) (e : Edit) : Option Edit × History :=
  let (inverse, draft) := e.perform h.draft
  (inverse, ⟨draft, inverse.toList ++ h.undos, []⟩)

/-- Take back the last edit, if there is one. -/
def undo (h : History) : Option Edit × History :=
  match h.undos with
  | [] => (none, h)
  | e :: undos =>
    let (inverse, draft) := e.perform h.draft
    (inverse, ⟨draft, undos, inverse.toList ++ h.redos⟩)

/-- Perform again the last edit taken back, if there is one. -/
def redo (h : History) : Option Edit × History :=
  match h.redos with
  | [] => (none, h)
  | e :: redos =>
    let (inverse, draft) := e.perform h.draft
    (inverse, ⟨draft, inverse.toList ++ h.undos, redos⟩)

end History
end Muster
