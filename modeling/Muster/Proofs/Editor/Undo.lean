/-
# Undoing edits

The inverse that an edit yields is only right because no label of a draft is
empty: a label is restored by placing it, and placing an empty one takes the label
there away.  Every draft that comes about from a map without labels has this
property (`Draft.Reachable.written`), and in such a draft the inverse of an edit
leads back (`Edit.applyAll_inverse`), by induction on the edit: of the edits of a
chain the last is reverted first.  Undoing a whole history, no-op edits
included, then visits the drafts before its edits from the last to the first
(`History.takeBack_performEach`).
-/

import Muster.Editor.History

namespace Muster

/-- No label is empty. -/
def Labels.Written (ls : Labels) : Prop := ∀ l label, ls.get? l = some label → label.text.isEmpty = false

namespace Labels

/-- Taking away leaves nothing at the location and all else as it was. -/
theorem get?_erase (ls : Labels) (l l' : Location) :
    (ls.erase l).get? l' = if l' = l then none else ls.get? l' := by
  rw [Table.get?_erase]
  simp only [Std.LawfulEqOrd.compare_eq_iff_eq]

namespace Written

variable {ls : Labels}

/-- Where there are no labels none is empty. -/
theorem empty : Labels.Written Table.empty := fun _ _ h => nomatch h

/-- Taking a label away leaves no empty one. -/
theorem erase (h : ls.Written) (l : Location) : Labels.Written (ls.erase l) := by
  intro l' label hl'
  rw [get?_erase] at hl'
  split at hl'
  · cases hl'
  · exact h l' label hl'

/-- **Placing leaves no empty label:** an empty one is not placed. -/
theorem place (h : ls.Written) (l : Location) (new : Label) : (ls.place l new).Written := by
  intro l' label hl'
  rw [get?_place] at hl'
  split at hl'
  · split at hl'
    · cases hl'
    · next hnew =>
      obtain rfl := Option.some.inj hl'
      exact (Bool.not_eq_true _).mp hnew
  · exact h l' label hl'

/-- **A label of a map without empty labels is restored by placing it,** whatever
was done at its location in between. -/
theorem place_eq (h : ls.Written) {l : Location} {old : Label} (hold : ls.get? l = some old) {changed : Labels}
    (hchanged : ∀ l', l' ≠ l → changed.get? l' = ls.get? l') : changed.place l old = ls := by
  refine Table.ext_get? fun l' => ?_
  rw [get?_place]
  split
  · next hl =>
    rw [h l old hold, hl, hold]
    rfl
  · next hl => exact hchanged l' hl

end Written

/-- **A location without a label is restored by deleting the label there.** -/
theorem erase_eq {ls : Labels} {l : Location} (hnone : ls.get? l = none) {changed : Labels}
    (hchanged : ∀ l', l' ≠ l → changed.get? l' = ls.get? l') : changed.erase l = ls := by
  refine Table.ext_get? fun l' => ?_
  rw [get?_erase]
  split
  · next hl => rw [hl, hnone]
  · next hl => exact hchanged l' hl

/-- Placing changes nothing elsewhere. -/
theorem get?_place_of_ne {ls : Labels} {l l' : Location} (h : l' ≠ l) (new : Label) :
    (ls.place l new).get? l' = ls.get? l' := by rw [get?_place, if_neg h]

/-- Taking away changes nothing elsewhere. -/
theorem get?_erase_of_ne {ls : Labels} {l l' : Location} (h : l' ≠ l) :
    Table.get? (ls.erase l) l' = ls.get? l' := by rw [get?_erase, if_neg h]

end Labels

namespace Edit

mutual

/-- Performing an edit changes the draft as applying it does. -/
theorem perform_snd : ∀ (e : Edit) (d : Draft), (e.perform d).2 = e.apply d
  | label l new, d => rfl
  | delete l, d => by
    rw [perform, apply]
    split
    · rfl
    · next hnone =>
      have hsame : d.labels.erase l = d.labels := Labels.erase_eq hnone fun _ _ => rfl
      rw [hsame]
  | chain es, d => performAll_snd es d

/-- Performing several edits leaves the draft that applying them does. -/
theorem performAll_snd : ∀ (es : List Edit) (d : Draft), (performAll es d).2 = applyAll es d
  | [], _ => rfl
  | e :: es, d => by
    rw [performAll, applyAll, ← perform_snd e d]
    exact performAll_snd es _

end

mutual

/-- No edit leaves an empty label. -/
theorem written_apply : ∀ (e : Edit) {d : Draft}, d.labels.Written → (e.apply d).labels.Written
  | label l new, _, h => h.place l new
  | delete l, _, h => h.erase l
  | chain es, _, h => written_applyAll es h

/-- No list of edits leaves an empty label. -/
theorem written_applyAll : ∀ (es : List Edit) {d : Draft}, d.labels.Written → (applyAll es d).labels.Written
  | [], _, h => h
  | e :: es, _, h => written_applyAll es (written_apply e h)

end

/-- Edits put together are applied one list after the other. -/
theorem applyAll_append (es fs : List Edit) (d : Draft) : applyAll (es ++ fs) d = applyAll fs (applyAll es d) := by
  induction es generalizing d with
  | nil => rfl
  | cons e es ih => exact ih (e.apply d)

mutual

/-- **The inverse of an edit leads back,** and without one the draft is as it was. -/
theorem applyAll_inverse :
    ∀ (e : Edit) {d : Draft}, d.labels.Written → applyAll (e.perform d).1.toList (e.apply d) = d
  | label l new, d, h => by
    rw [perform, apply, Option.toList_some, applyAll, applyAll]
    cases hold : d.labels.get? l with
    | none =>
      have hback : (d.labels.place l new).erase l = d.labels := Labels.erase_eq hold fun _ hl =>
        Labels.get?_place_of_ne hl new
      rw [apply, hback]
    | some old =>
      have hback : (d.labels.place l new).place l old = d.labels := h.place_eq hold fun _ hl =>
        Labels.get?_place_of_ne hl new
      rw [apply, hback]
  | delete l, d, h => by
    rw [perform, apply]
    cases hold : d.labels.get? l with
    | none =>
      have hsame : d.labels.erase l = d.labels := Labels.erase_eq hold fun _ _ => rfl
      rw [hsame]
      rfl
    | some old =>
      have hback : Labels.place (d.labels.erase l) l old = d.labels := h.place_eq hold fun _ hl =>
        Labels.get?_erase_of_ne hl
      rw [Option.toList_some, applyAll, applyAll, apply, hback]
  | chain es, d, h => applyAll_inverses es h

/-- The inverses of several edits, that of the last one first, lead back. -/
theorem applyAll_inverses :
    ∀ (es : List Edit) {d : Draft}, d.labels.Written → applyAll (performAll es d).1 (applyAll es d) = d
  | [], _, _ => rfl
  | e :: es, d, h => by
    have hrest := applyAll_inverses es (written_apply e h)
    rw [performAll, applyAll, applyAll_append, perform_snd, hrest]
    exact applyAll_inverse e h

end

/-- **The inverse of an edit** leads back. -/
theorem perform_inverse {d : Draft} (h : d.labels.Written) {e u : Edit} (hu : (e.perform d).1 = some u) :
    (u.perform (e.perform d).2).2 = d := by
  have hback := applyAll_inverse e h
  rwa [hu, Option.toList_some, applyAll, applyAll, ← perform_snd e d, ← perform_snd u] at hback

/-- An edit without an inverse has changed nothing. -/
theorem perform_of_no_inverse {d : Draft} (h : d.labels.Written) {e : Edit} (hu : (e.perform d).1 = none) :
    (e.perform d).2 = d := by
  have hback := applyAll_inverse e h
  rwa [hu, Option.toList_none, applyAll, ← perform_snd e d] at hback

end Edit

/-! ### The drafts that come about -/

/-- The drafts that come about from maps without labels. -/
inductive Draft.Reachable : Draft → Prop where
  | new (map : Grid) : Reachable { map }
  | place {d : Draft} (h : Reachable d) (l : Location) (new : Label) :
      Reachable { d with labels := d.labels.place l new }
  | clear {d : Draft} (h : Reachable d) (l : Location) : Reachable { d with labels := d.labels.erase l }
  | paint {d : Draft} (h : Reachable d) {l : Location} {code : String} {map : Grid}
      (hmap : d.map.set? l code = some map) : Reachable { d with map }
  | perform {d : Draft} (h : Reachable d) (e : Edit) : Reachable (e.perform d).2
  | apply {d : Draft} (h : Reachable d) (e : Edit) : Reachable (e.apply d)

/-- **No label of a draft is empty.** -/
theorem Draft.Reachable.written {d : Draft} (h : d.Reachable) : d.labels.Written := by
  induction h with
  | new map => exact .empty
  | place _ l new ih => exact ih.place l new
  | clear _ l ih => exact ih.erase l
  | paint _ _ ih => exact ih
  | perform _ e ih => exact e.perform_snd _ ▸ e.written_apply ih
  | apply _ e ih => exact e.written_apply ih

/-! ### Undoing a history -/

namespace History

/-- The history after several new edits. -/
def performEach : List Edit → History → History
  | [], h => h
  | e :: es, h => performEach es (h.perform e).2

/-- The drafts that several new edits lead away from: of each edit that has an
inverse the draft before it. -/
def departures : List Edit → History → List Draft
  | [], _ => []
  | e :: es, h => (h.perform e).1.toList.map (fun _ => h.draft) ++ departures es (h.perform e).2

/-- Take several edits back: the drafts visited, and the history in the end. -/
def takeBack : Nat → History → List Draft × History
  | 0, h => ([], h)
  | n + 1, h =>
    let h := h.undo.2
    let (visited, last) := takeBack n h
    (h.draft :: visited, last)

/-- Taking back some edits and then more. -/
theorem takeBack_add (m n : Nat) (h : History) :
    takeBack (m + n) h =
      ((takeBack m h).1 ++ (takeBack n (takeBack m h).2).1, (takeBack n (takeBack m h).2).2) := by
  induction m generalizing h with
  | zero => rw [Nat.zero_add]; rfl
  | succ m ih =>
    rw [Nat.succ_add, takeBack, takeBack, ih]
    rfl

/-- Undoing performs the edit on top of the stack, and takes it off. -/
theorem undo_of_undos {h : History} {u : Edit} {us : List Edit} (hu : h.undos = u :: us) :
    h.undo.2.draft = (u.perform h.draft).2 ∧ h.undo.2.undos = us := by
  rw [undo, hu]
  exact ⟨rfl, rfl⟩

/-- **Taking the edits back visits the drafts before them, the last one first.**
In the end the draft is the one before all of them, and so are the edits that can
be undone. -/
theorem takeBack_performEach (es : List Edit) {h : History} (hw : h.draft.labels.Written) :
    let before := departures es h
    let undone := takeBack before.length (performEach es h)
    undone.1 = before.reverse ∧ undone.2.draft = h.draft ∧ undone.2.undos = h.undos := by
  induction es generalizing h with
  | nil => exact ⟨rfl, rfl, rfl⟩
  | cons e es ih =>
    have hdraft : (h.perform e).2.draft = (e.perform h.draft).2 := rfl
    have hundos : (h.perform e).2.undos = (e.perform h.draft).1.toList ++ h.undos := rfl
    have hinverse : (h.perform e).1 = (e.perform h.draft).1 := rfl
    obtain ⟨hvisited, hlast, hleft⟩ := ih (h := (h.perform e).2) (by
      rw [hdraft, e.perform_snd]
      exact e.written_apply hw)
    rw [departures, performEach, hinverse]
    cases hu : (e.perform h.draft).1 with
    | none =>
      rw [hu] at hundos
      exact ⟨hvisited, hlast.trans (Edit.perform_of_no_inverse hw hu), hleft.trans hundos⟩
    | some u =>
      rw [hu] at hundos
      obtain ⟨hback, hrest⟩ := undo_of_undos (hleft.trans hundos)
      rw [hlast, hdraft, Edit.perform_inverse hw hu] at hback
      intro before undone
      have hundone : undone = takeBack ((departures es (h.perform e).2).length + 1) (performEach es (h.perform e).2) :=
        rfl
      rw [hundone, takeBack_add, takeBack, takeBack, hvisited]
      refine ⟨?_, hback, hrest⟩
      rw [hback]
      exact (List.reverse_cons ..).symm

/-- Each edit that changed something has put its inverse on the stack. -/
theorem length_undos_performEach (es : List Edit) (h : History) :
    (performEach es h).undos.length = (departures es h).length + h.undos.length := by
  induction es generalizing h with
  | nil => rw [departures, List.length_nil, Nat.zero_add]; rfl
  | cons e es ih =>
    have hundos : (h.perform e).2.undos = (h.perform e).1.toList ++ h.undos := rfl
    rw [performEach, ih, hundos, departures, List.length_append, List.length_append, List.length_map]
    omega

/-- Performing edits leaves no empty label. -/
theorem written_performEach (es : List Edit) {h : History} (hw : h.draft.labels.Written) :
    (performEach es h).draft.labels.Written := by
  induction es generalizing h with
  | nil => exact hw
  | cons e es ih =>
    refine ih (h := (h.perform e).2) ?_
    change (e.perform h.draft).2.labels.Written
    rw [e.perform_snd]
    exact e.written_apply hw

end History

open History in
/-- **Undo and redo.**  Performed on a draft that comes about from a map without
labels, an edit either yields an inverse, which leads back to exactly that draft,
and whose own inverse, if there is one, leads forth again, or it yields none and
changes nothing.  Whatever edits were performed on the draft, undoing those from
any moment on visits the drafts before them from the last one to the first. -/
theorem Edit.undo_redo {d : Draft} (hd : d.Reachable) :
    (∀ e u : Edit, (e.perform d).1 = some u →
      (u.perform (e.perform d).2).2 = d ∧
      (∀ r, (u.perform (e.perform d).2).1 = some r → (r.perform d).2 = (e.perform d).2) ∧
      ((u.perform (e.perform d).2).1 = none → d = (e.perform d).2)) ∧
    (∀ e : Edit, (e.perform d).1 = none → (e.perform d).2 = d) ∧
    ∀ es fs : List Edit,
      let h := performEach es { draft := d }
      let before := departures fs h
      let undone := takeBack before.length (performEach fs h)
      undone.1 = before.reverse ∧ undone.2.draft = h.draft ∧ undone.2.undos = h.undos ∧
        (performEach fs h).undos.length = before.length + h.undos.length := by
  have hw := hd.written
  refine ⟨fun e u hu => ?_, fun e hu => perform_of_no_inverse hw hu, fun es fs => ?_⟩
  · have hback := perform_inverse hw hu
    have hw' : (e.perform d).2.labels.Written := (hd.perform e).written
    refine ⟨hback, fun r hr => ?_, fun hr => ?_⟩
    · have hforth := perform_inverse hw' hr
      rwa [hback] at hforth
    · rw [← perform_of_no_inverse hw' hr, hback]
  · obtain ⟨hvisited, hlast, hleft⟩ := takeBack_performEach fs (written_performEach es (h := { draft := d }) hw)
    exact ⟨hvisited, hlast, hleft, length_undos_performEach fs _⟩

/-- A draft with one label. -/
def fordDraft : Draft :=
  { map := Grid.filled 4 4 "Gg", labels := Labels.place Table.empty ⟨1, 1⟩ { text := "Ford", team := "north" } }

/-- A chain that writes one hex twice and deletes a label that is not there. -/
def rebuild : Edit :=
  .chain [.label ⟨1, 1⟩ { text := "Bridge" }, .chain [.label ⟨1, 1⟩ {}, .label ⟨2, 2⟩ { text := "Tower" }],
    .delete ⟨3, 3⟩]

open History in
/-- The hypotheses of `Edit.undo_redo` are met by `fordDraft` and `rebuild`, which
does change the draft. -/
theorem Edit.undo_redo_rebuild :
    fordDraft.Reachable ∧ (rebuild.perform fordDraft).2.labels.get? ⟨1, 1⟩ = none ∧
      (∃ u r : Edit, (rebuild.perform fordDraft).1 = some u ∧
        (u.perform (rebuild.perform fordDraft).2).2 = fordDraft ∧
        (u.perform (rebuild.perform fordDraft).2).1 = some r ∧
        (r.perform fordDraft).2 = (rebuild.perform fordDraft).2) ∧
      ((Edit.delete ⟨3, 3⟩).perform fordDraft).2 = fordDraft ∧
      let done := performEach [.delete ⟨3, 3⟩, rebuild, .delete ⟨2, 2⟩] { draft := fordDraft }
      takeBack 2 done = ([(rebuild.perform fordDraft).2, fordDraft], (takeBack 2 done).2) := by
  have hd : fordDraft.Reachable := .place (.new _) ⟨1, 1⟩ { text := "Ford", team := "north" }
  obtain ⟨hback, hnone, hrun⟩ := undo_redo hd
  obtain ⟨hu, hr, -⟩ := hback rebuild _ rfl
  refine ⟨hd, rfl, ⟨_, _, rfl, hu, rfl, hr _ rfl⟩, hnone _ rfl, Prod.ext ?_ rfl⟩
  exact (hrun [] [.delete ⟨3, 3⟩, rebuild, .delete ⟨2, 2⟩]).1

end Muster
