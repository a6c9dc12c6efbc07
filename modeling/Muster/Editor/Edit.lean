/-
# Edits and their inverses

An edit places a label, deletes one, or is a chain of edits that counts as one.
Performing an edit yields the edit that reverts it, if it may have changed
anything:

| edit | inverse |
| --- | --- |
| a label | the label that was there, or its deletion where there was none |
| a deletion | the label that was there, nothing where there was none |
| a chain | the inverses of its edits, from the last to the first |
-/

import Muster.Editor.Label
import Muster.Grid

namespace Muster

/-- A map under construction and its labels. -/
structure Draft where
  map : Grid
  labels : Labels := Table.empty

/-- A change of the labels of a draft. -/
inductive Edit where
  | label (l : Location) (label : Label)
  | delete (l : Location)
  | chain (edits : List Edit)

namespace Edit

instance : Inhabited Edit := ⟨chain []⟩

mutual

/-- The draft after an edit. -/
def apply : Edit → Draft → Draft
  | label l new, d => { d with labels := d.labels.place l new }
  | delete l, d => { d with labels := d.labels.erase l }
  | chain es, d => applyAll es d

/-- The draft after several edits. -/
def applyAll : List Edit → Draft → Draft
  | [], d => d
  | e :: es, d => applyAll es (e.apply d)

end

mutual

/-- Perform an edit: its inverse, if it has one, and the draft after it. -/
def perform : Edit → Draft → Option Edit × Draft
  | label l new, d =>
    let inverse :=
      match d.labels.get? l with
      | some old => label l old
      | none => delete l
    (some inverse, { d with labels := d.labels.place l new })
  | delete l, d =>
    match d.labels.get? l with
    | some old => (some (label l old), { d with labels := d.labels.erase l })
    | none => (none, d)
  | chain es, d =>
    let (inverses, d) := performAll es d
    (some (chain inverses), d)

/-- Perform several edits: their inverses, that of the last one first, and the
draft after them. -/
def performAll : List Edit → Draft → List Edit × Draft
  | [], d => ([], d)
  | e :: es, d =>
    let (inverse, d) := e.perform d
    let (inverses, d) := performAll es d
    (inverses ++ inverse.toList, d)

end

/-- What an edit does, in a few words. -/
def description : Edit → String
  | label l new => "label " ++ new.text ++ " at " ++ l.text
  | delete l => "delete label at " ++ l.text
  | chain [] => "nothing"
  | chain [only] => only.description
  | chain (first :: second :: rest) =>
    first.description ++ " and " ++ String.ofList (Text.Numerals.write ((second :: rest).length : Nat)) ++ " more"

/-- A list of edits with others put in front of it, one after the other. -/
def prependAll (fronts es : List Edit) : List Edit := fronts.foldl (fun es e => e :: es) es

end Edit
end Muster
