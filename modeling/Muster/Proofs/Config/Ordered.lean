/-
# The ordered form of a config

Segments are read one after the other, so a config can be written with its children
in any order: the attributes make the first segment, and each child one more, which
holds nothing but the child, itself in ordered form.

| config | segment |
| --- | --- |
| its attributes `k = a`, … | `{"k": a, …}` |
| a child `c` tagged `t` | `{"t": [c in ordered form]}` |

Nothing is lost on the way, whatever the tags are, but attributes for which JSON has
no number: reading gives the finite part of the config (`ofJson_toOrdered`), and so
the config itself, down to the kinds of its attributes, if and only if there are no
others at any node (`ordered_form_complete`).
-/

import Muster.Proofs.Config.RoundTrip

namespace Muster
namespace Config

/-! ### Segments for children -/

/-- The object of the attributes of a node. -/
def attributesToJson (as : Table String Scalar) : Json := .obj (as.entries.map fun e => (e.1, e.2.toJson))

mutual

/-- Write a config with its children in document order. -/
def toOrdered : Config → Json
  | node as cs => .arr (attributesToJson as :: childSegments cs)

/-- Write each of several children as a segment of its own. -/
def childSegments : List (String × Config) → List Json
  | [] => []
  | (tag, c) :: cs => .obj [(tag, .arr [c.toOrdered])] :: childSegments cs

end

/-! ### What comes back -/

/-- The attributes for which JSON has a value. -/
def finiteAttributes (as : Table String Scalar) : Table String Scalar := as.filter fun e => e.2.isFinite

mutual

/-- The config without the attributes, at any node, for which JSON has no value. -/
def finitePart : Config → Config
  | node as cs => node (finiteAttributes as) (finiteParts cs)

/-- The finite part of each of several children. -/
def finiteParts : List (String × Config) → List (String × Config)
  | [] => []
  | (tag, c) :: cs => (tag, c.finitePart) :: finiteParts cs

end

/-- Attributes in JSON make no children. -/
theorem memberChildren_attributes (as : List (String × Scalar)) :
    memberChildren (as.map fun e => (e.1, e.2.toJson)) = .ok [] := by
  rw [memberChildren_map fun e _ => memberChildren_scalar e.1 e.2]
  simp

/-- Attributes in JSON are read back, but for those that JSON has no number for. -/
theorem scalarMembers_attributes (as : List (String × Scalar)) :
    scalarMembers (as.map fun e => (e.1, e.2.toJson)) = as.filter fun e => e.2.isFinite := by
  induction as with
  | nil => rfl
  | cons e as ih =>
    rw [List.map_cons, List.filter_cons, ← ih, scalarMembers, scalarMembers, List.filterMap_cons, Scalar.ofJson?_toJson]
    cases e.2.isFinite <;> rfl

/-- The segment of a child sets no attribute. -/
theorem scalarMembers_childSegments : ∀ cs : List (String × Config),
    scalarMembers (segmentMembers (childSegments cs)) = []
  | [] => rfl
  | (_, _) :: cs => scalarMembers_childSegments cs

/-- The segments of children give these children, one each and in order. -/
theorem segmentChildren_childSegments {cs : List (String × Config)}
    (h : ∀ e ∈ cs, ofJson e.2.toOrdered = .ok e.2.finitePart) :
    segmentChildren (childSegments cs) = .ok (finiteParts cs) := by
  induction cs with
  | nil => rfl
  | cons e cs ih =>
    obtain ⟨tag, c⟩ := e
    have hc := h (tag, c) (List.mem_cons_self ..)
    have hcs := ih fun e he => h e (List.mem_cons_of_mem _ he)
    have hmember : memberChildren [(tag, .arr [c.toOrdered])] = .ok [(tag, c.finitePart)] := by
      obtain ⟨as, ds⟩ := c
      rw [toOrdered] at hc ⊢
      rw [memberChildren, itemChildren, hc]
      rfl
    rw [childSegments, segmentChildren, hmember, hcs]
    rfl

/-- **Reading the ordered form gives the finite part.** -/
theorem ofJson_toOrdered (c : Config) : ofJson c.toOrdered = .ok c.finitePart := by
  induction c using Config.induct with
  | node as cs ih =>
    have hmembers : segmentMembers (attributesToJson as :: childSegments cs) =
        (as.entries.map fun e => (e.1, e.2.toJson)) ++ segmentMembers (childSegments cs) := List.flatMap_cons
    have hattributes : Table.ofList (scalarMembers (segmentMembers (attributesToJson as :: childSegments cs))) =
        finiteAttributes as := by
      rw [hmembers, scalarMembers_append, scalarMembers_attributes, scalarMembers_childSegments, List.append_nil]
      exact Table.ofList_entries (finiteAttributes as)
    have hchildren : segmentChildren (attributesToJson as :: childSegments cs) = .ok (finiteParts cs) := by
      rw [attributesToJson, segmentChildren, memberChildren_attributes, segmentChildren_childSegments ih]
      rfl
    rw [toOrdered, ofJson, hattributes, hchildren]
    rfl

/-! ### Where nothing is lost -/

/-- JSON has a value for every attribute of the root. -/
def IsFinite (c : Config) : Prop := ∀ e ∈ c.attributes.entries, e.2.isFinite = true

/-- All attributes are kept if JSON has a number for each. -/
theorem finiteAttributes_eq_self_iff {as : Table String Scalar} :
    finiteAttributes as = as ↔ ∀ e ∈ as.entries, e.2.isFinite = true :=
  ⟨fun h => List.filter_eq_self.1 (congrArg Table.entries h), Table.filter_eq_self⟩

/-- Children are kept as they are if each is. -/
theorem finiteParts_eq_self_iff {cs : List (String × Config)} :
    finiteParts cs = cs ↔ ∀ e ∈ cs, e.2.finitePart = e.2 := by
  induction cs with
  | nil => simp [finiteParts]
  | cons e cs ih =>
    rw [finiteParts, List.forall_mem_cons, ← ih, List.cons.injEq, Prod.mk.injEq, eq_self_iff_true, true_and]

/-- **The finite part is the whole** if and only if every node is finite. -/
theorem finitePart_eq_self_iff (c : Config) : c.finitePart = c ↔ c.Everywhere IsFinite := by
  induction c using Config.induct with
  | node as cs ih =>
    have hchildren : finiteParts cs = cs ↔ ∀ e ∈ cs, e.2.Everywhere IsFinite :=
      finiteParts_eq_self_iff.trans (forall₂_congr ih)
    rw [everywhere_node, finitePart, node.injEq, finiteAttributes_eq_self_iff, hchildren]
    rfl

/-- **The ordered form is complete.**  It can always be read, and gives the finite part
of the config: all children, with their tags, in document order at every node, and all
attributes that are no infinity and are a number if they are real.  So it gives the
config itself, the kinds of the attributes included, if and only if every attribute at
every node is of this kind. -/
theorem ordered_form_complete (c : Config) :
    ofJson c.toOrdered = .ok c.finitePart ∧ (ofJson c.toOrdered = .ok c ↔ c.Everywhere IsFinite) := by
  refine ⟨ofJson_toOrdered c, ?_⟩
  rw [ofJson_toOrdered, Except.ok.injEq, finitePart_eq_self_iff]

/-- The ordered form keeps what one object cannot: interleaved tags, and a tag that is a key. -/
example :
    let c := node (Table.ofList [("and", .int 3)]) [("and", empty), ("or", wrap "and" empty), ("and", empty)]
    ofJson c.toOrdered = .ok c := rfl

end Config
end Muster
