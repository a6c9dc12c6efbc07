/-
# Configs

A config is a tree: each node has attributes, kept in key order, and children,
each under a tag, kept in document order.  Queries, stored variables and
snapshots of troops are all configs.

Two configs *agree* when they have the same keys with values of the same printed
form and the same tags with agreeing children in the same order.
-/

import Muster.Scalar
import Muster.Table

namespace Muster

/-- A tree of attributes and tagged children. -/
inductive Config where
  | node (attributes : Table String Scalar) (children : List (String × Config))

namespace Config

mutual

/-- What holds of a config as soon as it holds of its children holds of every config. -/
theorem induct {motive : Config → Prop}
    (node : ∀ as cs, (∀ e ∈ cs, motive e.2) → motive (node as cs)) : ∀ c, motive c
  | .node as cs => node as cs (induct_children node cs)

theorem induct_children {motive : Config → Prop}
    (node : ∀ as cs, (∀ e ∈ cs, motive e.2) → motive (.node as cs)) :
    ∀ cs : List (String × Config), ∀ e ∈ cs, motive e.2
  | [], _, he => absurd he List.not_mem_nil
  | (_, c) :: cs, e, he => by
    rcases List.mem_cons.1 he with rfl | he
    · exact induct node c
    · exact induct_children node cs e he

end

/-- The attributes of the root. -/
def attributes : Config → Table String Scalar
  | node attributes _ => attributes

/-- The tagged children of the root, in document order. -/
def children : Config → List (String × Config)
  | node _ children => children

@[simp] theorem attributes_node (as : Table String Scalar) (cs : List (String × Config)) :
    (node as cs).attributes = as := rfl

@[simp] theorem children_node (as : Table String Scalar) (cs : List (String × Config)) :
    (node as cs).children = cs := rfl

@[simp] theorem node_eta (c : Config) : node c.attributes c.children = c := by cases c; rfl

/-- The config with no attributes and no children. -/
def empty : Config := node Table.empty []

instance : Inhabited Config := ⟨empty⟩

/-- Whether there are neither attributes nor children. -/
def isEmpty (c : Config) : Bool := c.attributes.isEmpty && c.children.isEmpty

/-- The value at a key, blank where there is no attribute. -/
def get (c : Config) (key : String) : Value := c.attributes.get? key

/-- Whether there is an attribute at a key. -/
def has (c : Config) (key : String) : Bool := c.attributes.contains key

/-- The config with a value at a key; a blank value takes the attribute away. -/
def set (c : Config) (key : String) (v : Value) : Config :=
  match v with
  | some a => node (c.attributes.insert key a) c.children
  | none => node (c.attributes.erase key) c.children

/-- The config with one more child at the end. -/
def addChild (c : Config) (tag : String) (child : Config) : Config :=
  node c.attributes (c.children ++ [(tag, child)])

theorem get_set (c : Config) (key : String) (v : Value) (key' : String) :
    (c.set key v).get key' = if key' = key then v else c.get key' := by
  cases v <;> simp [set, get, Table.get?_insert, Table.get?_erase]

@[simp] theorem children_set (c : Config) (key : String) (v : Value) :
    (c.set key v).children = c.children := by cases v <;> rfl

@[simp] theorem get_addChild (c : Config) (tag : String) (child : Config) (key : String) :
    (c.addChild tag child).get key = c.get key := rfl

/-- The config whose only content is one child. -/
def wrap (tag : String) (child : Config) : Config := node Table.empty [(tag, child)]

/-- The config of the given attributes, the last one at a key staying. -/
def ofAttributes (as : List (String × Scalar)) : Config := node (Table.ofList as) []

/-- The children under a tag, in document order. -/
def childrenAt (c : Config) (tag : String) : List Config :=
  c.children.filterMap fun e => if e.1 = tag then some e.2 else none

theorem childrenAt_addChild (c : Config) (tag : String) (child : Config) (tag' : String) :
    (c.addChild tag child).childrenAt tag' =
      c.childrenAt tag' ++ if tag = tag' then [child] else [] := by
  by_cases h : tag = tag' <;> simp [childrenAt, addChild, h]

/-- The first child under a tag. -/
def child? (c : Config) (tag : String) : Option Config := (c.childrenAt tag).head?

/-- Whether two tables have the same keys, with values of the same printed form. -/
def attributesAgree : List (String × Scalar) → List (String × Scalar) → Bool
  | [], [] => true
  | (k, a) :: as, (l, b) :: bs => k == l && a.agrees b && attributesAgree as bs
  | _, _ => false

mutual

/-- Whether two configs agree. -/
def agrees : Config → Config → Bool
  | node as cs, d => attributesAgree as.entries d.attributes.entries && childrenAgree cs d.children

/-- Whether two lists of children have the same tags with agreeing configs. -/
def childrenAgree : List (String × Config) → List (String × Config) → Bool
  | [], ds => ds.isEmpty
  | (_, _) :: _, [] => false
  | (k, c) :: cs, (l, d) :: ds => k == l && c.agrees d && childrenAgree cs ds

end

end Config
end Muster
