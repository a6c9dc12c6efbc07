/-
# Matching as an order

A pattern asks for attributes, and for each child not tagged `not` it asks for one of the
config's own (`matchesPattern_iff`).  Without `not` it may be thought of as a part of the
config: then matching is reflexive and transitive.

A `not` breaks the order, since what it forbids may be there: the config whose only child is
an empty one tagged `not` does not match itself.

A config *grows* by a new attribute or by one more child, at any of its nodes.  What it had
stays (`Grows.get_eq_some` and `Grows.exists_child`), so it still matches the patterns without
`not` that it matched before.
-/

import Muster.Config.Match
import Muster.Proofs.Config.RoundTrip
import Mathlib.Logic.Relation

namespace Muster
namespace Config

/-- No node of the config has a child tagged `not`. -/
def FreeOfNot (c : Config) : Prop := c.Everywhere fun d => ∀ e ∈ d.children, e.1 ≠ "not"

/-- No child of a pattern without `not` is tagged so, and each is such a pattern itself. -/
theorem FreeOfNot.child {c : Config} (hc : c.FreeOfNot) {tag : String} {d : Config} (hd : (tag, d) ∈ c.children) :
    tag ≠ "not" ∧ d.FreeOfNot := by
  obtain ⟨here, below⟩ := hc
  exact ⟨here _ hd, below _ hd⟩

/-! ### What a pattern asks for -/

/-- A config shows an attribute if it has one at the key that prints the same. -/
theorem showsAttribute_iff {c : Config} {key : String} {a : Scalar} :
    c.showsAttribute key a = true ↔ ∃ b, c.get key = some b ∧ b.text = a.text := by
  simp [showsAttribute, Scalar.agrees, Option.any_eq_true]

/-- Some child under a tag has a property. -/
theorem any_childrenAt_iff {c : Config} {tag : String} {holds : Config → Bool} :
    (c.childrenAt tag).any holds = true ↔ ∃ d, (tag, d) ∈ c.children ∧ holds d = true :=
  List.any_eq_true.trans (exists_congr fun _ => and_congr_left fun _ => mem_valuesAt)

/-- Each child of a pattern asks for itself: for a child of its tag, or against the config. -/
theorem matchesChildren_iff {c : Config} {ps : List (String × Config)} :
    c.matchesChildren ps = true ↔ ∀ tag p, (tag, p) ∈ ps →
      if tag = "not" then c.matchesPattern p = false else ∃ d, (tag, d) ∈ c.children ∧ d.matchesPattern p = true := by
  induction ps with
  | nil => simp [matchesChildren]
  | cons e ps ih =>
    obtain ⟨tag, p⟩ := e
    have hchild : (if tag = "not" then !c.matchesPattern p
          else (c.childrenAt tag).any fun d => d.matchesPattern p) = true ↔
        if tag = "not" then c.matchesPattern p = false
          else ∃ d, (tag, d) ∈ c.children ∧ d.matchesPattern p = true := by
      split
      · rw [Bool.not_eq_true']
      · exact any_childrenAt_iff
    rw [matchesChildren, Bool.and_eq_true, hchild, ih]
    simp only [List.mem_cons, Prod.mk.injEq]
    constructor
    · rintro ⟨hhead, htail⟩ tag' p' (⟨rfl, rfl⟩ | h)
      · exact hhead
      · exact htail _ _ h
    · exact fun h => ⟨h _ _ (.inl ⟨rfl, rfl⟩), fun tag' p' h' => h _ _ (.inr h')⟩

/-- **What a pattern asks for:** its attributes, and for each of its children that it does not
forbid, a child of the same tag that matches it. -/
theorem matchesPattern_iff {c p : Config} :
    c.matchesPattern p = true ↔
      (∀ key a, p.get key = some a → ∃ b, c.get key = some b ∧ b.text = a.text) ∧
        ∀ tag q, (tag, q) ∈ p.children →
          if tag = "not" then c.matchesPattern q = false
          else ∃ d, (tag, d) ∈ c.children ∧ d.matchesPattern q = true := by
  cases p with
  | node as ps =>
    rw [matchesPattern, Bool.and_eq_true, List.all_eq_true, matchesChildren_iff, Prod.forall]
    refine and_congr_left fun _ => forall₂_congr fun key a => ?_
    rw [showsAttribute_iff, ← Table.get?_eq_some_iff]
    rfl

/-! ### The order -/

/-- **A config matches itself.** -/
theorem matchesPattern_self {c : Config} (hc : c.FreeOfNot) : c.matchesPattern c = true := by
  induction c using Config.induct with
  | node as cs ih =>
    refine matchesPattern_iff.2 ⟨fun key a h => ⟨a, h, rfl⟩, fun tag d hd => ?_⟩
    obtain ⟨hnot, hfree⟩ := hc.child hd
    rw [if_neg hnot]
    exact ⟨d, hd, ih (tag, d) hd hfree⟩

/-- **Matching goes through** a config in between, which may forbid children of its own. -/
theorem matchesPattern_trans {a b c : Config} (hc : c.FreeOfNot) (hab : a.matchesPattern b = true)
    (hbc : b.matchesPattern c = true) : a.matchesPattern c = true := by
  induction c using Config.induct generalizing a b with
  | node as cs ih =>
    obtain ⟨hattributes, hchildren⟩ := matchesPattern_iff.1 hab
    obtain ⟨hattributes', hchildren'⟩ := matchesPattern_iff.1 hbc
    refine matchesPattern_iff.2 ⟨fun key v h => ?_, fun tag q hq => ?_⟩
    · obtain ⟨w, hw, hwv⟩ := hattributes' key v h
      obtain ⟨u, hu, huw⟩ := hattributes key w hw
      exact ⟨u, hu, huw.trans hwv⟩
    · obtain ⟨hnot, hfree⟩ := hc.child hq
      have hchild := hchildren' tag q hq
      rw [if_neg hnot] at hchild ⊢
      obtain ⟨d, hd, hdq⟩ := hchild
      have hchild := hchildren tag d hd
      rw [if_neg hnot] at hchild
      obtain ⟨e, he, hed⟩ := hchild
      exact ⟨e, he, ih (tag, q) hq hfree hed hdq⟩

/-! ### Growth -/

/-- A config and the same with one attribute or one child more, at one of its nodes. -/
inductive Grows : Config → Config → Prop where
  | gainAttribute {as : Table String Scalar} {key : String} (hnew : as.get? key = none) (a : Scalar)
      (cs : List (String × Config)) : Grows (node as cs) (node (as.insert key a) cs)
  | gainChild (as : Table String Scalar) (pre : List (String × Config)) (tag : String) (c : Config)
      (post : List (String × Config)) : Grows (node as (pre ++ post)) (node as (pre ++ (tag, c) :: post))
  | within {c d : Config} (h : Grows c d) (as : Table String Scalar) (pre : List (String × Config)) (tag : String)
      (post : List (String × Config)) :
      Grows (node as (pre ++ (tag, c) :: post)) (node as (pre ++ (tag, d) :: post))

variable {c d : Config}

/-- **The attributes stay.** -/
theorem Grows.get_eq_some (h : Grows c d) {key : String} {a : Scalar} (ha : c.get key = some a) :
    d.get key = some a := by
  cases h with
  | @gainAttribute as key' hnew b cs =>
    have hne : key ≠ key' := by
      rintro rfl
      exact Option.some_ne_none a (ha.symm.trans hnew)
    rw [get, attributes_node, Table.get?_insert_of_ne _ hne]
    exact ha
  | gainChild => exact ha
  | within => exact ha

/-- **The children stay,** but that one of them may have grown. -/
theorem Grows.exists_child (h : Grows c d) {tag : String} {e : Config} (he : (tag, e) ∈ c.children) :
    ∃ e', (tag, e') ∈ d.children ∧ (e' = e ∨ Grows e e') := by
  cases h with
  | gainAttribute => exact ⟨e, he, .inl rfl⟩
  | gainChild as pre tag' c' post =>
    refine ⟨e, ?_, .inl rfl⟩
    rw [children_node, List.mem_append] at he ⊢
    exact he.imp_right (List.mem_cons_of_mem _)
  | @within c' d' h as pre tag' post =>
    rw [children_node, List.mem_append, List.mem_cons] at he
    rcases he with he | he | he
    · exact ⟨e, List.mem_append_left _ he, .inl rfl⟩
    · obtain ⟨rfl, rfl⟩ := Prod.mk.inj he
      exact ⟨d', List.mem_append_right _ (List.mem_cons_self ..), .inr h⟩
    · exact ⟨e, List.mem_append_right _ (List.mem_cons_of_mem _ he), .inl rfl⟩

/-- **One step of growth** keeps a match. -/
theorem Grows.matchesPattern {p : Config} (hp : p.FreeOfNot) (h : Grows c d) (hc : c.matchesPattern p = true) :
    d.matchesPattern p = true := by
  induction p using Config.induct generalizing c d with
  | node as ps ih =>
    obtain ⟨hattributes, hchildren⟩ := matchesPattern_iff.1 hc
    refine matchesPattern_iff.2 ⟨fun key a ha => ?_, fun tag q hq => ?_⟩
    · obtain ⟨b, hb, hba⟩ := hattributes key a ha
      exact ⟨b, h.get_eq_some hb, hba⟩
    · obtain ⟨hnot, hfree⟩ := hp.child hq
      have hchild := hchildren tag q hq
      rw [if_neg hnot] at hchild ⊢
      obtain ⟨e, he, heq⟩ := hchild
      obtain ⟨e', he', rfl | hgrows⟩ := h.exists_child he
      · exact ⟨e', he', heq⟩
      · exact ⟨e', he', ih (tag, q) hq hfree hgrows heq⟩

/-- **Growth keeps a match,** however long it goes on. -/
theorem matchesPattern_of_grown {p : Config} (hp : p.FreeOfNot) (h : Relation.ReflTransGen Grows c d)
    (hc : c.matchesPattern p = true) : d.matchesPattern p = true := by
  induction h with
  | refl => exact hc
  | tail _ hstep ih => exact hstep.matchesPattern hp ih

/-- **Matching is an order that growth keeps,** where the patterns are free of `not`.  A config
matches itself; what matches a config also matches the patterns that the config matches; and
what matches a pattern still does so with more attributes and children, wherever they were
added.  The configs that are matched may have children tagged `not`. -/
theorem matching_order :
    (∀ c : Config, c.FreeOfNot → c.matchesPattern c = true) ∧
      (∀ a b c : Config, c.FreeOfNot → a.matchesPattern b = true → b.matchesPattern c = true →
        a.matchesPattern c = true) ∧
      ∀ a b p : Config, p.FreeOfNot → a.matchesPattern p = true → Relation.ReflTransGen Grows a b →
        b.matchesPattern p = true :=
  ⟨fun _ => matchesPattern_self, fun _ _ _ => matchesPattern_trans,
    fun _ _ _ hp ha h => matchesPattern_of_grown hp h ha⟩

/-- A wizard of level 5 with a staff. -/
def wizard : Config :=
  node (Table.ofList [("id", .str "Delfador"), ("level", .int 5)]) [("attack", ofAttributes [("name", .str "staff")])]

/-- The wizard when the staff has got its damage. -/
def wizardWithDamage : Config :=
  node wizard.attributes [("attack", ofAttributes [("name", .str "staff"), ("damage", .int 10)])]

/-- A pattern of what has a staff and the level that prints as `5`. -/
def hasStaff : Config :=
  node (Table.ofList [("level", .str "5")]) [("attack", ofAttributes [("name", .str "staff")])]

/-- What `matching_order` says of the wizard before and after. -/
theorem matching_order_wizard :
    wizard.FreeOfNot ∧ wizard.matchesPattern wizard = true ∧ hasStaff.FreeOfNot ∧
      wizard.matchesPattern hasStaff = true ∧ wizardWithDamage.matchesPattern hasStaff = true := by
  have hleaf : ∀ as, (ofAttributes as).FreeOfNot := fun as => .node (by simp) (by simp)
  have hone : ∀ as c, FreeOfNot c → (node as [("attack", c)]).FreeOfNot :=
    fun as c hc => .node (by simp) (List.forall_mem_singleton.2 hc)
  obtain ⟨hself, htrans, hgrown⟩ := matching_order
  have hwizard : wizard.FreeOfNot := hone _ _ (hleaf _)
  have hpattern : hasStaff.FreeOfNot := hone _ _ (hleaf _)
  have hgrows : Grows wizard wizardWithDamage :=
    .within (@Grows.gainAttribute _ "damage" (by decide) (.int 10) []) wizard.attributes [] "attack" []
  have hmatches : wizard.matchesPattern hasStaff = true := by decide
  exact ⟨hwizard, hself wizard hwizard, hpattern, htrans _ _ _ hpattern (hself wizard hwizard) hmatches,
    hgrown _ _ _ hpattern hmatches (.single hgrows)⟩

/-- Without the condition a config need not match itself. -/
example : (wrap "not" empty).matchesPattern (wrap "not" empty) = false := by decide

end Config
end Muster
