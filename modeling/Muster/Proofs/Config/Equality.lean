/-
# Equality and matching

Values are equal when both are blank or both print the same, whatever their kinds.
Equality is thus sameness in print, of configs as of values (`agrees_iff_printed_eq`),
and therefore an equivalence, for which even a number that is not a number is equal
to itself.

Matching respects it on both sides (`matchesPattern_congr`): what a config shows at a
key and what a pattern asks for there are compared in print, and the children of a
config in print are its children in print, under the same tags.  That includes what a
pattern forbids; a child tagged `not` more is one more config that must not be matched
(`matchesPattern_addChild_not`).
-/

import Mathlib.Data.List.Forall2
import Muster.Proofs.Config.Matching
import Muster.Proofs.Config.Printed

namespace Muster

/-! ### Values -/

/-- **Blank is equal to blank only,** other values are equal where they print the same. -/
theorem Value.agrees_iff {v w : Value} :
    v.agrees w = true ↔ v = none ∧ w = none ∨ ∃ a b, v = some a ∧ w = some b ∧ a.text = b.text := by
  cases v <;> cases w <;> simp [agrees, Scalar.agrees]

/-- **Values are equal** if and only if they are the same in print. -/
theorem Value.agrees_iff_printed_eq {v w : Value} : v.agrees w = true ↔ v.printed = w.printed := by
  cases v <;> cases w <;> simp [agrees, printed, Scalar.agrees_iff_printed_eq]

/-- **Equality of values** is an equivalence, since it is equality in print. -/
theorem Value.agrees_equivalence : Equivalence fun v w : Value => v.agrees w = true := by
  simp only [agrees_iff_printed_eq]
  exact eq_equivalence.comap printed

namespace Config

/-! ### Configs -/

/-- **Configs are equal** where the values at every key are, and the children one by one, tags
included. -/
theorem agrees_iff {c d : Config} :
    c.agrees d = true ↔
      (∀ key, (c.get key).agrees (d.get key) = true) ∧
        List.Forall₂ (fun e f => e.1 = f.1 ∧ e.2.agrees f.2 = true) c.children d.children := by
  obtain ⟨as, cs⟩ := c
  obtain ⟨bs, ds⟩ := d
  have hattributes : as.mapValues Scalar.printed = bs.mapValues Scalar.printed ↔
      ∀ key, Value.agrees (as.get? key) (bs.get? key) = true := by
    simp only [Value.agrees_iff_printed_eq, Value.printed, ← Table.get?_mapValues]
    exact ⟨fun h _ => h ▸ rfl, Table.ext_get?⟩
  have hchildren : printedAll cs = printedAll ds ↔
      List.Forall₂ (fun e f => e.1 = f.1 ∧ e.2.agrees f.2 = true) cs ds := by
    simp only [printedAll_eq_map, agrees_iff_printed_eq, ← Prod.mk.injEq]
    rw [← List.forall₂_eq_eq_eq, List.forall₂_map_left_iff, List.forall₂_map_right_iff]
  rw [agrees_iff_printed_eq, printed, printed, node.injEq, hattributes, hchildren]
  rfl

/-- **Equality of configs** is an equivalence, for the same reason. -/
theorem agrees_equivalence : Equivalence fun c d : Config => c.agrees d = true := by
  simp only [agrees_iff_printed_eq]
  exact eq_equivalence.comap printed

/-! ### Matching -/

/-- A config in print shows the same. -/
theorem printed_showsAttribute (c : Config) (key : String) (expected : Scalar) :
    c.printed.showsAttribute key expected = c.showsAttribute key expected := by
  rw [showsAttribute, get_printed, Value.printed, Option.any_map]
  rfl

/-- The children of a config in print are its children in print. -/
theorem childrenAt_printed (c : Config) (tag : String) : c.printed.childrenAt tag = (c.childrenAt tag).map printed := by
  obtain ⟨as, cs⟩ := c
  rw [printed, printedAll_eq_map]
  exact valuesAt_map printed tag cs

mutual

/-- **A config in print matches the same patterns.** -/
theorem printed_matchesPattern : ∀ (p c : Config), c.printed.matchesPattern p = c.matchesPattern p
  | node as ps, c => by
    simp only [matchesPattern, printed_showsAttribute, printed_matchesChildren ps c]

/-- A config matches the children of a pattern as it does in print. -/
theorem printed_matchesChildren :
    ∀ (ps : List (String × Config)) (c : Config), c.printed.matchesChildren ps = c.matchesChildren ps
  | [], _ => rfl
  | (tag, p) :: ps, c => by
    have hany : ((c.printed.childrenAt tag).any fun d => d.matchesPattern p) =
        (c.childrenAt tag).any fun d => d.matchesPattern p := by
      rw [childrenAt_printed, List.any_map]
      exact congrArg _ (funext fun d => printed_matchesPattern p d)
    rw [matchesChildren, matchesChildren, printed_matchesPattern p c, hany, printed_matchesChildren ps c]

end

/-- **Equal configs match equal patterns alike.** -/
theorem matchesPattern_congr {a b p q : Config} (hab : a.agrees b = true) (hpq : p.agrees q = true) :
    a.matchesPattern p = b.matchesPattern q := by
  rw [agrees_iff_printed_eq] at hab hpq
  calc a.matchesPattern p = a.printed.matchesPattern p.printed := by
        rw [printed_matchesPattern, matchesPattern_printed]
    _ = b.printed.matchesPattern q.printed := by rw [hab, hpq]
    _ = b.matchesPattern q := by rw [printed_matchesPattern, matchesPattern_printed]

/-- What several children of a pattern ask for is asked for one after the other. -/
theorem matchesChildren_append (c : Config) (ps qs : List (String × Config)) :
    c.matchesChildren (ps ++ qs) = (c.matchesChildren ps && c.matchesChildren qs) := by
  induction ps with
  | nil => rfl
  | cons e ps ih => rw [List.cons_append, matchesChildren, matchesChildren, ih, Bool.and_assoc]

/-- **What is forbidden besides** must not be matched. -/
theorem matchesPattern_addChild_not (c p q : Config) :
    c.matchesPattern (p.addChild "not" q) = (c.matchesPattern p && !c.matchesPattern q) := by
  obtain ⟨as, ps⟩ := p
  rw [addChild, matchesPattern, children_node, matchesChildren_append, ← Bool.and_assoc]
  simp [matchesPattern, matchesChildren]

/-- **Equality is an equivalence that matching respects.**  Blank is equal to blank only and
values that are present are equal where they print the same; configs are equal where the values
at every key are, and the children one by one under the same tags.  Both are equivalences.
Equal configs match equal patterns alike, with children tagged `not` at any depth, and a pattern
with one more such child is matched by what matched before and does not match the child. -/
theorem equality_respected :
    (∀ v w : Value, v.agrees w = true ↔
      v = none ∧ w = none ∨ ∃ a b, v = some a ∧ w = some b ∧ a.text = b.text) ∧
    Equivalence (fun v w : Value => v.agrees w = true) ∧
    (∀ c d : Config, c.agrees d = true ↔
      (∀ key, (c.get key).agrees (d.get key) = true) ∧
        List.Forall₂ (fun e f => e.1 = f.1 ∧ e.2.agrees f.2 = true) c.children d.children) ∧
    Equivalence (fun c d : Config => c.agrees d = true) ∧
    (∀ a b p q : Config, a.agrees b = true → p.agrees q = true → a.matchesPattern p = b.matchesPattern q) ∧
    ∀ a p q : Config, a.matchesPattern (p.addChild "not" q) = true ↔
      a.matchesPattern p = true ∧ a.matchesPattern q = false := by
  refine ⟨fun _ _ => Value.agrees_iff, Value.agrees_equivalence, fun _ _ => agrees_iff, agrees_equivalence,
    fun _ _ _ _ => matchesPattern_congr, fun a p q => ?_⟩
  rw [matchesPattern_addChild_not, Bool.and_eq_true, Bool.not_eq_true']

/-- A leader with a speed that is not a number, who has one weapon. -/
def captain : Config :=
  node (Table.ofList [("level", .int 5), ("leader", .bool true), ("speed", .real .nan)])
    [("attack", ofAttributes [("damage", .int 10)])]

/-- The captain in texts. -/
def writtenCaptain : Config :=
  node (Table.ofList [("level", .str "5"), ("leader", .str "yes"), ("speed", .str "NaN")])
    [("attack", ofAttributes [("damage", .str "10")])]

/-- A pattern of what has a level and no weapon but of one damage. -/
def hasOnly (level damage : Scalar) : Config :=
  node (Table.ofList [("level", level)])
    [("not", wrap "attack" (wrap "not" (ofAttributes [("damage", damage)])))]

/-- What `equality_respected` says of the captain, who is equal to himself in texts and matches a
pattern in which one `not` stands within another. -/
theorem equality_respected_captain :
    captain.agrees writtenCaptain = true ∧ (hasOnly (.int 5) (.int 10)).agrees (hasOnly (.str "5") (.str "10")) = true ∧
      captain.matchesPattern (hasOnly (.int 5) (.int 10)) = true ∧
      writtenCaptain.matchesPattern (hasOnly (.str "5") (.str "10")) = true ∧
      writtenCaptain.agrees captain = true := by
  obtain ⟨-, -, -, hequivalence, hrespected, -⟩ := equality_respected
  have hequal : captain.agrees writtenCaptain = true := by decide
  have hpatterns : (hasOnly (.int 5) (.int 10)).agrees (hasOnly (.str "5") (.str "10")) = true := by decide
  have hmatches : captain.matchesPattern (hasOnly (.int 5) (.int 10)) = true := by decide
  exact ⟨hequal, hpatterns, hmatches, hrespected _ _ _ _ hequal hpatterns ▸ hmatches, hequivalence.symm hequal⟩

end Config
end Muster
