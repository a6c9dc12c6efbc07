/-
# Fields that are numbers

Four fields of a query over troops hold a number, and `side` holds a list of numbers
(`Query.number_fields_meaning`):

| field | what it is compared with | when it passes |
| --- | --- | --- |
| `recall_cost`, `level` | what the troop has | the field denotes that number |
| `defense`, `movement_cost` | what the troop has on the terrain | the field denotes that number |
| `side` | the side of the troop | the field denotes it, or lists its numeral |

A field of the first two rows that denotes no number stands for -1.  The items of a
list are compared as they are written: `02` is no numeral of the second side, but a
field that is no list denotes 2 also where it is written so
(`not_number_fields_meaning_plain`).
-/

import Muster.Proofs.Config.Printed
import Muster.Proofs.Filter.Placement
import Muster.Proofs.Filter.Plain
import Muster.Proofs.Text.Items

namespace Muster

/-- The number that a scalar denotes: its print, without the blanks around it, read as a
signed 64-bit integer. -/
def Scalar.denotes? (a : Scalar) : Option Int64 := Text.Numerals.int64? (Text.trim a.text.toList)

/-- A scalar that is no floating-point number reads as the number that it denotes. -/
theorem Scalar.toInt?_eq_denotes? {a : Scalar} (h : a.isReal = false) : a.toInt? = a.denotes? :=
  (toInt?_printed h).symm

/-- A scalar that is no floating-point number is read as what it denotes, or as the stand-in. -/
theorem Value.toInt_some {a : Scalar} (h : a.isReal = false) (default : Int64) :
    Value.toInt (some a) default = a.denotes?.getD default := by
  rw [toInt, Option.bind_some, Scalar.toInt?_eq_denotes? h]

/-- The fields that hold one number. -/
inductive NumberField where
  | recallCost
  | level
  | defense
  | movement

namespace NumberField

/-- The key of the field. -/
def key : NumberField → String
  | recallCost => "recall_cost"
  | level => "level"
  | defense => "defense"
  | movement => "movement_cost"

/-- What the field is compared with, for a troop checked at a location. -/
def value (b : Board) (t : Troop) (l : Location) : NumberField → Int64
  | recallCost => t.recallCost
  | level => t.level
  | defense => (t.defenseOn (b.map.terrain l)).toInt64
  | movement => (t.movementOn (b.map.terrain l)).toInt64

/-- The test that the field makes. -/
def test : NumberField → Int64 → TroopTest
  | recallCost => .recallCost
  | level => .level
  | defense => .defense
  | movement => .movement

/-- The test of a number field compares with the value of the troop. -/
theorem holds_test (f : NumberField) (n : Int64) (b : Board) (t : Troop) (l : Location) :
    (f.test n).holds b t l = (f.value b t l == n) := by
  cases f <;> rfl

/-- No number field calls a plug-in. -/
theorem key_ne (f : NumberField) : f.key ≠ "formula" ∧ f.key ≠ "lua_function" := by
  cases f <;> decide

/-- A number field compiles to one test, of what it denotes or of -1. -/
theorem fieldTests_key (f : NumberField) (a : Scalar) :
    Query.fieldTests f.key a = [f.test (Value.toInt (some a) (-1))] := by
  cases f <;>
    simp [Query.fieldTests, Query.plainTests, Query.identityTests, Query.traitTests, Query.intTest, key, test]

end NumberField

/-! ### The side -/

/-- The numeral of the troop's side. -/
def Troop.sideNumeral (t : Troop) : String := String.ofList (Text.Numerals.write t.side.toInt)

/-- The numeral of a side is read as the side. -/
theorem Troop.int64?_sideNumeral (t : Troop) : Text.Numerals.int64? t.sideNumeral.toList = some t.side.toInt64 := by
  rw [sideNumeral, String.toList_ofList, ← Int32.toInt_toInt64, Text.Numerals.int64?_write]

namespace Query

/-- **A field that holds a number** passes where that number, or -1, is what it is compared with. -/
theorem passes_number_iff (f : NumberField) {a : Scalar} (ha : a.isReal = false) (b : Board) (t : Troop) (l : Location) :
    (fieldTests f.key a).all (·.holds b t l) = true ↔ a.denotes?.getD (-1) = f.value b t l := by
  rw [f.fieldTests_key, List.all_cons, List.all_nil, Bool.and_true, f.holds_test, beq_iff_eq, Value.toInt_some ha,
    eq_comm]

/-- The field `side` has a number beside its list, -999 where it denotes none. -/
theorem fieldTests_side (a : Scalar) :
    fieldTests "side" a = listTest (some a) (.side (Value.toInt (some a) (-999))) := by
  simp [fieldTests, plainTests, identityTests, traitTests]

/-- **A list with items makes one test.** -/
theorem listTest_some {α : Type} {a : Scalar} (h : Text.splitList a.text ≠ []) (test : List String → α) :
    listTest (some a) test = [test (Text.splitList a.text)] := by
  unfold listTest
  split
  · next hnil => exact absurd hnil h
  · rfl

/-- **A list with items passes** where it denotes the side as a whole or lists its
numeral, if not both the side and the number that stands for an unreadable list are -999. -/
theorem passes_side_iff {a : Scalar} (ha : a.isReal = false) (hitems : Text.splitList a.text ≠ []) {t : Troop}
    (hside : t.side ≠ -999 ∨ a.denotes?.isSome = true) (b : Board) (l : Location) :
    (fieldTests "side" a).all (·.holds b t l) = true ↔
      a.denotes? = some t.side.toInt64 ∨ t.sideNumeral ∈ Text.splitList a.text := by
  have hdenotes : t.side.toInt64 = a.denotes?.getD (-999) ↔ a.denotes? = some t.side.toInt64 := by
    cases hread : a.denotes? with
    | some n => exact ⟨fun h => congrArg some h.symm, fun h => (Option.some.inj h).symm⟩
    | none =>
      have hne : t.side ≠ -999 := hside.resolve_right (by rw [hread]; decide)
      refine ⟨fun h => absurd ?_ hne, fun h => by cases h⟩
      rw [← t.side.toInt32_toInt64, h]
      decide
  rw [fieldTests_side, listTest_some hitems, List.all_cons, List.all_nil, Bool.and_true, TroopTest.holds,
    Bool.or_eq_true, beq_iff_eq, List.contains_iff_mem, Value.toInt_some ha, hdenotes]
  rfl

/-- What a whole list denotes is what its one item reads as. -/
theorem exists_item_of_denotes {a : Scalar} {n : Int64} (h : a.denotes? = some n) :
    ∃ item ∈ Text.splitList a.text, Text.Numerals.int64? item.toList = some n := by
  refine ⟨Text.trimmed a.text, ?_, ?_⟩
  · rw [Text.splitList_of_int64? h]
    exact List.mem_singleton_self _
  · rw [Text.trimmed, String.toList_ofList]
    exact h

/-- **An item that reads as the side** is its numeral, if the list spells its numbers plainly. -/
theorem sideNumeral_mem_iff {items : List String}
    (hplain : ∀ item ∈ items, ∀ n : Int64, Text.Numerals.int64? item.toList = some n →
      item = String.ofList (Text.Numerals.write n.toInt)) (t : Troop) :
    t.sideNumeral ∈ items ↔ ∃ item ∈ items, Text.Numerals.int64? item.toList = some t.side.toInt64 := by
  refine ⟨fun h => ⟨_, h, t.int64?_sideNumeral⟩, fun ⟨item, hitem, hread⟩ => ?_⟩
  have hnumeral : item = t.sideNumeral := by
    rw [hplain item hitem _ hread, Int32.toInt_toInt64]
    rfl
  exact hnumeral ▸ hitem

variable {σ : Type}

/-- **Numeric fields compare numbers.**  Take a field whose value is no floating-point
number, in any context, and a troop checked at any location.

If it is one of the four fields that hold a number, then it passes exactly when the
number that it denotes, or -1 if it denotes none, is what it is compared with.

If it is `side`, lists an item and denotes a number or the side is not -999, then it passes
exactly when it denotes the side or lists its numeral.  So it passes only where an item
reads as the side, and wherever one does if the list spells its numbers plainly. -/
theorem number_fields_meaning (ctx : Context σ) (flat : Bool) {a : Scalar} (ha : a.isReal = false) (t : Troop)
    (l : Location) (made asked : Scope) :
    (∀ f : NumberField, ∃ passes, Says ctx flat (s := .troop) (t, l) made asked (.ofAttributes [(f.key, a)]) passes ∧
      (passes = true ↔ a.denotes?.getD (-1) = f.value ctx.toBoard t l) ∧
      (f.value ctx.toBoard t l ≠ -1 → (passes = true ↔ a.denotes? = some (f.value ctx.toBoard t l)))) ∧
    (Text.splitList a.text ≠ [] → (t.side ≠ -999 ∨ a.denotes?.isSome = true) →
      ∃ passes, Says ctx flat (s := .troop) (t, l) made asked (.ofAttributes [("side", a)]) passes ∧
        (passes = true ↔ a.denotes? = some t.side.toInt64 ∨ t.sideNumeral ∈ Text.splitList a.text) ∧
        (passes = true → ∃ item ∈ Text.splitList a.text,
          Text.Numerals.int64? item.toList = some t.side.toInt64) ∧
        ((∀ item ∈ Text.splitList a.text, ∀ n : Int64, Text.Numerals.int64? item.toList = some n →
            item = String.ofList (Text.Numerals.write n.toInt)) →
          (passes = true ↔ ∃ item ∈ Text.splitList a.text,
            Text.Numerals.int64? item.toList = some t.side.toInt64))) := by
  refine ⟨fun f => ?_, fun hitems hside => ?_⟩
  · have hpasses := passes_number_iff f ha ctx.toBoard t l
    refine ⟨_, says_field ctx flat f.key_ne.1 f.key_ne.2 a t l made asked, hpasses, fun hne => hpasses.trans ?_⟩
    cases a.denotes? with
    | none => exact ⟨fun h => absurd h.symm hne, fun h => by cases h⟩
    | some n => exact Option.some_inj.symm
  · have hpasses := passes_side_iff ha hitems hside ctx.toBoard l
    have hreads : (fieldTests "side" a).all (·.holds ctx.toBoard t l) = true →
        ∃ item ∈ Text.splitList a.text, Text.Numerals.int64? item.toList = some t.side.toInt64 := by
      intro h
      rcases hpasses.1 h with hwhole | hlisted
      · exact exists_item_of_denotes hwhole
      · exact ⟨_, hlisted, t.int64?_sideNumeral⟩
    exact ⟨_, says_field ctx flat (by decide) (by decide) a t l made asked, hpasses, hreads, fun hplain =>
      ⟨hreads, fun h => hpasses.2 (.inr ((sideNumeral_mem_iff hplain t).2 h))⟩⟩

/-- A troop of the second side with a negative level. -/
def straggler : Troop := { id := "straggler", type := "Ghost", side := 2, level := -1 }

/-- What `number_fields_meaning` says of the numbers of the straggler: `+20` is its cost,
and its side is listed after a blank. -/
theorem number_fields_meaning_straggler :
    (Scalar.str "+20").isReal = false ∧ NumberField.recallCost.value meadow.toBoard straggler ⟨0, 0⟩ ≠ -1 ∧
      Says meadow false (s := .troop) (straggler, ⟨0, 0⟩) .empty .empty (.ofAttributes [("recall_cost", .str "+20")]) true ∧
      (Scalar.str " 3 , 2").isReal = false ∧ Text.splitList " 3 , 2" ≠ [] ∧ straggler.side ≠ -999 ∧
      Says meadow false (s := .troop) (straggler, ⟨0, 0⟩) .empty .empty (.ofAttributes [("side", .str " 3 , 2")]) true := by
  obtain ⟨hnumber, -⟩ := number_fields_meaning meadow false (a := .str "+20") rfl straggler ⟨0, 0⟩ .empty .empty
  obtain ⟨-, hside⟩ := number_fields_meaning meadow false (a := .str " 3 , 2") rfl straggler ⟨0, 0⟩ .empty .empty
  have hne : NumberField.recallCost.value meadow.toBoard straggler ⟨0, 0⟩ ≠ -1 := by decide
  have hitems : Text.splitList " 3 , 2" ≠ [] := by decide
  obtain ⟨passes, hsays, -, hpasses⟩ := hnumber .recallCost
  obtain ⟨listed, hlists, hlisted, -⟩ := hside hitems (.inl (by decide))
  have hcost : passes = true := (hpasses hne).2 (by decide)
  have htwo : listed = true := hlisted.2 (.inr (by decide))
  exact ⟨rfl, hne, hcost ▸ hsays, rfl, hitems, by decide, htwo ▸ hlists⟩

/-- **Where the numbers of a field and of a troop part.**  The level -1 is what an
unreadable field stands for; `02` reads as the second side, and is not its numeral; and an
unreadable list stands for the side -999. -/
theorem not_number_fields_meaning_plain :
    (Says meadow false (s := .troop) (straggler, ⟨0, 0⟩) .empty .empty (.ofAttributes [("level", .str "any")]) true ∧
      (Scalar.str "any").denotes? = none) ∧
    (Says meadow false (s := .troop) (straggler, ⟨0, 0⟩) .empty .empty (.ofAttributes [("side", .str "02,3")]) false ∧
      ∃ item ∈ Text.splitList "02,3", Text.Numerals.int64? item.toList = some straggler.side.toInt64) ∧
    Says meadow false (s := .troop) ({ straggler with side := -999 }, ⟨0, 0⟩) .empty .empty
        (.ofAttributes [("side", .str "all")]) true ∧
      ∀ item ∈ Text.splitList "all", Text.Numerals.int64? item.toList = none := by
  exact ⟨⟨fun ⟨⟩ ⟨⟩ => ⟨_, rfl, by decide⟩, by decide⟩,
    ⟨fun ⟨⟩ ⟨⟩ => ⟨_, rfl, by decide⟩, "02", by decide, by decide⟩, fun ⟨⟩ ⟨⟩ => ⟨_, rfl, by decide⟩, by decide⟩

end Query
end Muster
