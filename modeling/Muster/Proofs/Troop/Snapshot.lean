/-
# What a snapshot shows

The attributes of a snapshot have different keys, so each of them is shown
(`Troop.get_snapshot_of_mem`) and nothing else is (`Troop.get_snapshot_of_not_mem`).
Below the attributes there are three kinds of children:

| tag | children |
| --- | --- |
| `attack` | the weapons, in order |
| `abilities` | one that lists the abilities, if there are any |
| `variables` | one, the variables of the troop |
-/

import Muster.Config.Match
import Muster.Proofs.Config.Documents
import Muster.Troop.Snapshot

namespace Muster

/-! ### Small patterns -/

namespace Config

variable (c : Config)

/-- **A pattern of attributes** asks for each of them. -/
theorem matchesPattern_ofAttributes {as : List (String × Scalar)} (hkeys : (as.map Prod.fst).Nodup) :
    c.matchesPattern (ofAttributes as) = as.all fun e => c.showsAttribute e.1 e.2 := by
  rw [ofAttributes, matchesPattern, matchesChildren, Bool.and_true, Bool.eq_iff_iff, List.all_eq_true, List.all_eq_true]
  exact forall_congr' fun e => imp_congr_left (mem_entries_ofList hkeys)

/-- A pattern of one attribute asks for this attribute. -/
theorem matchesPattern_attribute (key : String) (a : Scalar) :
    c.matchesPattern (ofAttributes [(key, a)]) = c.showsAttribute key a := by
  have hkeys : ([(key, a)].map Prod.fst).Nodup := List.pairwise_singleton _ _
  rw [matchesPattern_ofAttributes _ hkeys, List.all_cons, List.all_nil, Bool.and_true]

/-- The empty pattern asks for nothing. -/
@[simp] theorem matchesPattern_empty : c.matchesPattern empty = true := by
  rw [empty, matchesPattern, matchesChildren]
  rfl

/-- **A pattern of one child** asks for a child of the tag that matches it. -/
theorem matchesPattern_wrap {tag : String} (htag : tag ≠ "not") (p : Config) :
    c.matchesPattern (wrap tag p) = (c.childrenAt tag).any fun d => d.matchesPattern p := by
  rw [wrap, matchesPattern, matchesChildren, if_neg htag, matchesChildren, Bool.and_true]
  rfl

end Config

namespace Troop

open Config

variable (t : Troop)

/-! ### Attributes -/

/-- The attributes of a snapshot, in the order in which they are written. -/
def shownAttributes : List (String × Scalar) := t.commonAttributes ++ t.optionalAttributes ++ t.placeAttributes

/-- The keys of optional attributes, some of which may be missing. -/
theorem keys_optionalAttributes :
    (t.optionalAttributes.map Prod.fst).Sublist ["variation", "role", "ai_special"] := by
  have hone : ∀ (c : Bool) (e : String × Scalar), ((if c then [] else [e]).map Prod.fst).Sublist [e.1] := by
    intro c e
    cases c
    · exact List.Sublist.refl _
    · exact List.nil_sublist _
  have hguardian : ((if t.isGuardian then [("ai_special", Scalar.str "guardian")] else []).map Prod.fst).Sublist
      ["ai_special"] := by
    split
    · exact List.Sublist.refl _
    · exact List.nil_sublist _
  rw [optionalAttributes, List.map_append, List.map_append]
  exact ((hone _ ("variation", .str t.variation)).append (hone _ ("role", .str t.role))).append hguardian

/-- The keys of the coordinates. -/
theorem keys_placeAttributes : t.placeAttributes.map Prod.fst = ["x", "y"] := by
  rw [placeAttributes]
  split <;> rfl

/-- **The attributes of a snapshot have different keys.** -/
theorem nodup_keys_shownAttributes : (t.shownAttributes.map Prod.fst).Nodup := by
  have hall : (t.commonAttributes.map Prod.fst ++ ["variation", "role", "ai_special"] ++ ["x", "y"]).Nodup := by
    simp only [commonAttributes, List.map_cons, List.map_nil]
    decide
  rw [shownAttributes, List.map_append, List.map_append, keys_placeAttributes]
  exact hall.sublist (((List.Sublist.refl _).append t.keys_optionalAttributes).append (List.Sublist.refl _))

variable {t}

/-- **A snapshot shows all its attributes.** -/
theorem get_snapshot_of_mem {key : String} {a : Scalar} (h : (key, a) ∈ t.shownAttributes) :
    t.snapshot.get key = some a :=
  get?_ofList_of_mem t.nodup_keys_shownAttributes h

/-- A snapshot shows no other attributes. -/
theorem get_snapshot_of_not_mem {key : String} (h : key ∉ t.shownAttributes.map Prod.fst) :
    t.snapshot.get key = none :=
  get?_ofList_of_not_mem h

/-! ### Children -/

variable (t)

/-- **A snapshot has children of three tags.** -/
theorem childrenAt_snapshot (tag : String) :
    t.snapshot.childrenAt tag =
      (if tag = "attack" then t.attacks.map Attack.snapshot else []) ++
        (if tag = "abilities" ∧ t.abilities ≠ [] then [t.abilitiesSnapshot] else []) ++
        if tag = "variables" then [t.variables] else [] := by
  have hattacks : valuesAt tag (t.attacks.map fun a => ("attack", a.snapshot)) =
      if tag = "attack" then t.attacks.map Attack.snapshot else [] := by
    rw [valuesAt, List.filterMap_map]
    split
    · next htag =>
      rw [← List.filterMap_eq_map]
      exact congrArg (List.filterMap · t.attacks) (funext fun _ => if_pos htag.symm)
    · next htag => simp [Ne.symm htag]
  have habilities : valuesAt tag (if t.abilities.isEmpty then [] else [("abilities", t.abilitiesSnapshot)]) =
      if tag = "abilities" ∧ t.abilities ≠ [] then [t.abilitiesSnapshot] else [] := by
    by_cases hnil : t.abilities = []
    · simp [hnil, valuesAt]
    · by_cases htag : "abilities" = tag
      · simp [hnil, ← htag, valuesAt]
      · simp [hnil, htag, Ne.symm htag, valuesAt]
  have hvariables : valuesAt tag [("variables", t.variables)] = if tag = "variables" then [t.variables] else [] := by
    by_cases htag : "variables" = tag
    · simp [← htag, valuesAt]
    · simp [htag, Ne.symm htag, valuesAt]
  rw [← hattacks, ← habilities, ← hvariables, ← valuesAt_append, ← valuesAt_append]
  rfl

end Troop
end Muster
