/-
# What a query asks for, one by one

`Config.items` takes a query apart into queries that ask for one thing each: one
for the coordinates `x` and `y` together, one for every other attribute, and one
for every child that is no conditional.

The tests of the fields fall apart in the same way (`Separable`): what they say
of all attributes is what they say of the coordinates alone and of each other
attribute alone (`Separable.eq_all_fieldItems`).
-/

import Muster.Filter.Compile

namespace Muster

/-- Whether an attribute is asked about together with the other coordinate. -/
def isCoordinate (key : String) : Bool := key == "x" || key == "y"

namespace Config

/-- One query for the coordinates, if there are any, and one for every other attribute. -/
def fieldItems (as : Table String Scalar) : List Config :=
  (match as.entries.filter fun e => isCoordinate e.1 with
    | [] => []
    | coordinates => [ofAttributes coordinates]) ++
    (as.entries.filter fun e => !isCoordinate e.1).map fun e => ofAttributes [e]

/-- One query for every child that is no conditional. -/
def childItems (cs : List (String × Config)) : List Config :=
  (cs.filter fun e => (Conditional.ofTag? e.1).isNone).map fun e => wrap e.1 e.2

/-- The conditionals among children, in document order. -/
def conditionalChildren (cs : List (String × Config)) : List (Conditional × Config) :=
  cs.filterMap fun e => (Conditional.ofTag? e.1).map fun c => (c, e.2)

/-- The queries that each ask for one of the things that a query asks for. -/
def items (q : Config) : List Config := fieldItems q.attributes ++ childItems q.children

/-- The conditional children, in document order. -/
def conditionals (q : Config) : List (Conditional × Config) := conditionalChildren q.children

/-- A child is an item of its own unless it is a conditional. -/
theorem childItems_cons (tag : String) (child : Config) (cs : List (String × Config)) :
    childItems ((tag, child) :: cs) =
      if (Conditional.ofTag? tag).isNone then wrap tag child :: childItems cs else childItems cs := by
  cases h : Conditional.ofTag? tag <;> simp [childItems, h]

/-- A child is a conditional or is passed over. -/
theorem conditionalChildren_cons (tag : String) (child : Config) (cs : List (String × Config)) :
    conditionalChildren ((tag, child) :: cs) =
      match Conditional.ofTag? tag with
      | some c => (c, child) :: conditionalChildren cs
      | none => conditionalChildren cs := by
  cases h : Conditional.ofTag? tag <;> simp [conditionalChildren, h]

end Config

/-! ### Fields that are asked about one by one -/

/-- The fields whose key passes, the others blank. -/
def onlyFields (get : String → Value) (p : String → Bool) : String → Value := fun key =>
  if p key then get key else none

/-- A test of fields that asks about the coordinates together and about every
other field by itself, and nothing of fields that are blank. -/
structure Separable (F : (String → Value) → Bool) : Prop where
  blank : F (fun _ => none) = true
  split : ∀ get, F get = true ↔
    F (onlyFields get isCoordinate) = true ∧
      ∀ key, isCoordinate key = false → F (onlyFields get (· == key)) = true

namespace Separable

/-- **Separable tests have a separable conjunction.** -/
theorem and {F G : (String → Value) → Bool} (hF : Separable F) (hG : Separable G) :
    Separable fun get => F get && G get where
  blank := by rw [hF.blank, hG.blank]; rfl
  split get := by
    simp only [Bool.and_eq_true]
    rw [hF.split, hG.split]
    constructor
    · rintro ⟨⟨hFc, hFk⟩, hGc, hGk⟩
      exact ⟨⟨hFc, hGc⟩, fun key hk => ⟨hFk key hk, hGk key hk⟩⟩
    · rintro ⟨⟨hFc, hGc⟩, hk⟩
      exact ⟨⟨hFc, fun key h => (hk key h).1⟩, hGc, fun key h => (hk key h).2⟩

/-- **A test of one field is separable,** if it asks nothing of a blank one. -/
theorem field (key : String) {F : Value → Bool} (h : F none = true) : Separable fun get => F (get key) where
  blank := h
  split get := by
    by_cases hkey : isCoordinate key = true
    · simp only [onlyFields, hkey, if_true, iff_self_and]
      intro _ key' hk'
      have hne : key ≠ key' := fun he => by rw [he, hk'] at hkey; simp at hkey
      simp [hne, h]
    · rw [Bool.not_eq_true] at hkey
      constructor
      · intro hF
        refine ⟨by simp [onlyFields, hkey, h], fun key' _ => ?_⟩
        by_cases he : key = key' <;> simp [onlyFields, he, h]
        exact he ▸ hF
      · rintro ⟨-, hk⟩
        simpa [onlyFields] using hk key hkey

/-- **A test of the coordinates is separable,** if it asks nothing of blank ones. -/
theorem coordinates {F : Value → Value → Bool} (h : F none none = true) :
    Separable fun get => F (get "x") (get "y") where
  blank := h
  split get := by
    simp only [onlyFields, isCoordinate, BEq.rfl, Bool.true_or, Bool.or_true, if_true, iff_self_and]
    intro _ key hk
    rw [Bool.or_eq_false_iff] at hk
    have hx : ("x" == key) = false := by rw [BEq.comm]; exact hk.1
    have hy : ("y" == key) = false := by rw [BEq.comm]; exact hk.2
    simp [hx, hy, h]

/-- A query of some of the fields has these and no others. -/
theorem get_ofAttributes_filter (as : Table String Scalar) (p : String → Bool) :
    (Config.ofAttributes (as.entries.filter fun e => p e.1)).get = onlyFields as.get? p := by
  funext key
  change (Table.ofList _).get? key = _
  rw [Table.get?_ofList (as.ascending.filter _), Table.lookup_filter]
  rfl

/-- A query of one field has this and no other. -/
theorem get_ofAttributes_singleton {as : Table String Scalar} {e : String × Scalar} (he : e ∈ as.entries) :
    (Config.ofAttributes [e]).get = onlyFields as.get? (· == e.1) := by
  funext key
  change (Table.ofList [e]).get? key = _
  rw [Table.get?_ofList (List.pairwise_singleton _ _), onlyFields]
  by_cases hk : key = e.1
  · subst hk
    simp [Table.lookup, Table.get?_eq_some_iff.2 he]
  · simp [Table.lookup, hk]

/-- **What a separable test says of all attributes is what it says of the items.** -/
theorem eq_all_fieldItems {F : (String → Value) → Bool} (h : Separable F) (as : Table String Scalar) :
    F as.get? = (Config.fieldItems as).all fun item => F item.get := by
  rw [Bool.eq_iff_iff, h.split, Config.fieldItems, List.all_append, Bool.and_eq_true]
  refine and_congr ?_ ?_
  · rw [← get_ofAttributes_filter]
    split
    · next hnil =>
      rw [hnil]
      exact ⟨fun _ => rfl, fun _ => h.blank⟩
    · simp
  · simp only [List.all_map, List.all_filter, List.all_eq_true]
    constructor
    · intro hk e he
      by_cases hc : isCoordinate e.1 = true
      · simp [hc]
      · rw [Bool.not_eq_true] at hc
        simpa [hc, get_ofAttributes_singleton he] using hk e.1 hc
    · intro he key hc
      cases hg : as.get? key with
      | none =>
        have hblank : onlyFields as.get? (· == key) = fun _ => none := by
          funext key'
          by_cases hkk : key' = key <;> simp [onlyFields, hkk, hg]
        rw [hblank]
        exact h.blank
      | some a =>
        have hmem := Table.get?_eq_some_iff.1 hg
        simpa [hc, get_ofAttributes_singleton hmem] using he _ hmem

end Separable
end Muster
