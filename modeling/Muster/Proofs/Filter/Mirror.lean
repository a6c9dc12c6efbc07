/-
# Fields that a snapshot mirrors

Much of what the fields of a query ask of a troop can be asked of its snapshot as well:

| query | pattern |
| --- | --- |
| `id`, `name`, `type`, `race`, `variation`, `role`, one item | the same |
| `level`, `recall_cost`, `side`, one integer | the same |
| `canrecruit`, a truth value; `gender`, a gender; `ai_special`, guardian | the same |
| `x` and `y`, integers from 1 on | the same |
| `has_weapon`, one item | a child `attack` of that `name` |
| `ability`, one item | a child of that tag in a child `abilities` |

The two are written in different places, with different conversions and omissions.  For a
troop checked where it stands they agree (`Query.says_of_mirrors`).
-/

import Muster.Proofs.Filter.Numbers
import Muster.Proofs.Filter.Patterns
import Muster.Proofs.Text.CoordinateLists

namespace Muster

/-! ### What the snapshot answers -/

namespace Troop

variable {t : Troop} {key : String}

/-- **A pattern of one attribute** is met by the value shown under its key. -/
theorem matchesPattern_of_mem {b : Scalar} (h : (key, b) ∈ t.shownAttributes) (a : Scalar) :
    t.snapshot.matchesPattern (.ofAttributes [(key, a)]) = b.agrees a := by
  rw [Config.matchesPattern_attribute, Config.showsAttribute, get_snapshot_of_mem h]
  rfl

/-- A snapshot matches no attribute at a key that it does not show. -/
theorem matchesPattern_of_not_mem (h : key ∉ t.shownAttributes.map Prod.fst) (a : Scalar) :
    t.snapshot.matchesPattern (.ofAttributes [(key, a)]) = false := by
  rw [Config.matchesPattern_attribute, Config.showsAttribute, get_snapshot_of_not_mem h]
  rfl

end Troop

/-- The fields that hold texts and are shown as they are. -/
inductive TextField where
  | id
  | name
  | type
  | race
  | variation
  | role

namespace TextField

/-- The key of the field, in queries and in snapshots. -/
def key : TextField → String
  | id => "id"
  | name => "name"
  | type => "type"
  | race => "race"
  | variation => "variation"
  | role => "role"

/-- What a troop has. -/
def value (t : Troop) : TextField → String
  | id => t.id
  | name => t.name
  | type => t.type
  | race => t.race
  | variation => t.variation
  | role => t.role

/-- No field of texts calls a plug-in. -/
theorem key_ne (f : TextField) : f.key ≠ "formula" ∧ f.key ≠ "lua_function" := by
  cases f <;> decide

/-- **A snapshot shows a text** unless it is empty. -/
theorem mem_shownAttributes (f : TextField) {t : Troop} (h : f.value t ≠ "") :
    (f.key, .str (f.value t)) ∈ t.shownAttributes := by
  cases f <;> simp_all [Troop.shownAttributes, Troop.commonAttributes, Troop.optionalAttributes, key, value]

/-- An empty text is shown as such or left out. -/
theorem get_snapshot_of_empty (f : TextField) {t : Troop} (h : f.value t = "") :
    t.snapshot.get f.key = none ∨ t.snapshot.get f.key = some (.str "") := by
  have hshown : (f.key, .str "") ∈ t.commonAttributes → t.snapshot.get f.key = some (.str "") := fun hkey =>
    Troop.get_snapshot_of_mem (List.mem_append_left _ (List.mem_append_left _ hkey))
  have hleft : f.key ∉ t.shownAttributes.map Prod.fst → t.snapshot.get f.key = none := Troop.get_snapshot_of_not_mem
  cases f with
  | variation | role =>
    -- the two that are left out
    refine .inl (hleft ?_)
    simp_all [Troop.shownAttributes, Troop.commonAttributes, Troop.optionalAttributes, Troop.keys_placeAttributes, key,
      value]
  | _ => exact .inr (hshown (by simp_all [Troop.commonAttributes, key, value]))

/-- **A pattern for a text** asks for what the troop has. -/
theorem matchesPattern_text (f : TextField) {s : String} (hs : s ≠ "") (t : Troop) :
    t.snapshot.matchesPattern (.ofAttributes [(f.key, .str s)]) = (f.value t == s) := by
  by_cases h : f.value t = ""
  · have hne : ("" == s) = false := beq_false_of_ne hs.symm
    rw [Config.matchesPattern_attribute, Config.showsAttribute, h, hne]
    rcases f.get_snapshot_of_empty h with hnone | hempty
    · rw [hnone]
      rfl
    · rw [hempty]
      exact hne
  · exact Troop.matchesPattern_of_mem (f.mem_shownAttributes h) (.str s)

/-- **A field with one item** asks for what the troop has. -/
theorem passes_text (f : TextField) {s : String} (hs : Text.IsItem s) (b : Board) (t : Troop) (l : Location) :
    (Query.fieldTests f.key (.str s)).all (·.holds b t l) = (f.value t == s) := by
  rw [Bool.eq_iff_iff]
  cases f <;>
    simp [Query.fieldTests, Query.plainTests, Query.identityTests, Query.traitTests, Query.textTest, Query.listTest,
      ListField.ofValue, ListField.items, Scalar.text, Text.splitList_item hs, TroopTest.holds, key, value]

end TextField

/-! ### Numbers -/

/-- Integers agree in print when they are the same. -/
theorem Scalar.agrees_int (n m : Int64) : agrees (.int n) (.int m) = (n == m) := by
  rw [Bool.eq_iff_iff, agrees, beq_iff_eq, beq_iff_eq, text, text, String.ofList_inj, Text.Numerals.write_inj]

/-- The fields that hold integers and are shown as they are. -/
inductive ShownNumber where
  | level
  | recallCost
  | side

namespace ShownNumber

/-- The key of the field, in queries and in snapshots. -/
def key : ShownNumber → String
  | level => "level"
  | recallCost => "recall_cost"
  | side => "side"

/-- What a troop has. -/
def value (t : Troop) : ShownNumber → Int64
  | level => t.level
  | recallCost => t.recallCost
  | side => t.side.toInt64

/-- No field of numbers calls a plug-in. -/
theorem key_ne (f : ShownNumber) : f.key ≠ "formula" ∧ f.key ≠ "lua_function" := by
  cases f <;> decide

/-- **A pattern for an integer** asks for what the troop has. -/
theorem matchesPattern_number (f : ShownNumber) (n : Int64) (t : Troop) :
    t.snapshot.matchesPattern (.ofAttributes [(f.key, .int n)]) = (f.value t == n) := by
  have hmem : (f.key, .int (f.value t)) ∈ t.shownAttributes := by
    cases f <;> simp [Troop.shownAttributes, Troop.commonAttributes, key, value]
  rw [Troop.matchesPattern_of_mem hmem, Scalar.agrees_int]

/-- **A field with one integer** asks for what the troop has. -/
theorem passes_number (f : ShownNumber) (n : Int64) (b : Board) (t : Troop) (l : Location) :
    (Query.fieldTests f.key (.int n)).all (·.holds b t l) = (f.value t == n) := by
  have hdenotes : (Scalar.int n).denotes? = some n := (Scalar.toInt?_eq_denotes? rfl).symm
  have hone : ∀ g : NumberField, (Query.fieldTests g.key (.int n)).all (·.holds b t l) = true ↔ g.value b t l = n := by
    intro g
    rw [Query.passes_number_iff g rfl b t l, hdenotes, Option.getD_some, eq_comm]
  rw [Bool.eq_iff_iff, beq_iff_eq]
  cases f with
  | level => exact hone .level
  | recallCost => exact hone .recallCost
  | side =>
    have hitems : Text.splitList (Scalar.text (.int n)) = [Scalar.text (.int n)] :=
      Text.splitList_item (Text.Numerals.isItem_write n.toInt)
    have hlisted : t.sideNumeral = Scalar.text (.int n) ↔ t.side.toInt64 = n := by
      rw [Troop.sideNumeral, Scalar.text, String.ofList_inj, ← Int32.toInt_toInt64, Text.Numerals.write_inj]
    refine (Query.passes_side_iff rfl (by rw [hitems]; exact List.cons_ne_nil _ _) (.inr ?_) b l).trans ?_
    · rw [hdenotes]
      rfl
    · rw [hitems, List.mem_singleton, hlisted, hdenotes, Option.some.injEq, eq_comm (a := n), or_self]
      rfl

end ShownNumber

/-! ### Coordinates -/

namespace Location

open Text

/-- **A numeral as a coordinate list** names one coordinate, counted from one. -/
theorem coordinateFits_write {n : Int} (hleast : 1 ≤ n) (hgreatest : n ≤ 0x7FFFFFFF) (x : Int) :
    coordinateFits x (Numerals.write n) = (n == x + 1) := by
  obtain ⟨k, rfl⟩ := Int.eq_ofNat_of_zero_le (Int.le_trans (by decide) hleast)
  have hminus : '-' ∉ Numerals.write k := fun hmem => absurd (Numerals.isDigit_of_mem_toDigits hmem) (by decide)
  have hnumeral : Int32Numeral (Numerals.write k) k := Interval.int32Numeral_write (by omega) hgreatest
  rw [coordinateFits_of_no_minus (Numerals.trim_write k) Nat.toDigits_ne_nil hminus, bound_of_numeral hnumeral]
  rfl

/-- Two numerals from 1 on fit one location: as coordinates they count from one, and the location
counts from zero. -/
theorem fits_write {n m : Int} (hn : 1 ≤ n ∧ n ≤ 0x7FFFFFFF) (hm : 1 ≤ m ∧ m ≤ 0x7FFFFFFF) (l : Location) :
    l.fits (String.ofList (Numerals.write n)) (String.ofList (Numerals.write m)) = (n == l.x + 1 && m == l.y + 1) := by
  rw [fits, Numerals.commaPieces_write, Numerals.commaPieces_write, pairUp, pairUp, List.map_nil, List.any_cons,
    List.any_nil, Bool.or_false, coordinateFits_write hn.1 hn.2, coordinateFits_write hm.1 hm.2]

end Location

/-- A troop on the map shows its coordinates counted from one. -/
theorem Troop.showsAttribute_coordinate {t : Troop} {key : String} {c : Int} {n : Int64}
    (hkey : (key, .int (Int64.ofInt (c + 1))) ∈ t.placeAttributes) (hc : 0 ≤ c ∧ c ≤ 0x7FFFFFFF) :
    t.snapshot.showsAttribute key (.int n) = (n.toInt == c + 1) := by
  have hofInt : (Int64.ofInt (c + 1)).toInt = c + 1 := Int64.toInt_ofInt_of_le (by omega) (by omega)
  rw [← Config.matchesPattern_attribute, matchesPattern_of_mem (List.mem_append_right _ hkey), Scalar.agrees_int,
    Bool.eq_iff_iff, beq_iff_eq, beq_iff_eq, ← Int64.toInt_inj, hofInt, eq_comm]

/-- No integer prints as the word for the reserve. -/
theorem Scalar.text_int_ne_recall (n : Int64) : text (.int n) ≠ "recall" := by
  intro h
  have hr : 'r' ∈ Text.Numerals.write n.toInt := by
    rw [← String.toList_ofList (l := Text.Numerals.write n.toInt)]
    exact (congrArg ('r' ∈ String.toList ·) h).mpr (by decide)
  rcases Text.Numerals.isDigit_or_of_mem_write hr with hdigit | hminus
  · exact absurd hdigit (by decide)
  · exact absurd hminus (by decide)

/-- **A pattern for the coordinates** asks where the troop stands. -/
theorem Troop.matchesPattern_coordinates {t : Troop} (hx : t.location.x ≤ 0x7FFFFFFF) (hy : t.location.y ≤ 0x7FFFFFFF)
    {n m : Int64} (hn : 1 ≤ n.toInt) (hm : 1 ≤ m.toInt) :
    t.snapshot.matchesPattern (.ofAttributes [("x", .int n), ("y", .int m)]) =
      (n.toInt == t.location.x + 1 && m.toInt == t.location.y + 1) := by
  have hkeys : ([("x", Scalar.int n), ("y", .int m)].map Prod.fst).Nodup := by
    simp only [List.map_cons, List.map_nil]
    decide
  rw [Config.matchesPattern_ofAttributes _ hkeys, List.all_cons, List.all_cons, List.all_nil, Bool.and_true]
  cases hvalid : t.location.isValid with
  | true =>
    have hbounds : 0 ≤ t.location.x ∧ 0 ≤ t.location.y := by simpa [Location.isValid] using hvalid
    rw [showsAttribute_coordinate (by simp [placeAttributes, hvalid]) ⟨hbounds.1, hx⟩,
      showsAttribute_coordinate (by simp [placeAttributes, hvalid]) ⟨hbounds.2, hy⟩]
  | false =>
    have hmem : ("x", .str "recall") ∈ t.placeAttributes := by simp [placeAttributes, hvalid]
    have hshown : t.snapshot.showsAttribute "x" (.int n) = false := by
      rw [← Config.matchesPattern_attribute, matchesPattern_of_mem (List.mem_append_right _ hmem)]
      exact beq_false_of_ne (Scalar.text_int_ne_recall n).symm
    have hplace : (n.toInt == t.location.x + 1 && m.toInt == t.location.y + 1) = false := by
      rw [Bool.eq_false_iff]
      intro h
      simp only [Location.isValid, Bool.and_eq_false_iff, decide_eq_false_iff_not, Bool.and_eq_true,
        beq_iff_eq] at hvalid h
      omega
    rw [hshown, hplace, Bool.false_and]

/-! ### Guardians, weapons and abilities -/

/-- **A pattern for the mark of a guardian** is met by guardians only. -/
theorem Troop.matchesPattern_guardian (t : Troop) :
    t.snapshot.matchesPattern (.ofAttributes [("ai_special", .str "guardian")]) = (t.isGuardian == true) := by
  cases hguardian : t.isGuardian with
  | true =>
    have hmem : ("ai_special", .str "guardian") ∈ t.shownAttributes := by
      simp [shownAttributes, optionalAttributes, hguardian]
    rw [matchesPattern_of_mem hmem]
    decide
  | false =>
    have hmem : "ai_special" ∉ t.shownAttributes.map Prod.fst := by
      simp [shownAttributes, commonAttributes, optionalAttributes, keys_placeAttributes, hguardian]
    rw [matchesPattern_of_not_mem hmem]
    rfl

/-- **A pattern for a weapon** asks for one of that name. -/
theorem Troop.matchesPattern_weapon (t : Troop) (s : String) :
    t.snapshot.matchesPattern (.wrap "attack" (.ofAttributes [("name", .str s)])) = t.hasWeapon s := by
  have hname : ∀ a : Attack, a.snapshot.matchesPattern (.ofAttributes [("name", .str s)]) = (a.id == s) := by
    intro a
    have hkeys : ([("name", Scalar.str a.id), ("range", .str a.range), ("damage", .int a.damage.toInt64),
        ("number", .int a.number.toInt64)].map Prod.fst).Nodup := by
      simp only [List.map_cons, List.map_nil]
      decide
    have hget : a.snapshot.get "name" = some (.str a.id) := Config.get?_ofList_of_mem hkeys (List.mem_cons_self ..)
    rw [Config.matchesPattern_attribute, Config.showsAttribute, hget]
    rfl
  rw [Config.matchesPattern_wrap _ (by decide), t.childrenAt_snapshot, hasWeapon]
  simp [hname, Function.comp_def]

/-- **A pattern for an ability** asks for a child of its name. -/
theorem Troop.matchesPattern_ability (t : Troop) {s : String} (hs : s ≠ "not") :
    t.snapshot.matchesPattern (.wrap "abilities" (.wrap s .empty)) = t.hasAbility s := by
  have hchild : (t.abilitiesSnapshot.childrenAt s).any (·.matchesPattern .empty) = t.abilities.contains s := by
    rw [Bool.eq_iff_iff, List.any_eq_true, List.contains_iff_mem]
    constructor
    · rintro ⟨c, hc, -⟩
      obtain ⟨a, ha, hac⟩ := List.mem_map.1 (Config.mem_valuesAt.1 hc)
      obtain rfl := congrArg Prod.fst hac
      exact ha
    · intro h
      exact ⟨_, Config.mem_valuesAt.2 (List.mem_map_of_mem h), Config.matchesPattern_empty _⟩
  rw [Config.matchesPattern_wrap _ (by decide), t.childrenAt_snapshot, hasAbility, ← hchild]
  by_cases habilities : t.abilities = []
  · simp [habilities, abilitiesSnapshot, Config.childrenAt]
  · simp [habilities, Config.matchesPattern_wrap _ hs]

/-! ### Queries and their patterns -/

/-- A query of fields and the pattern that asks the same of a snapshot. -/
inductive Mirrors : Config → Config → Prop where
  | text (f : TextField) {s : String} (hs : Text.IsItem s) :
      Mirrors (.ofAttributes [(f.key, .str s)]) (.ofAttributes [(f.key, .str s)])
  | number (f : ShownNumber) (n : Int64) : Mirrors (.ofAttributes [(f.key, .int n)]) (.ofAttributes [(f.key, .int n)])
  | canRecruit (b : Bool) :
      Mirrors (.ofAttributes [("canrecruit", .bool b)]) (.ofAttributes [("canrecruit", .bool b)])
  | gender (g : Gender) :
      Mirrors (.ofAttributes [("gender", .str g.name)]) (.ofAttributes [("gender", .str g.name)])
  | guardian :
      Mirrors (.ofAttributes [("ai_special", .str "guardian")]) (.ofAttributes [("ai_special", .str "guardian")])
  | weapon {s : String} (hs : Text.IsItem s) :
      Mirrors (.ofAttributes [("has_weapon", .str s)]) (.wrap "attack" (.ofAttributes [("name", .str s)]))
  | ability {s : String} (hs : Text.IsItem s) (hnot : s ≠ "not") :
      Mirrors (.ofAttributes [("ability", .str s)]) (.wrap "abilities" (.wrap s .empty))
  | coordinates {n m : Int64} (hn : 1 ≤ n.toInt ∧ n.toInt ≤ 0x7FFFFFFF) (hm : 1 ≤ m.toInt ∧ m.toInt ≤ 0x7FFFFFFF) :
      Mirrors (.ofAttributes [("x", .int n), ("y", .int m)]) (.ofAttributes [("x", .int n), ("y", .int m)])

namespace Query

/-! ### The tests of single fields -/

/-- The field `canrecruit` compiles to one test. -/
theorem fieldTests_canRecruit (b : Bool) : fieldTests "canrecruit" (.bool b) = [.canRecruit b] := by
  simp [fieldTests, plainTests, identityTests, traitTests, boolTest, Value.toBool, Scalar.toBool?]

/-- The field `gender`, with the name of a gender, compiles to one test. -/
theorem fieldTests_gender (g : Gender) : fieldTests "gender" (.str g.name) = [.gender g] := by
  simp [fieldTests, plainTests, identityTests, traitTests, textTest, Scalar.text]

/-- The field `ai_special`, asking for guardians, compiles to one test. -/
theorem fieldTests_guardian : fieldTests "ai_special" (.str "guardian") = [.guardian true] := by
  simp [fieldTests, plainTests, identityTests, traitTests, textTest, Scalar.text]

/-- The field `has_weapon` compiles to one test. -/
theorem fieldTests_weapon (s : String) : fieldTests "has_weapon" (.str s) = [.weapon s] := by
  simp [fieldTests, plainTests, identityTests, traitTests, textTest, Scalar.text]

/-- The field `ability`, with one item, compiles to one test. -/
theorem fieldTests_ability {s : String} (hs : Text.IsItem s) : fieldTests "ability" (.str s) = [.ability [s]] := by
  simp [fieldTests, plainTests, identityTests, traitTests, listTest, ListField.ofValue, ListField.items, Scalar.text,
    Text.splitList_item hs]

/-- **Two coordinates** make one test. -/
theorem plainTests_coordinates (n m : Int64) :
    plainTests (Table.ofList [("x", .int n), ("y", .int m)]).get? [] =
      [.coordinates (Scalar.text (.int n)) (Scalar.text (.int m))] := by
  have hget : (Table.ofList [("x", Scalar.int n), ("y", .int m)]).get? = fun k =>
      if k = "x" then some (.int n) else if k = "y" then some (.int m) else none := by
    funext k
    rw [Table.get?_ofList (by simp; decide), Table.lookup, Table.lookup, Table.lookup]
    simp
  have hrecall : Value.prints (some (.int n)) "recall" = false := beq_false_of_ne (Scalar.text_int_ne_recall n)
  have hempty : Value.isEmpty (some (.int n)) = false :=
    String.isEmpty_eq_false_iff.2 (Text.Numerals.isItem_write n.toInt).ne_empty
  simp [hget, plainTests, identityTests, traitTests, coordinateTests, hrecall, hempty, Value.text]

/-! ### In a context -/

variable {σ : Type} (ctx : Context σ) (flat : Bool) (t : Troop) (l : Location) (made asked : Scope)

/-- A field that makes one test says what the test says. -/
theorem says_of_fieldTests {key : String} {a : Scalar} {test : TroopTest} (hformula : key ≠ "formula")
    (hscript : key ≠ "lua_function") (htests : fieldTests key a = [test]) :
    Says ctx flat (s := .troop) (t, l) made asked (.ofAttributes [(key, a)]) (test.holds ctx.toBoard t l) := by
  have hsays := says_field ctx flat hformula hscript a t l made asked
  rwa [htests, List.all_cons, List.all_nil, Bool.and_true] at hsays

/-- **Two coordinates** say whether a location is theirs. -/
theorem says_coordinates {n m : Int64} (hn : 1 ≤ n.toInt ∧ n.toInt ≤ 0x7FFFFFFF)
    (hm : 1 ≤ m.toInt ∧ m.toInt ≤ 0x7FFFFFFF) :
    Says ctx flat (s := .troop) (t, l) made asked (.ofAttributes [("x", .int n), ("y", .int m)])
      (n.toInt == l.x + 1 && m.toInt == l.y + 1) := by
  have hsays := says_plain ctx flat (Table.ofList [("x", .int n), ("y", .int m)])
    (Config.get?_ofList_of_not_mem (by simp)) (Config.get?_ofList_of_not_mem (by simp)) [] t l made asked
  rw [plainTests_coordinates, List.all_cons, List.all_nil, Bool.and_true] at hsays
  rw [← l.fits_write hn hm]
  exact hsays

/-- **What a snapshot mirrors.**  Take a query and the pattern that asks the same of a
snapshot, and a troop checked where it stands, in any context and in any scopes.  The
query compiles and says of the troop whether its snapshot matches the pattern, and so
does the query that consists of the pattern. -/
theorem says_of_mirrors {q p : Config} (h : Mirrors q p) (hx : t.location.x ≤ 0x7FFFFFFF)
    (hy : t.location.y ≤ 0x7FFFFFFF) :
    Says ctx flat (s := .troop) (t, t.location) made asked q (t.snapshot.matchesPattern p) ∧
      Says ctx flat (s := .troop) (t, t.location) made asked (.wrap "filter_wml" p) (t.snapshot.matchesPattern p) := by
  have hpattern := says_patterns ctx flat [p] t t.location made asked
  rw [List.all_cons, List.all_nil, Bool.and_true] at hpattern
  refine ⟨?_, hpattern⟩
  cases h with
  | text f hs =>
    rw [f.matchesPattern_text hs.ne_empty, ← f.passes_text hs ctx.toBoard t t.location]
    exact says_field ctx flat f.key_ne.1 f.key_ne.2 _ t _ made asked
  | number f n =>
    rw [f.matchesPattern_number, ← f.passes_number n ctx.toBoard t t.location]
    exact says_field ctx flat f.key_ne.1 f.key_ne.2 _ t _ made asked
  | canRecruit b =>
    have hmem : ("canrecruit", .bool t.canRecruit) ∈ t.shownAttributes := by
      simp [Troop.shownAttributes, Troop.commonAttributes]
    have hagrees : (Scalar.bool t.canRecruit).agrees (.bool b) = (t.canRecruit == b) := by
      cases t.canRecruit <;> cases b <;> decide
    rw [Troop.matchesPattern_of_mem hmem, hagrees]
    exact says_of_fieldTests ctx flat t _ made asked (by decide) (by decide) (fieldTests_canRecruit b)
  | gender g =>
    have hmem : ("gender", .str t.gender.name) ∈ t.shownAttributes := by
      simp [Troop.shownAttributes, Troop.commonAttributes]
    have hagrees : (Scalar.str t.gender.name).agrees (.str g.name) = (t.gender == g) := by
      cases t.gender <;> cases g <;> decide
    rw [Troop.matchesPattern_of_mem hmem, hagrees]
    exact says_of_fieldTests ctx flat t _ made asked (by decide) (by decide) (fieldTests_gender g)
  | guardian =>
    rw [t.matchesPattern_guardian]
    exact says_of_fieldTests ctx flat t _ made asked (by decide) (by decide) fieldTests_guardian
  | weapon hs =>
    rw [t.matchesPattern_weapon]
    exact says_of_fieldTests ctx flat t _ made asked (by decide) (by decide) (fieldTests_weapon _)
  | @ability s hs hnot =>
    have hone : t.hasAbility s = [s].any t.hasAbility := (Bool.or_false _).symm
    rw [t.matchesPattern_ability hnot, hone]
    exact says_of_fieldTests ctx flat t _ made asked (by decide) (by decide) (fieldTests_ability hs)
  | coordinates hn hm =>
    rw [t.matchesPattern_coordinates hx hy hn.1 hm.1]
    exact says_coordinates ctx flat t t.location made asked hn hm

/-- The picket by its coordinates. -/
def picketPlace : Config := .ofAttributes [("x", .int 2), ("y", .int 1)]

/-- What `says_of_mirrors` says of the picket and its coordinates. -/
theorem says_of_mirrors_picketPlace :
    Mirrors picketPlace picketPlace ∧ picket.location.x ≤ 0x7FFFFFFF ∧ picket.location.y ≤ 0x7FFFFFFF ∧
      Says meadow false (s := .troop) (picket, ⟨1, 0⟩) .empty .empty picketPlace true ∧
      Says meadow false (s := .troop) (picket, ⟨1, 0⟩) .empty .empty (.wrap "filter_wml" picketPlace) true := by
  have hmirrors : Mirrors picketPlace picketPlace := .coordinates (by decide) (by decide)
  have hmatches : picket.snapshot.matchesPattern picketPlace = true := by decide
  have hsays := says_of_mirrors meadow false picket .empty .empty hmirrors (by decide) (by decide)
  rw [hmatches] at hsays
  exact ⟨hmirrors, by decide, by decide, hsays.1, hsays.2⟩

end Query
end Muster
