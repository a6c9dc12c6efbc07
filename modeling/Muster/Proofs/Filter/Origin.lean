/-
# Where compiled filters come from

Every part of a compiled filter comes from one part of its query: an own test from
a field or from a child, a conditional from a child (`Query.forall_mem_ownTests`,
`Oracle.exists_of_mem_clauses`).  Two principles follow, and spare later proofs the
recursion of the compiler.

A statement about a query and its filter holds of every query if it holds of the
tests of the fields, passes from children to their clauses, and survives putting
these together (`Oracle.compiled_of_inherits`).

Two boards compile a query alike if their sides pass alike wherever the query asks
for viewers (`Oracle.compiled_congr`): nothing else is looked at while compiling.
-/

import Muster.Proofs.Filter.Verdict

namespace Muster

/-! ### Tags -/

/-- The tag of a conditional. -/
def Conditional.tag : Conditional → String
  | and => "and"
  | or => "or"
  | not => "not"

/-- The tag under which a child plays a part. -/
def Part.tag {s inner : Subject} : Part s inner → String
  | conditional c => c.tag
  | location => "filter_location"
  | side => "filter_side"
  | adjacent => "filter_adjacent"
  | vision => "filter_vision"
  | enemyOf => "enemy_of"
  | alliedWith => "allied_with"
  | hasTroop => "has_unit"
  | occupant => "filter"

namespace TagMeaning

variable {s inner : Subject} {tag : String}

/-- A part has one tag. -/
theorem eq_tag_of_part {p : Part s inner} (h : ofTag s tag = part inner p) : tag = p.tag := by
  unfold ofTag Conditional.ofTag? at h
  split at h
  · next hc =>
    cases h
    split at hc <;> cases hc <;> rfl
  · unfold ofOwnTag at h
    split at h <;> cases h <;> rfl

/-- **A child that is no query** is a pattern of a query over troops. -/
theorem forall_pattern {P : ∀ {s : Subject}, String → Filter s → Prop} {child : Config}
    (hP : P "filter_wml" (.troopTest (Query.patternTest child))) {test : Config → Filter s}
    (h : ofTag s tag = pattern test) : P tag (test child) := by
  unfold ofTag ofOwnTag at h
  split at h
  · cases h
  · split at h <;> cases h
    exact hP

end TagMeaning

/-! ### Clauses and own tests -/

/-- Whether a test holds a pattern. -/
def TroopTest.hasPattern : TroopTest → Bool
  | stored _ => true
  | snapshot _ => true
  | _ => false

/-- The filter that a clause adds. -/
def Clause.filter {s : Subject} : Clause s → Filter s
  | .conditional _ f => f
  | .own _ f => f

namespace Query

variable {s : Subject} {flat : Bool} {get : String → Value} {cs : List (Clause s)} {f : Filter s}

/-- A filter in a slot comes from a clause for the slot. -/
theorem mem_of_mem_inSlot {slot : Slot} (h : f ∈ Clause.inSlot slot cs) : .own slot f ∈ cs := by
  obtain ⟨c, hc, hcf⟩ := List.mem_filterMap.1 h
  cases c with
  | conditional => simp at hcf
  | own slot' g =>
    simp only [Option.ite_none_right_eq_some, Option.some.injEq] at hcf
    obtain ⟨rfl, rfl⟩ := hcf
    exact hc

/-- The last filter in a slot comes from a clause for the slot. -/
theorem mem_of_mem_lastInSlot {slot : Slot} (h : f ∈ Clause.lastInSlot slot cs) : .own slot f ∈ cs :=
  mem_of_mem_inSlot (List.mem_of_getLast? (Option.mem_toList.1 h))

/-- **An own test comes from a field or from a clause.** -/
theorem forall_mem_ownTests {P : Filter s → Prop} (hfields : ∀ f ∈ ownTests flat get s [], P f)
    (hclauses : ∀ slot f, .own slot f ∈ cs → P f) : ∀ f ∈ ownTests flat get s cs, P f := by
  have hslot : ∀ slot, ∀ f ∈ Clause.inSlot slot cs, P f := fun slot f hf => hclauses slot f (mem_of_mem_inSlot hf)
  have hlast : ∀ slot, ∀ f ∈ Clause.lastInSlot slot cs, P f := fun slot f hf =>
    hclauses slot f (mem_of_mem_lastInSlot hf)
  cases s with
  | troop =>
    simp only [ownTests, List.forall_mem_append] at hfields ⊢
    obtain ⟨⟨⟨⟨⟨⟨⟨hidentity, -⟩, -⟩, htraits⟩, -⟩, -⟩, -⟩, hlookups⟩ := hfields
    exact ⟨⟨⟨⟨⟨⟨⟨hidentity, hslot _⟩, hslot _⟩, htraits⟩, hslot _⟩, hslot _⟩, hslot _⟩, hlookups⟩
  | side =>
    simp only [ownTests, List.forall_mem_append] at hfields ⊢
    exact ⟨⟨⟨hfields.1.1.1, hlast _⟩, hlast _⟩, hlast _⟩
  | place =>
    simp only [ownTests, List.forall_mem_append] at hfields ⊢
    exact ⟨hfields.1, hslot _⟩

/-- A test that is there has a property that all such tests have. -/
theorem forall_mem_toList_map {α β : Type} {P : β → Prop} {v : Option α} {g : α → β} (h : ∀ a, P (g a)) :
    ∀ b ∈ (v.map g).toList, P b := by
  intro b hb
  obtain ⟨a, -, rfl⟩ := Option.map_eq_some_iff.1 (Option.mem_toList.1 hb)
  exact h a

/-- The test of a list has a property that it has for all items. -/
theorem forall_mem_listTest {α : Type} {P : α → Prop} {v : Value} {test : List String → α}
    (h : ∀ items, P (test items)) : ∀ a ∈ listTest v test, P a := by
  unfold listTest
  split
  · exact fun _ ha => absurd ha List.not_mem_nil
  · exact List.forall_mem_singleton.2 (h _)

/-- The fields of a troop make no test with a pattern. -/
theorem hasPattern_of_mem (get : String → Value) :
    ∀ test ∈ identityTests get ++ traitTests get, test.hasPattern = false := by
  have hcoordinates : ∀ test ∈ coordinateTests (get "x") (get "y"), test.hasPattern = false := by
    unfold coordinateTests
    split
    · exact fun _ h => absurd h List.not_mem_nil
    · split
      · simp [TroopTest.hasPattern]
      · split <;> simp [TroopTest.hasPattern]
  simp only [identityTests, traitTests, List.forall_mem_append]
  repeat' apply And.intro
  all_goals first
    | exact hcoordinates
    | exact forall_mem_listTest fun _ => rfl
    | exact forall_mem_toList_map fun _ => rfl

/-- The fields of a troop make no test of its snapshot. -/
theorem ne_snapshot_of_mem (get : String → Value) :
    ∀ test ∈ identityTests get ++ traitTests get, ∀ pattern, test ≠ .snapshot pattern := by
  rintro test htest pattern rfl
  exact absurd (hasPattern_of_mem get _ htest) nofun

/-- **A field makes a single test, a formula or a script.** -/
theorem forall_mem_fieldTests {P : ∀ {s : Subject}, Filter s → Prop}
    (troop : ∀ {test : TroopTest}, (∀ pattern, test ≠ .snapshot pattern) → P (.troopTest test))
    (side : ∀ {test : SideTest}, P (.sideTest test)) (place : ∀ {test : PlaceTest}, P (.placeTest test))
    (formula : ∀ {text : String}, P (.formula text)) (script : ∀ {name : String}, P (.script name)) :
    ∀ f ∈ ownTests flat get s [], P f := by
  cases s with
  | troop =>
    have hfields := List.forall_mem_append.1 (ne_snapshot_of_mem get)
    have hempty : ∀ slot, ∀ f ∈ Clause.inSlot slot ([] : List (Clause .troop)), P f := fun _ _ h =>
      absurd h List.not_mem_nil
    simp only [ownTests, lookupTests, List.forall_mem_append, List.forall_mem_map]
    exact ⟨⟨⟨⟨⟨⟨⟨fun test h => troop (hfields.1 test h), hempty _⟩, hempty _⟩, fun test h => troop (hfields.2 test h)⟩,
      hempty _⟩, hempty _⟩, hempty _⟩, ⟨forall_mem_toList_map fun _ => troop fun _ => nofun,
        forall_mem_toList_map fun _ => formula⟩, forall_mem_toList_map fun _ => script⟩
  | side =>
    have hempty : ∀ slot, ∀ f ∈ Clause.lastInSlot slot ([] : List (Clause .side)), P f := fun _ _ h =>
      absurd h List.not_mem_nil
    simp only [ownTests, List.forall_mem_append, List.forall_mem_map]
    exact ⟨⟨⟨fun _ _ => side, hempty _⟩, hempty _⟩, hempty _⟩
  | place =>
    have hempty : ∀ slot, ∀ f ∈ Clause.inSlot slot ([] : List (Clause .place)), P f := fun _ _ h =>
      absurd h List.not_mem_nil
    simp only [ownTests, List.forall_mem_append, List.forall_mem_map]
    exact ⟨fun _ _ => place, hempty _⟩

end Query

/-! ### Statements that compiling keeps -/

/-- A property of filters that putting tests and conditionals together keeps. -/
structure Filter.Closed (Q : ∀ {s : Subject}, Filter s → Prop) : Prop where
  pass : ∀ {s : Subject}, Q (.pass : Filter s)
  both : ∀ {s : Subject} {f g : Filter s}, Q f → Q g → Q (.both f g)
  joined : ∀ {s : Subject} {c : Conditional} {f g : Filter s}, Q f → Q g → Q (.joined c f g)
  bound : ∀ {f : Filter .troop}, Q f → Q (.bound f)
  teamed : ∀ {f : Filter .side}, Q f → Q (.teamed f)
  onMap : ∀ {f : Filter .place}, Q f → Q (.onMap f)

namespace Query

variable {s : Subject} {flat : Bool} {get : String → Value} {cs : List (Clause s)}

section

variable {Q : ∀ {s : Subject}, Filter s → Prop} (hQ : Filter.Closed Q)

include hQ

/-- A conjunction has a closed property that its parts have. -/
theorem closed_all : ∀ {fs : List (Filter s)}, (∀ f ∈ fs, Q f) → Q (Filter.all fs)
  | [], _ => hQ.pass
  | f :: _, h => hQ.both (h f (List.mem_cons_self ..)) (closed_all fun g hg => h g (List.mem_cons_of_mem _ hg))

/-- A filter with conditionals joined to it has a closed property that it and they have. -/
theorem closed_joinConditionals {f : Filter s} (hf : Q f) (hcs : ∀ c ∈ cs, Q c.filter) :
    Q (Clause.joinConditionals f cs) := by
  induction cs generalizing f with
  | nil => exact hf
  | cons c cs ih =>
    have hc := hcs c (List.mem_cons_self ..)
    have hrest : ∀ d ∈ cs, Q d.filter := fun d hd => hcs d (List.mem_cons_of_mem _ hd)
    cases c with
    | conditional c g => exact ih (hQ.joined hf hc) hrest
    | own slot g => exact ih hf hrest

/-- **What holds of the fields and of the clauses holds of the filter.** -/
theorem closed_assemble (hfields : ∀ f ∈ ownTests flat get s [], Q f) (hcs : ∀ c ∈ cs, Q c.filter) :
    Q (assemble flat get s cs) := by
  have hown : Q (Filter.all (ownTests flat get s cs)) :=
    closed_all hQ (forall_mem_ownTests hfields fun _ _ hf => hcs _ hf)
  cases s with
  | troop => exact closed_joinConditionals hQ (hQ.bound hown) hcs
  | side => exact hQ.teamed (closed_joinConditionals hQ hown hcs)
  | place => exact hQ.onMap (closed_joinConditionals hQ hown hcs)

end

end Query

namespace Oracle

variable {o o' : Oracle} {flat : Bool} {made : Scope}

/-- A clause that a child of a query makes: a pattern by itself, or a query through its filter. -/
inductive Makes (o : Oracle) (flat : Bool) (made : Scope) {s : Subject} (tag : String) (child : Config) :
    Clause s → Prop where
  | pattern {test : Config → Filter s} (h : TagMeaning.ofTag s tag = .pattern test) :
      Makes o flat made tag child (.own .pattern (test child))
  | part {inner : Subject} {p : Part s inner} {f : Filter inner} (h : TagMeaning.ofTag s tag = .part inner p)
      (hf : o.compiled flat inner child made = .ok f) :
      Makes o flat made tag child (Clause.ofPart o.setting child.get p f made)

/-- **Every clause is made by a child.** -/
theorem exists_of_mem_clauses {s : Subject} {seen : List Slot} {cs : List (String × Config)} {cl : List (Clause s)}
    (h : o.clauses flat s seen cs made = .ok cl) :
    ∀ c ∈ cl, ∃ tag child, (tag, child) ∈ cs ∧ o.Makes flat made tag child c := by
  induction cs generalizing seen cl with
  | nil =>
    obtain rfl := Except.ok.inj h
    exact fun _ hc => absurd hc List.not_mem_nil
  | cons e cs ih =>
    obtain ⟨tag, child⟩ := e
    have hlater : ∀ {seen' cl'}, o.clauses flat s seen' cs made = .ok cl' →
        ∀ c ∈ cl', ∃ tag' child', (tag', child') ∈ (tag, child) :: cs ∧ o.Makes flat made tag' child' c := by
      intro seen' cl' h' c hc
      obtain ⟨tag', child', hmem, hmakes⟩ := ih h' c hc
      exact ⟨tag', child', List.mem_cons_of_mem _ hmem, hmakes⟩
    rw [clauses_cons] at h
    cases hm : TagMeaning.ofTag s tag with
    | ignored =>
      rw [hm] at h
      exact hlater h
    | pattern test =>
      rw [hm] at h
      obtain ⟨cl', hcl', rfl⟩ := map_eq_ok_iff.1 h
      exact List.forall_mem_cons.2 ⟨⟨tag, child, List.mem_cons_self .., .pattern hm⟩, hlater hcl'⟩
    | part inner p =>
      rw [hm] at h
      obtain ⟨seen', -, h⟩ := bind_eq_ok_iff.1 h
      obtain ⟨f, hf, h⟩ := bind_eq_ok_iff.1 h
      obtain ⟨cl', hcl', rfl⟩ := map_eq_ok_iff.1 h
      exact List.forall_mem_cons.2 ⟨⟨tag, child, List.mem_cons_self .., .part hm hf⟩, hlater hcl'⟩

/-- A relation between queries and filters that compiling passes on from the fields
and the children of a query to its filter. -/
structure Inherits (o : Oracle) (flat : Bool) (made : Scope) (Q : ∀ {s : Subject}, Config → Filter s → Prop) :
    Prop where
  closed : ∀ q, Filter.Closed fun f => Q q f
  fields : ∀ {s : Subject} (q : Config), ∀ f ∈ Query.ownTests flat q.get s [], Q q f
  pattern : ∀ {q child : Config}, ("filter_wml", child) ∈ q.children → Q q (.troopTest (Query.patternTest child))
  part : ∀ {s inner : Subject} {q child : Config} (p : Part s inner) {f : Filter inner},
    (p.tag, child) ∈ q.children → Q child f → Q q (Clause.ofPart o.setting child.get p f made).filter

/-- **What compiling passes on holds of every query and its filter.** -/
theorem compiled_of_inherits {Q : ∀ {s : Subject}, Config → Filter s → Prop} (hQ : o.Inherits flat made Q) :
    ∀ (q : Config) {s : Subject} {f : Filter s}, o.compiled flat s q made = .ok f → Q q f := by
  refine Config.induct fun as cs ih s f hf => ?_
  rw [compiled_node] at hf
  split at hf
  · obtain rfl := Except.ok.inj hf
    exact (hQ.closed _).pass
  · obtain ⟨cl, hcl, rfl⟩ := map_eq_ok_iff.1 hf
    refine Query.closed_assemble (hQ.closed _) (hQ.fields (.node as cs)) fun c hc => ?_
    obtain ⟨tag, child, hmem, hmakes⟩ := exists_of_mem_clauses hcl c hc
    cases hmakes with
    | pattern hm =>
      exact TagMeaning.forall_pattern
        (P := fun tag f => (tag, child) ∈ (Config.node as cs).children → Q (.node as cs) f) hQ.pattern hm hmem
    | part hm hg =>
      have hchild := ih _ hmem hg
      obtain rfl := TagMeaning.eq_tag_of_part hm
      exact hQ.part _ hmem hchild

/-! ### Boards that compile alike -/

/-- Two oracles select the same sides by a filter, if it is one over sides. -/
def SelectAlike (o o' : Oracle) (made : Scope) : {s : Subject} → Filter s → Prop
  | .side, f => o.sides f made = o'.sides f made
  | _, _ => True

/-- A clause depends on the board only by the sides that a vision clause selects. -/
theorem ofPart_congr (get : String → Value) :
    ∀ {s inner : Subject} (p : Part s inner) {f : Filter inner} (_ : o.SelectAlike o' made f),
      Clause.ofPart o.setting get p f made = Clause.ofPart o'.setting get p f made
  | _, _, .vision, f, h => by
    change Clause.own .vision (.troopTest (.seen (o.sides f made) _)) =
      Clause.own .vision (.troopTest (.seen (o'.sides f made) _))
    rw [show o.sides f made = o'.sides f made from h]
  | _, _, .conditional _, _, _ => rfl
  | _, _, .location, _, _ => rfl
  | _, _, .side, _, _ => rfl
  | _, _, .adjacent, _, _ => rfl
  | _, _, .enemyOf, _, _ => rfl
  | _, _, .alliedWith, _, _ => rfl
  | _, _, .hasTroop, _, _ => rfl
  | _, _, .occupant, _, _ => rfl

/-- Two steps are the same if the second is where the first succeeds. -/
theorem bind_congr {ε α β : Type} {x : Except ε α} {f g : α → Except ε β} (h : ∀ a, x = .ok a → f a = g a) :
    x.bind f = x.bind g := by
  cases x with
  | error => rfl
  | ok a => exact h a rfl

/-- Children compile alike if each of them does by itself and selects the same sides. -/
theorem clauses_congr {s : Subject} {cs : List (String × Config)}
    (h : ∀ tag child, (tag, child) ∈ cs → ∀ inner (p : Part s inner), TagMeaning.ofTag s tag = .part inner p →
      o.compiled flat inner child made = o'.compiled flat inner child made ∧
        ∀ f, o.compiled flat inner child made = .ok f → o.SelectAlike o' made f) (seen : List Slot) :
    o.clauses flat s seen cs made = o'.clauses flat s seen cs made := by
  induction cs generalizing seen with
  | nil => rfl
  | cons e cs ih =>
    obtain ⟨tag, child⟩ := e
    have hrest := ih fun tag' child' hmem => h tag' child' (List.mem_cons_of_mem _ hmem)
    rw [clauses_cons, clauses_cons]
    cases hm : TagMeaning.ofTag s tag with
    | ignored => exact hrest seen
    | pattern test => simp only [hrest]
    | part inner p =>
      obtain ⟨hcompiled, hselect⟩ := h tag child (List.mem_cons_self ..) inner p hm
      refine bind_congr fun seen' _ => ?_
      rw [← hcompiled, hrest]
      refine bind_congr fun f hf => ?_
      rw [ofPart_congr child.get p (hselect f hf)]

/-- **Boards compile alike** the queries of a kind, if the children of these are of the
kind too and the boards select the same sides by those that are about sides. -/
theorem compiled_congr (kind : Subject → Config → Prop)
    (hkind : ∀ {s inner : Subject} {q child : Config} (p : Part s inner), kind s q → (p.tag, child) ∈ q.children →
      kind inner child)
    (hsides : ∀ q f, kind .side q → o.compiled flat .side q made = .ok f → o.sides f made = o'.sides f made) :
    ∀ (q : Config) {s : Subject}, kind s q → o.compiled flat s q made = o'.compiled flat s q made := by
  refine Config.induct fun as cs ih s hq => ?_
  rw [compiled_node, compiled_node, clauses_congr fun tag child hmem inner p hm => ?_]
  have hchild : kind inner child := hkind p hq (TagMeaning.eq_tag_of_part hm ▸ hmem)
  refine ⟨ih _ hmem hchild, fun f hf => ?_⟩
  cases inner with
  | side => exact hsides child f hchild hf
  | troop => trivial
  | place => trivial

end Oracle
end Muster
