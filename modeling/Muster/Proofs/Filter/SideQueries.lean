/-
# The meaning of a query over sides

A query over sides means what its parts mean, as queries over troops and places do
(`Query.says_of_parts`), but for the clauses `enemy_of`, `allied_with` and
`has_unit`.  A filter has one slot for each of these tags, and a clause takes the
slot from an earlier one of its tag: the verdict is that of the query without the
overridden clauses (`Config.withLastClauses`).

So every part counts where none of these clauses comes twice
(`Query.side_says_of_singles`), and an overridden clause can fail for a side that
passes (`Query.not_sideComposes_twoFoes`).
-/

import Muster.Proofs.Filter.Composition
import Muster.Proofs.Filter.Origin

namespace Muster

/-! ### Clauses that override each other -/

/-- The tags of the clauses of a side, each with the slot that its clauses share. -/
def Slot.ofSideTag? : String → Option Slot
  | "enemy_of" => some .enemyOf
  | "allied_with" => some .alliedWith
  | "has_unit" => some .hasTroop
  | _ => none

namespace Slot

/-- Each slot belongs to one tag. -/
theorem ofSideTag?_inj {tag tag' : String} {slot : Slot} (h : ofSideTag? tag = some slot)
    (h' : ofSideTag? tag' = some slot) : tag = tag' := by
  unfold ofSideTag? at h h'
  split at h <;> cases h <;> split at h' <;> cases h' <;> rfl

end Slot

namespace Config

/-- Whether a later child takes the slot of a clause with the tag. -/
def overridden (tag : String) (rest : List (String × Config)) : Bool :=
  (Slot.ofSideTag? tag).isSome && rest.any fun e => e.1 == tag

/-- Children without the clauses that a later one overrides. -/
def lastClauses : List (String × Config) → List (String × Config)
  | [] => []
  | e :: rest => if overridden e.1 rest then lastClauses rest else e :: lastClauses rest

/-- The query without the clauses that a later one overrides. -/
def withLastClauses (q : Config) : Config := node q.attributes (lastClauses q.children)

/-- No clause of a side comes twice. -/
def RepeatsNoClause (q : Config) : Prop :=
  q.children.Pairwise fun e e' => (Slot.ofSideTag? e.1).isSome = true → e'.1 ≠ e.1

/-- Whether a clause comes twice can be seen from the tags. -/
instance (q : Config) : Decidable q.RepeatsNoClause := inferInstanceAs (Decidable (List.Pairwise _ _))

/-- One query for every attribute, and one for every child that is no conditional. -/
def singles (q : Config) : List Config :=
  (q.attributes.entries.map fun e => ofAttributes [e]) ++ childItems q.children

/-- **A clause is overridden** where a later child takes its slot. -/
theorem overridden_iff {tag : String} {slot : Slot} (h : Slot.ofSideTag? tag = some slot)
    {rest : List (String × Config)} :
    overridden tag rest = true ↔ ∃ e ∈ rest, Slot.ofSideTag? e.1 = some slot := by
  rw [overridden, h, Option.isSome_some, Bool.true_and, List.any_eq_true]
  constructor
  · rintro ⟨e, he, hsame⟩
    exact ⟨e, he, by rw [eq_of_beq hsame, h]⟩
  · rintro ⟨e, he, hslot⟩
    exact ⟨e, he, beq_iff_eq.2 (Slot.ofSideTag?_inj hslot h)⟩

/-- The items of the first child come first. -/
theorem childItems_eq_append (e : String × Config) (cs : List (String × Config)) :
    childItems (e :: cs) = childItems [e] ++ childItems cs := by
  rw [childItems, childItems, childItems, ← List.map_append, ← List.filter_append, List.singleton_append]

/-- Where no clause comes twice none is overridden. -/
theorem lastClauses_eq_self {cs : List (String × Config)}
    (h : cs.Pairwise fun e e' => (Slot.ofSideTag? e.1).isSome = true → e'.1 ≠ e.1) : lastClauses cs = cs := by
  induction cs with
  | nil => rfl
  | cons e rest ih =>
    obtain ⟨hhead, hrest⟩ := List.pairwise_cons.1 h
    have hkept : overridden e.1 rest = false := by
      rw [overridden, Bool.and_eq_false_imp]
      intro hslot
      rw [List.any_eq_false]
      exact fun e' he' => by simpa using hhead e' he' hslot
    rw [lastClauses, hkept, if_neg Bool.false_ne_true, ih hrest]

/-- Where no clause comes twice, none is overridden. -/
theorem RepeatsNoClause.withLastClauses_eq {q : Config} (h : q.RepeatsNoClause) : q.withLastClauses = q := by
  rw [withLastClauses, lastClauses_eq_self h, node_eta]

end Config

/-! ### The attributes of a side -/

namespace Separable

variable {F : (String → Value) → Bool}

/-- **A test that ignores coordinates** says of all attributes what it says of each one alone. -/
theorem eq_all_singles (h : Separable F) (hcoordinates : ∀ get, F (onlyFields get isCoordinate) = true)
    (as : Table String Scalar) : F as.get? = as.entries.all fun e => F (Config.ofAttributes [e]).get := by
  have hcoordinate : ∀ e ∈ as.entries, isCoordinate e.1 = true → F (Config.ofAttributes [e]).get = true := by
    intro e he hc
    have honly : onlyFields as.get? (· == e.1) = onlyFields (onlyFields as.get? (· == e.1)) isCoordinate := by
      funext key
      by_cases hkey : key = e.1 <;> simp [onlyFields, hkey, hc]
    rw [get_ofAttributes_singleton he, honly]
    exact hcoordinates _
  rw [h.eq_all_fieldItems, Config.fieldItems, List.all_append, List.all_map, List.all_filter, Bool.eq_iff_iff,
    Bool.and_eq_true, List.all_eq_true, List.all_eq_true, List.all_eq_true]
  constructor
  · rintro ⟨-, hothers⟩ e he
    by_cases hc : isCoordinate e.1 = true
    · exact hcoordinate e he hc
    · simpa [hc] using hothers e he
  · intro hall
    refine ⟨fun item hitem => ?_, fun e he => by simp [hall e he]⟩
    split at hitem
    · exact absurd hitem List.not_mem_nil
    · obtain rfl := List.mem_singleton.1 hitem
      rw [get_ofAttributes_filter]
      exact hcoordinates _

/-- The fields of a side are asked about one by one. -/
theorem sideFields (flat : Bool) (p : Filter .side → Bool) :
    Separable fun get => (Query.ownTests flat get .side []).all p := by
  simp only [Query.ownTests, Query.teamTests, Clause.lastInSlot, Clause.inSlot_nil, List.getLast?_nil,
    Option.toList_none, List.append_nil, List.all_append, List.all_map]
  exact ((text _ _ _).and (list _ _ _)).and
    (field "controller" (F := fun v =>
      ((v.bind fun a => Controller.parse? a.text).map SideTest.controller).toList.all (p ∘ .sideTest)) rfl)

end Separable

/-! ### The clauses of a side -/

namespace Clause

/-- The slots of a side. -/
def sideSlots : List Slot := [.enemyOf, .alliedWith, .hasTroop]

/-- Whether the last filter in each slot of a side passes. -/
def lastPass (p : Filter .side → Bool) (cs : List (Clause .side)) : Bool :=
  sideSlots.all fun slot => (lastInSlot slot cs).all p

variable {s : Subject} {slot : Slot}

/-- A slot of clauses put together. -/
theorem inSlot_append (slot : Slot) (cs ds : List (Clause s)) :
    inSlot slot (cs ++ ds) = inSlot slot cs ++ inSlot slot ds := List.filterMap_append

/-- An empty slot has no last filter. -/
theorem lastInSlot_of_inSlot_nil {cs : List (Clause s)} (h : inSlot slot cs = []) : lastInSlot slot cs = [] := by
  rw [lastInSlot, h]
  rfl

/-- Nothing in a slot among the later clauses leaves the slot to the earlier ones. -/
theorem lastInSlot_append_of_nil (cs : List (Clause s)) {ds : List (Clause s)} (h : inSlot slot ds = []) :
    lastInSlot slot (cs ++ ds) = lastInSlot slot cs := by
  rw [lastInSlot, inSlot_append, h, List.append_nil]
  rfl

/-- **A later clause takes the slot.** -/
theorem lastInSlot_append_of_ne_nil (cs : List (Clause s)) {ds : List (Clause s)} (h : inSlot slot ds ≠ []) :
    lastInSlot slot (cs ++ ds) = lastInSlot slot ds := by
  rw [lastInSlot, lastInSlot, inSlot_append, List.getLast?_append, List.getLast?_eq_some_getLast h, Option.some_or]

/-- The own tests of a side are tests of its fields and the last clause in each slot. -/
theorem all_ownTests_side (flat : Bool) (get : String → Value) (p : Filter .side → Bool)
    (cs : List (Clause .side)) : (Query.ownTests flat get .side cs).all p =
      ((Query.ownTests flat get .side []).all p && lastPass p cs) := by
  simp [Query.ownTests, lastPass, sideSlots, lastInSlot]

variable {p : Filter .side → Bool} {cs ds : List (Clause .side)}

/-- Clauses of slots that are taken later do not count. -/
theorem lastPass_append_of_overridden (h : ∀ slot, inSlot slot cs ≠ [] → inSlot slot ds ≠ []) :
    lastPass p (cs ++ ds) = lastPass p ds := by
  refine congrArg sideSlots.all (funext fun slot => ?_)
  by_cases hds : inSlot slot ds = []
  · have hcs : inSlot slot cs = [] := Classical.byContradiction fun hcs => h slot hcs hds
    rw [lastInSlot_append_of_nil cs hds, lastInSlot_of_inSlot_nil hcs, lastInSlot_of_inSlot_nil hds]
  · rw [lastInSlot_append_of_ne_nil cs hds]

/-- **Clauses of slots that are not taken later all count.** -/
theorem lastPass_append_of_kept (h : ∀ slot, inSlot slot cs ≠ [] → inSlot slot ds = []) :
    lastPass p (cs ++ ds) = (lastPass p cs && lastPass p ds) := by
  have hslot : ∀ slot, (lastInSlot slot (cs ++ ds)).all p =
      ((lastInSlot slot cs).all p && (lastInSlot slot ds).all p) := by
    intro slot
    by_cases hds : inSlot slot ds = []
    · rw [lastInSlot_append_of_nil cs hds, lastInSlot_of_inSlot_nil hds, List.all_nil, Bool.and_true]
    · have hcs : inSlot slot cs = [] := Classical.byContradiction fun hcs => hds (h slot hcs)
      rw [lastInSlot_append_of_ne_nil cs hds, lastInSlot_of_inSlot_nil hcs, List.all_nil, Bool.true_and]
  simp only [lastPass, hslot]
  simp only [sideSlots, List.all_cons, List.all_nil, Bool.and_true]
  simp only [Bool.and_assoc, Bool.and_left_comm]

end Clause

namespace Oracle

variable (o : Oracle) (flat : Bool) (x : Int32) (made asked : Scope)

/-- A child that is a query compiles to the clause of its part. -/
theorem clauses_part {s inner : Subject} {tag : String} {p : Part s inner} (h : TagMeaning.ofTag s tag = .part inner p)
    (child : Config) : o.clauses flat s [] [(tag, child)] made =
      (o.compiled flat inner child made).map fun f => [Clause.ofPart o.setting child.get p f made] := by
  obtain ⟨seen, hseen⟩ := Query.exists_checkOnce_nil p
  rw [clauses_cons, h]
  simp only [hseen]
  change (o.compiled flat inner child made).bind _ = _
  cases o.compiled flat inner child made <;> rfl

/-- **A child of a query over sides** makes a clause in the slot of its tag, and in no other. -/
theorem inSlot_clause {tag : String} {child : Config} {cl : List (Clause .side)}
    (h : o.clauses flat .side [] [(tag, child)] made = .ok cl) (slot : Slot) :
    Clause.inSlot slot cl ≠ [] ↔ Slot.ofSideTag? tag = some slot := by
  cases hm : TagMeaning.ofTag .side tag with
  | ignored =>
    rw [clauses_cons, hm] at h
    obtain rfl := Except.ok.inj h
    have htag : Slot.ofSideTag? tag = none := by
      unfold Slot.ofSideTag?
      split <;> first | cases hm | rfl
    simp [htag]
  | pattern test =>
    -- patterns are for queries over troops
    cases @TagMeaning.forall_pattern _ _ (fun {s} _ _ => s = .troop) child rfl _ hm
  | part inner p =>
    rw [o.clauses_part flat made hm] at h
    obtain ⟨f, -, rfl⟩ := map_eq_ok_iff.1 h
    rw [TagMeaning.eq_tag_of_part hm]
    cases p with
    | conditional c => cases c <;> simp [Clause.inSlot, Clause.ofPart, Part.tag, Conditional.tag, Slot.ofSideTag?]
    | _ => simp [Clause.inSlot, Clause.ofPart, Part.tag, Slot.ofSideTag?]

/-- A slot is taken if a child has a tag of it. -/
theorem inSlot_clauses {cs : List (String × Config)} {seen : List Slot} {cl : List (Clause .side)}
    (h : o.clauses flat .side seen cs made = .ok cl) (slot : Slot) :
    Clause.inSlot slot cl ≠ [] ↔ ∃ e ∈ cs, Slot.ofSideTag? e.1 = some slot := by
  induction cs generalizing seen cl with
  | nil =>
    obtain rfl := Except.ok.inj h
    simp
  | cons e cs ih =>
    obtain ⟨c₁, c₂, seen', h₁, h₂, rfl⟩ := o.exists_clauses_append flat made h
    have hhead := o.inSlot_clause flat made h₁ slot
    have hrest := ih h₂
    rw [Clause.inSlot_append, Ne, List.append_eq_nil_iff, Classical.not_and_iff_not_or_not]
    simp only [List.mem_cons, exists_eq_or_imp]
    exact or_congr hhead hrest

/-- The query of one child compiles, and passes where the clause of the child does. -/
theorem childItem_meaning (hx : o.knows .side x = true) {e : String × Config} {cl : List (Clause .side)}
    (h : o.clauses flat .side [] [e] made = .ok cl) :
    (∀ p ∈ Config.childItems [e], ∃ f, o.compiled flat .side p made = .ok f) ∧
      Clause.lastPass (o.passesOwn (s := .side) x asked) cl =
        (Config.childItems [e]).all (o.passes flat (s := .side) x made asked) := by
  obtain ⟨tag, child⟩ := e
  rw [Config.childItems_cons]
  cases htag : Conditional.ofTag? tag with
  | some c =>
    rw [o.clauses_conditional flat made htag] at h
    obtain ⟨f, -, rfl⟩ := map_eq_ok_iff.1 h
    exact ⟨fun p hp => absurd hp List.not_mem_nil, rfl⟩
  | none =>
    have hwrap := o.compiled_wrap flat made (s := .side) tag child
    rw [h] at hwrap
    refine ⟨fun p hp => ⟨_, (List.mem_singleton.1 hp) ▸ hwrap⟩, ?_⟩
    change _ = (o.passes flat (s := .side) x made asked (Config.wrap tag child) && true)
    rw [Bool.and_true, o.passes_of_compiled flat (s := .side) x made asked hwrap,
      o.verdict_assemble flat (s := .side) x asked hx, o.conditionals_clauses flat made htag h,
      Clause.all_ownTests_side]
    rfl

/-- **The clauses of compiled children** are the last clause of each tag, compiled
as a query with that child alone. -/
theorem lastClauses_meaning (hx : o.knows .side x = true) {cs : List (String × Config)} {seen : List Slot}
    {cl : List (Clause .side)} (h : o.clauses flat .side seen cs made = .ok cl) :
    (∀ p ∈ Config.childItems cs, ∃ f, o.compiled flat .side p made = .ok f) ∧
      Clause.lastPass (o.passesOwn (s := .side) x asked) cl =
        (Config.childItems (Config.lastClauses cs)).all (o.passes flat (s := .side) x made asked) := by
  induction cs generalizing seen cl with
  | nil =>
    obtain rfl := Except.ok.inj h
    exact ⟨fun p hp => absurd hp List.not_mem_nil, rfl⟩
  | cons e cs ih =>
    obtain ⟨c₁, c₂, seen', h₁, h₂, rfl⟩ := o.exists_clauses_append flat made h
    obtain ⟨hone, hv₁⟩ := o.childItem_meaning flat x made asked hx h₁
    obtain ⟨hrest, hv₂⟩ := ih h₂
    -- the head counts unless its slot is taken by what follows
    have htaken := o.inSlot_clauses flat made h₂
    have hown := o.inSlot_clause flat made h₁
    refine ⟨fun p hp => ?_, ?_⟩
    · rw [Config.childItems_eq_append] at hp
      exact (List.mem_append.1 hp).elim (hone p) (hrest p)
    · rw [Config.lastClauses]
      split
      · next hover =>
        have hretaken : ∀ slot, Clause.inSlot slot c₁ ≠ [] → Clause.inSlot slot c₂ ≠ [] := fun slot hslot =>
          (htaken slot).2 ((Config.overridden_iff ((hown slot).1 hslot)).1 hover)
        rw [Clause.lastPass_append_of_overridden hretaken, hv₂]
      · next hkept =>
        have hfree : ∀ slot, Clause.inSlot slot c₁ ≠ [] → Clause.inSlot slot c₂ = [] := fun slot hslot =>
          Classical.byContradiction fun hne =>
            hkept ((Config.overridden_iff ((hown slot).1 hslot)).2 ((htaken slot).1 hne))
        rw [Clause.lastPass_append_of_kept hfree, Config.childItems_eq_append, List.all_append, hv₁, hv₂]

/-- **The law of composition over sides,** for a side with a team. -/
theorem verdict_eq_joinAll_side (hx : o.knows .side x = true) {q : Config} {f : Filter .side}
    (h : o.compiled flat .side q made = .ok f) :
    (∀ p ∈ q.singles ++ q.conditionals.map Prod.snd, ∃ g, o.compiled flat .side p made = .ok g) ∧
      o.verdict f x asked =
        Conditional.joinAll (q.withLastClauses.singles.all (o.passes flat (s := .side) x made asked))
          (q.conditionals.map fun e => (e.1, o.passes flat (s := .side) x made asked e.2)) := by
  obtain ⟨as, cs⟩ := q
  have hsep := Separable.sideFields flat (o.passesOwn (s := .side) x asked)
  have hfield := o.passes_fields flat (s := .side) x made asked hx hsep.blank
  have hattributes : (as.entries.map fun e => Config.ofAttributes [e]).all (o.passes flat (s := .side) x made asked) =
      (Query.ownTests flat as.get? .side []).all (o.passesOwn (s := .side) x asked) := by
    rw [hsep.eq_all_singles (fun _ => rfl), List.all_map]
    exact congrArg as.entries.all (funext fun e => (hfield (Table.ofList [e])).2)
  rw [compiled_node] at h
  obtain ⟨cl, hcl, rfl⟩ := map_eq_ok_iff.1 h
  obtain ⟨hconditionals, hjoined⟩ := o.conditionals_meaning flat (s := .side) x made asked hcl
  obtain ⟨hclauses, hown⟩ := o.lastClauses_meaning flat x made asked hx hcl
  refine ⟨fun p hp => ?_, ?_⟩
  · rcases List.mem_append.1 hp with hp | hp
    · rcases List.mem_append.1 hp with hp | hp
      · obtain ⟨e, -, rfl⟩ := List.mem_map.1 hp
        exact (hfield (Table.ofList [e])).1
      · exact hclauses p hp
    · obtain ⟨e, he, rfl⟩ := List.mem_map.1 hp
      exact hconditionals e he
  · rw [o.verdict_assemble flat (s := .side) x asked hx, hjoined]
    congr 1
    simp only [Config.singles, Config.withLastClauses, Config.attributes_node, Config.children_node]
    rw [List.all_append, hattributes, ← hown]
    exact Clause.all_ownTests_side flat as.get? _ cl

/-- **A side without a team passes no query.** -/
theorem verdict_of_no_team (hx : o.knows .side x = false) {q : Config} {f : Filter .side}
    (h : o.compiled flat .side q made = .ok f) : o.verdict f x asked = false := by
  obtain ⟨as, cs⟩ := q
  rw [compiled_node] at h
  obtain ⟨cl, -, rfl⟩ := map_eq_ok_iff.1 h
  rw [Query.assemble, Query.guardWhole, verdict_teamed, show (o.team? x).isSome = false from hx, Bool.false_and]

end Oracle

/-! ### In a context -/

namespace Query

variable {σ : Type} {ctx : Context σ}

/-- A query has one verdict only. -/
theorem Says.unique [Nonempty σ] {flat : Bool} {s : Subject} {x : s.Candidate} {made asked : Scope} {q : Config}
    {v w : Bool} (hv : Says ctx flat x made asked q v) (hw : Says ctx flat x made asked q w) : v = w := by
  obtain ⟨host⟩ := ‹Nonempty σ›
  obtain ⟨f, hf, rfl⟩ := hv host host
  obtain ⟨g, hg, rfl⟩ := hw host host
  obtain rfl : f = g := Except.ok.inj (hf.symm.trans hg)
  rfl

/-- Each part of a query over sides compiles by itself and has a verdict on a side,
and the query has the verdicts of its conditional children, joined from left to right
to the conjunction of the verdicts of the parts `base`. -/
def SideComposes (ctx : Context σ) (flat : Bool) (side : Int32) (made asked : Scope) (q : Config)
    (base : List Config) : Prop :=
  ∃ verdict : Config → Bool,
    (∀ p ∈ q.singles ++ q.conditionals.map Prod.snd, Says ctx flat (s := .side) side made asked p (verdict p)) ∧
      Says ctx flat (s := .side) side made asked q
        (Conditional.joinAll (base.all verdict) (q.conditionals.map fun e => (e.1, verdict e.2)))

/-- **A query over sides means what its parts mean, the overridden clauses apart.**
In a context whose plug-ins are functions, a query over sides that compiles gives on
a side with a team the verdicts of its conditional children, joined from left to
right to the conjunction of the verdicts of its attributes and other children, each
alone, without the clauses that a later one of the tag overrides.  Where no clause
comes twice, no part is left out.  A side without a team passes no query. -/
theorem side_says_of_singles (hctx : ctx.IsFunctional) (flat : Bool) {q : Config} {start : Session σ}
    {f : Filter .side} (hf : ((compile ctx flat .side q).run.run start).1 = .ok f) (asked : Scope) (side : Int32) :
    ((ctx.team? side).isSome = true →
      SideComposes ctx flat side start.scope asked q q.withLastClauses.singles ∧
        (q.RepeatsNoClause → SideComposes ctx flat side start.scope asked q q.singles)) ∧
      (ctx.team? side = none → Says ctx flat (s := .side) side start.scope asked q false) := by
  obtain ⟨o, ho, h⟩ := hctx.exists_follows
  have hknows : o.knows .side side = (ctx.team? side).isSome := by rw [Board.knows, ho]
  rw [(h.compile flat .side q start).1] at hf
  have hsays := says_of_compiled h (s := .side) side asked hf
  refine ⟨fun hteam => ?_, fun hteam => ?_⟩
  · obtain ⟨hparts, hv⟩ := o.verdict_eq_joinAll_side flat side start.scope asked (hknows.trans hteam) hf
    rw [hv] at hsays
    have hlaw : SideComposes ctx flat side start.scope asked q q.withLastClauses.singles := by
      refine ⟨o.passes flat (s := .side) side start.scope asked, fun p hp => ?_, hsays⟩
      obtain ⟨g, hg⟩ := hparts p hp
      rw [o.passes_of_compiled flat (s := .side) side start.scope asked hg]
      exact says_of_compiled h (s := .side) side asked hg
    exact ⟨hlaw, fun hq => by rwa [hq.withLastClauses_eq] at hlaw⟩
  · have hunknown : o.knows .side side = false := by rw [hknows, hteam, Option.isSome_none]
    rwa [o.verdict_of_no_team flat side start.scope asked hunknown hf] at hsays

/-- Two allied sides and one that is hostile to both, with an evaluator that counts
its calls and knows the first side only. -/
def rivals : Context Nat where
  map := Grid.filled 1 1 "Gg"
  teams := recomputeAlliances [{ side := 1, names := ["good"] }, { side := 2, names := ["good"] },
    { side := 3, names := ["evil"] }]
  formula := some fun _ _ _ t => do
    modify fun s => { s with host := s.host + 1 }
    return t.side == 1

/-- The plug-ins of the rivals answer from the scope alone. -/
theorem rivals_isFunctional : rivals.IsFunctional where
  formula evaluate he text l t := by
    obtain rfl := Option.some.inj he
    exact ⟨fun _ => t.side == 1, fun _ => ⟨rfl, rfl⟩⟩
  script call hc := by cases hc

/-- A clause that asks for an enemy of a side. -/
def foeOf (side : Int64) : String × Config := ("enemy_of", .ofAttributes [("side", .int side)])

/-- A query with an attribute, a clause of each kind, a child of no meaning and two conditionals. -/
def courtQuery : Config :=
  .node (Table.ofList [("team_name", .str "good")])
    [foeOf 3, ("has_unit", .ofAttributes [("formula", .str "ours")]), ("or", .wrap "enemy_of" (.wrap "not" .empty)),
      ("note", .empty), ("allied_with", .ofAttributes [("side", .int 2)]),
      ("not", .ofAttributes [("controller", .str "ai")])]

/-- The hypotheses of `side_says_of_singles` are met by `courtQuery`, on a side with a team and on one without. -/
theorem side_says_of_singles_courtQuery :
    rivals.IsFunctional ∧ (rivals.team? 1).isSome = true ∧ rivals.team? 9 = none ∧ courtQuery.RepeatsNoClause ∧
      SideComposes rivals false 1 .empty .empty courtQuery courtQuery.withLastClauses.singles ∧
      SideComposes rivals false 1 .empty .empty courtQuery courtQuery.singles ∧
      Says rivals false (s := .side) 9 .empty .empty courtQuery false := by
  have hclauses : courtQuery.RepeatsNoClause := by decide
  obtain ⟨f, hf⟩ : ∃ f, ((compile rivals false .side courtQuery).run.run ⟨.empty, 0⟩).1 = .ok f := ⟨_, rfl⟩
  obtain ⟨hlast, hall⟩ := (side_says_of_singles rivals_isFunctional false hf .empty 1).1 rfl
  have hstranger := (side_says_of_singles rivals_isFunctional false hf .empty 9).2 rfl
  exact ⟨rivals_isFunctional, rfl, rfl, hclauses, hlast, hall hclauses, hstranger⟩

/-- A query for the enemies of the second side and of the third. -/
def twoFoes : Config := .node Table.empty [foeOf 2, foeOf 3]

example : twoFoes.withLastClauses = .node Table.empty [foeOf 3] := rfl

/-- **An overridden clause does not count.**  The first side is no enemy of the
second, and passes the query for the enemies of the second side and of the third. -/
theorem not_sideComposes_twoFoes :
    rivals.IsFunctional ∧ (rivals.team? 1).isSome = true ∧
      (∃ f, ((compile rivals false .side twoFoes).run.run ⟨.empty, 0⟩).1 = .ok f) ∧
      ¬ SideComposes rivals false 1 .empty .empty twoFoes twoFoes.singles := by
  refine ⟨rivals_isFunctional, rfl, ⟨_, rfl⟩, ?_⟩
  rintro ⟨verdict, hparts, hlaw⟩
  have hfirst : Says rivals false (s := .side) (1 : Int32) .empty .empty (.wrap (foeOf 2).1 (foeOf 2).2) false :=
    fun _ _ => ⟨_, rfl, rfl⟩
  have hpasses : Says rivals false (s := .side) (1 : Int32) .empty .empty twoFoes true := fun _ _ => ⟨_, rfl, rfl⟩
  have hverdict : verdict (.wrap (foeOf 2).1 (foeOf 2).2) = false :=
    (hparts _ (List.mem_append_left _ (List.mem_cons_self ..))).unique hfirst
  have hbase : true = twoFoes.singles.all verdict := hpasses.unique hlaw
  have hmem : Config.wrap (foeOf 2).1 (foeOf 2).2 ∈ twoFoes.singles := List.mem_cons_self ..
  rw [List.all_eq_true.1 hbase.symm _ hmem] at hverdict
  exact Bool.noConfusion hverdict

end Query
end Muster
