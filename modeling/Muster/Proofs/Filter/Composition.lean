/-
# The meaning of a query

A query over troops or places means what its parts mean: its verdict is the
verdicts of its conditional children joined, from left to right, to the
conjunction of the verdicts of its items (`Config.items`), each item and each
child being compiled as a query of its own.
-/

import Muster.Proofs.Filter.Items
import Muster.Proofs.Filter.Verdict

namespace Muster

/-! ### The own tests of a filter -/

namespace Separable

variable {α : Type} (p : α → Bool) (key : String)

/-- A list-valued field is tested apart from the other fields. -/
theorem list (test : List String → α) : Separable fun get => (Query.listTest (get key) test).all p :=
  field key (F := fun v => (Query.listTest v test).all p) rfl

/-- A text is tested apart from the other fields. -/
theorem text (test : String → α) : Separable fun get => (Query.textTest (get key) test).all p :=
  field key (F := fun v => (Query.textTest v test).all p) rfl

/-- An integer is tested apart from the other fields. -/
theorem int (test : Int64 → α) : Separable fun get => (Query.intTest (get key) test).all p :=
  field key (F := fun v => (Query.intTest v test).all p) rfl

/-- A truth value is tested apart from the other fields. -/
theorem bool (test : Bool → α) : Separable fun get => (Query.boolTest (get key) test).all p :=
  field key (F := fun v => (Query.boolTest v test).all p) rfl

end Separable

namespace Clause

variable {s : Subject}

/-- Without clauses every slot is empty. -/
@[simp] theorem inSlot_nil (slot : Slot) : inSlot slot ([] : List (Clause s)) = [] := rfl

/-- The conditionals among compiled children. -/
def conditionals (cs : List (Clause s)) : List (Conditional × Filter s) :=
  cs.filterMap fun
    | conditional c f => some (c, f)
    | own _ _ => none

/-- The conditionals of clauses put together. -/
theorem conditionals_append (cs ds : List (Clause s)) :
    conditionals (cs ++ ds) = conditionals cs ++ conditionals ds := List.filterMap_append

end Clause

namespace Query

/-- The first part of its kind may always occur. -/
theorem exists_checkOnce_nil {s inner : Subject} (p : Part s inner) : ∃ seen, checkOnce [] p = .ok seen := by
  rw [checkOnce]
  cases onceOnly? p with
  | none => exact ⟨[], rfl⟩
  | some e => exact ⟨[e.1], rfl⟩

end Query

/-- Tags of conditionals have no other meaning. -/
theorem TagMeaning.ofOwnTag_ne_conditional {s : Subject} (tag : String) (c : Conditional) :
    ofOwnTag s tag ≠ .part s (.conditional c) := by
  unfold ofOwnTag
  split <;> simp

/-! ### The verdict of a compiled query -/

/-- Whether a board has a candidate of which filters can hold: any troop, a side
with a team, a location on the map. -/
def Board.knows (b : Board) : (s : Subject) → s.Candidate → Bool
  | .troop, _ => true
  | .side, side => (b.team? side).isSome
  | .place, l => b.map.holds l

/-- The scope in which the own tests of a candidate are asked. -/
def Scope.within (sc : Scope) : (s : Subject) → s.Candidate → Scope
  | .troop, (t, l) => sc.under t l
  | .side, _ => sc
  | .place, _ => sc

/-- Verdicts joined to a base from left to right. -/
def Conditional.joinAll (base : Bool) (vs : List (Conditional × Bool)) : Bool :=
  vs.foldl (fun sofar v => v.1.join sofar v.2) base

namespace Oracle

variable (o : Oracle) (flat : Bool) {s : Subject} (x : s.Candidate) (made asked : Scope)

/-- **The verdict with conditionals** joins theirs to the one of the own tests, from left to right.
-/
theorem verdict_joinConditionals (f : Filter s) (cs : List (Clause s)) :
    o.verdict (Clause.joinConditionals f cs) x asked =
      Conditional.joinAll (o.verdict f x asked)
        ((Clause.conditionals cs).map fun e => (e.1, o.verdict e.2 x asked)) := by
  induction cs generalizing f with
  | nil => rfl
  | cons c cs ih =>
    cases c with
    | conditional c g => exact ih (.joined c f g)
    | own slot g => exact ih f

/-- The own tests of a troop are asked with the troop bound. -/
theorem verdict_guardOwn (f : Filter s) :
    o.verdict (Query.guardOwn s f) x asked = o.verdict f x (asked.within s x) := by
  cases s <;> rfl

/-- A candidate that the board knows is not turned away. -/
theorem verdict_guardWhole (h : o.knows s x = true) (f : Filter s) :
    o.verdict (Query.guardWhole s f) x asked = o.verdict f x asked := by
  cases s with
  | troop => rfl
  | side => rw [Query.guardWhole, verdict_teamed, show (o.team? x).isSome = true from h, Bool.true_and]
  | place => rw [Query.guardWhole, verdict_onMap, show o.map.holds x = true from h, Bool.true_and]

/-- **The conditionals are joined to the conjunction of the own tests.** -/
theorem verdict_assemble (h : o.knows s x = true) (get : String → Value) (cs : List (Clause s)) :
    o.verdict (Query.assemble flat get s cs) x asked =
      Conditional.joinAll ((Query.ownTests flat get s cs).all fun f => o.verdict f x (asked.within s x))
        ((Clause.conditionals cs).map fun e => (e.1, o.verdict e.2 x asked)) := by
  rw [Query.assemble, verdict_guardWhole o x asked h, verdict_joinConditionals, verdict_guardOwn, verdict_all]

/-- Whether a query compiles and its filter passes a candidate. -/
def passes (q : Config) : Bool :=
  match o.compiled flat s q made with
  | .ok f => o.verdict f x asked
  | .error _ => false

/-- A query that compiles passes as its filter does. -/
theorem passes_of_compiled {q : Config} {f : Filter s} (h : o.compiled flat s q made = .ok f) :
    o.passes flat x made asked q = o.verdict f x asked := by
  rw [passes, h]

/-- Whether a filter passes as an own test. -/
def passesOwn (f : Filter s) : Bool := o.verdict f x (asked.within s x)

/-- A candidate that the tests of blank fields do not exclude. -/
def Open : Prop := (Query.ownTests flat (fun _ => none) s []).all (o.passesOwn x asked) = true

/-- Compiled children are the children compiled one by one. -/
theorem exists_clauses_append {e : String × Config} {rest : List (String × Config)} {seen : List Slot}
    {cl : List (Clause s)} (h : o.clauses flat s seen (e :: rest) made = .ok cl) :
    ∃ c₁ c₂ seen', o.clauses flat s [] [e] made = .ok c₁ ∧ o.clauses flat s seen' rest made = .ok c₂ ∧
      cl = c₁ ++ c₂ := by
  obtain ⟨tag, child⟩ := e
  rw [clauses_cons] at h
  rw [clauses_cons]
  cases hm : TagMeaning.ofTag s tag with
  | ignored =>
    rw [hm] at h
    exact ⟨[], cl, seen, rfl, h, rfl⟩
  | pattern test =>
    rw [hm] at h
    obtain ⟨c₂, h₂, rfl⟩ := map_eq_ok_iff.1 h
    exact ⟨_, c₂, seen, rfl, h₂, rfl⟩
  | part inner p =>
    rw [hm] at h
    obtain ⟨seen', -, h⟩ := bind_eq_ok_iff.1 h
    obtain ⟨f, hf, h⟩ := bind_eq_ok_iff.1 h
    obtain ⟨c₂, h₂, rfl⟩ := map_eq_ok_iff.1 h
    obtain ⟨seen'', hs⟩ := Query.exists_checkOnce_nil p
    simp only [hs, hf]
    exact ⟨_, c₂, seen', rfl, h₂, rfl⟩

/-- A conditional child compiles to the filter of the child as a query. -/
theorem clauses_conditional {tag : String} {c : Conditional} (h : Conditional.ofTag? tag = some c)
    (child : Config) : o.clauses flat s [] [(tag, child)] made =
      (o.compiled flat s child made).map fun f => [.conditional c f] := by
  rw [clauses_cons, show TagMeaning.ofTag s tag = .part s (.conditional c) by simp only [TagMeaning.ofTag, h]]
  change (o.compiled flat s child made).bind _ = _
  cases o.compiled flat s child made <;> rfl

/-- A child that is no conditional gives none. -/
theorem conditionals_clauses {tag : String} (h : Conditional.ofTag? tag = none) {child : Config}
    {cl : List (Clause s)} (hcl : o.clauses flat s [] [(tag, child)] made = .ok cl) :
    Clause.conditionals cl = [] := by
  rw [clauses_cons, show TagMeaning.ofTag s tag = TagMeaning.ofOwnTag s tag by simp only [TagMeaning.ofTag, h]] at hcl
  cases hm : TagMeaning.ofOwnTag s tag with
  | ignored =>
    rw [hm] at hcl
    obtain rfl := Except.ok.inj hcl
    rfl
  | pattern test =>
    rw [hm] at hcl
    obtain rfl := Except.ok.inj hcl
    rfl
  | part inner p =>
    rw [hm] at hcl
    obtain ⟨seen', -, hcl⟩ := bind_eq_ok_iff.1 hcl
    obtain ⟨f, -, hcl⟩ := bind_eq_ok_iff.1 hcl
    obtain rfl := Except.ok.inj hcl
    cases p with
    | conditional c => exact absurd hm (TagMeaning.ofOwnTag_ne_conditional tag c)
    | _ => rfl

/-- The query of one child compiles as the child does among its siblings. -/
theorem compiled_wrap (tag : String) (child : Config) :
    o.compiled flat s (Config.wrap tag child) made =
      (o.clauses flat s [] [(tag, child)] made).map (Query.assemble flat (fun _ => none) s) := by
  rw [Config.wrap, compiled_node]
  simp only [List.isEmpty_cons, Bool.and_false, Bool.false_eq_true, if_false]
  rfl

/-- **A query of fields alone** compiles, and passes where its tests do. -/
theorem passes_fields (hx : o.knows s x = true) (hopen : o.Open flat x asked) (as : Table String Scalar) :
    (∃ f, o.compiled flat s (.node as []) made = .ok f) ∧
      o.passes flat x made asked (.node as []) =
        (Query.ownTests flat as.get? s []).all (o.passesOwn x asked) := by
  rw [passes, compiled_node]
  by_cases hnull : (s = .troop && as.isEmpty) = true
  · have hempty : as.get? = fun _ => none := Table.get?_of_isEmpty ((Bool.and_eq_true _ _).mp hnull).2
    simp only [hnull, List.isEmpty_nil, Bool.and_true, if_true, verdict_pass, hempty]
    exact ⟨⟨_, rfl⟩, hopen.symm⟩
  · simp only [Bool.not_eq_true] at hnull
    simp only [hnull, Bool.false_and, Bool.false_eq_true, if_false, clauses_nil]
    exact ⟨⟨_, rfl⟩, o.verdict_assemble flat x asked hx as.get? []⟩

/-- **The conditionals of compiled children** are the conditional children, each
compiled as a query of its own. -/
theorem conditionals_meaning {cs : List (String × Config)} {seen : List Slot} {cl : List (Clause s)}
    (h : o.clauses flat s seen cs made = .ok cl) :
    (∀ e ∈ Config.conditionalChildren cs, ∃ f, o.compiled flat s e.2 made = .ok f) ∧
      (Clause.conditionals cl).map (fun e => (e.1, o.verdict e.2 x asked)) =
        (Config.conditionalChildren cs).map fun e => (e.1, o.passes flat x made asked e.2) := by
  induction cs generalizing seen cl with
  | nil =>
    obtain rfl := Except.ok.inj h
    exact ⟨fun e he => absurd he List.not_mem_nil, rfl⟩
  | cons e cs ih =>
    obtain ⟨tag, child⟩ := e
    obtain ⟨c₁, c₂, seen', h₁, h₂, rfl⟩ := o.exists_clauses_append flat made h
    obtain ⟨hc, hv⟩ := ih h₂
    rw [Config.conditionalChildren_cons, Clause.conditionals_append, List.map_append, hv]
    cases ht : Conditional.ofTag? tag with
    | none =>
      rw [o.conditionals_clauses flat made ht h₁]
      exact ⟨hc, rfl⟩
    | some c =>
      rw [o.clauses_conditional flat made ht] at h₁
      obtain ⟨f, hf, rfl⟩ := map_eq_ok_iff.1 h₁
      refine ⟨fun e he => ?_, ?_⟩
      · rcases List.mem_cons.1 he with rfl | he
        · exact ⟨f, hf⟩
        · exact hc e he
      · rw [List.map_cons, o.passes_of_compiled flat x made asked hf]
        rfl

end Oracle

/-! ### In a context -/

namespace Query

variable {σ : Type} {ctx : Context σ}

/-- Compiled in the scope `made`, a query is accepted, and asked in the scope
`asked`, its filter gives the verdict `v` on a candidate, whatever the state of
the plug-ins. -/
def Says (ctx : Context σ) (flat : Bool) {s : Subject} (x : s.Candidate) (made asked : Scope) (q : Config)
    (v : Bool) : Prop :=
  ∀ host host' : σ, ∃ f, ((compile ctx flat s q).run.run ⟨made, host⟩).1 = .ok f ∧
    ((f.run ctx x).run ⟨asked, host'⟩).1 = v

/-- **What a compiled query says** is the verdict of its filter. -/
theorem says_of_compiled {o : Oracle} (h : ctx.Follows o) {flat : Bool} {s : Subject} (x : s.Candidate)
    {made : Scope} (asked : Scope) {q : Config} {f : Filter s} (hf : o.compiled flat s q made = .ok f) :
    Says ctx flat x made asked q (o.verdict f x asked) := fun host host' =>
  ⟨f, by rw [(h.compile flat s q ⟨made, host⟩).1, hf], (h.run f x ⟨asked, host'⟩).1⟩

/-- A map of four hexes, and an evaluator that counts its calls and knows the
second side only. -/
def countingContext : Context Nat where
  map := Grid.filled 2 2 "Gg"
  formula := some fun _ _ _ t => do
    modify fun s => { s with host := s.host + 1 }
    return t.side == 2

/-- A troop of the first side. -/
def scout : Troop := { id := "scout", type := "Scout" }

end Query
end Muster
