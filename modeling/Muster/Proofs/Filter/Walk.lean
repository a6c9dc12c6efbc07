/-
# Which queries are refused

A query is refused for one reason: a child that may occur only once occurs again.
Which child that is can be told from the tags alone, without a board.  The walk
that tells it visits the children of a query in document order, and goes into a
child that is a query before it visits the next one:

| query about | tag | child query about | a second one |
| --- | --- | --- | --- |
| any | `and`, `or`, `not` | the same | |
| a troop | `filter_adjacent` | a troop | |
| a troop | `filter_location` | a place | is refused |
| a troop | `filter_side` | a side | is refused |
| a troop | `filter_vision` | a side | |
| a side | `enemy_of`, `allied_with` | a side | |
| a side | `has_unit` | a troop | |
| a place | `filter` | a troop | is refused |

`repeats` lists the repeated children in the order in which the walk meets them,
each before its own content.  Compiling fails with the first of them and succeeds
where there is none (`compileIn_refuses`), whatever the viewers of a vision clause
turn out to be.
-/

import Muster.Filter.Compile

namespace Muster

namespace TagMeaning

variable {s : Subject}

/-- What the child is about, if it is a query. -/
def inner? : TagMeaning s → Option Subject
  | part inner _ => some inner
  | _ => none

/-- The slot of the child and the error of a second one, if only one may occur. -/
def onceOnly? : TagMeaning s → Option (Slot × FilterError)
  | part _ p => Query.onceOnly? p
  | _ => none

end TagMeaning

namespace Query

/-- The tags of clauses that are queries, with what these are about. -/
def clauseTags : Subject → List (String × Subject)
  | .troop =>
    [("filter_adjacent", .troop), ("filter_location", .place), ("filter_side", .side), ("filter_vision", .side)]
  | .side => [("enemy_of", .side), ("allied_with", .side), ("has_unit", .troop)]
  | .place => [("filter", .troop)]

/-- What the child under a tag is about, if it is a query. -/
def childSubject? (s : Subject) (tag : String) : Option Subject :=
  if tag ∈ ["and", "or", "not"] then some s else (clauseTags s).lookup tag

/-- The error of a second child under a tag, if there is one. -/
def repeatError? : Subject → String → Option FilterError
  | .troop, tag => [("filter_location", .duplicateLocation), ("filter_side", .duplicateSide)].lookup tag
  | .side, _ => none
  | .place, tag => [("filter", .duplicateOccupant)].lookup tag

/-- The error of a child behind children with the given tags, if it is repeated. -/
def repeatedAfter? (s : Subject) (before : List String) (tag : String) : Option FilterError :=
  if tag ∈ before then repeatError? s tag else none

mutual

/-- The errors of the repeated children that the walk over a query meets. -/
def repeats (s : Subject) : Config → List FilterError
  | .node _ cs => repeatsBehind s [] cs

/-- The errors of the repeated children that the walk meets in the rest of a query,
behind children with the given tags. -/
def repeatsBehind (s : Subject) (before : List String) : List (String × Config) → List FilterError
  | [] => []
  | (tag, child) :: rest =>
    (repeatedAfter? s before tag).toList ++
      (match childSubject? s tag with
        | some inner => repeats inner child
        | none => []) ++
      repeatsBehind s (tag :: before) rest

end

/-! ### What a tag means -/

/-- The conditionals are the tags `and`, `or` and `not`. -/
theorem isSome_ofTag? (tag : String) : (Conditional.ofTag? tag).isSome = true ↔ tag ∈ ["and", "or", "not"] := by
  unfold Conditional.ofTag?
  split <;> simp_all

/-- **The walk goes where compiling goes.** -/
theorem childSubject?_eq (s : Subject) (tag : String) : childSubject? s tag = (TagMeaning.ofTag s tag).inner? := by
  have hcond := isSome_ofTag? tag
  rw [childSubject?, TagMeaning.ofTag]
  cases hc : Conditional.ofTag? tag with
  | some c =>
    rw [hc] at hcond
    exact if_pos (hcond.1 rfl)
  | none =>
    rw [if_neg fun htag => by simpa [hc] using hcond.2 htag]
    fun_cases TagMeaning.ofOwnTag s tag
    case case10 =>
      cases s <;> simp_all [clauseTags, List.lookup_cons, beq_false_of_ne, TagMeaning.ofOwnTag, TagMeaning.inner?]
    all_goals rfl

/-- **The walk allows once what compiling allows once.** -/
theorem repeatError?_eq (s : Subject) (tag : String) :
    repeatError? s tag = (TagMeaning.ofTag s tag).onceOnly?.map Prod.snd := by
  have hcond := isSome_ofTag? tag
  rw [TagMeaning.ofTag]
  cases hc : Conditional.ofTag? tag with
  | some c =>
    rw [hc] at hcond
    have htag := hcond.1 rfl
    simp only [List.mem_cons, List.not_mem_nil, or_false] at htag
    obtain rfl | rfl | rfl := htag <;> cases s <;> rfl
  | none =>
    fun_cases TagMeaning.ofOwnTag s tag
    case case10 =>
      cases s <;>
        simp_all [repeatError?, List.lookup_cons, beq_false_of_ne, TagMeaning.ofOwnTag, TagMeaning.onceOnly?]
    all_goals rfl

/-- A slot that is filled only once belongs to one tag. -/
theorem mem_of_onceOnly? {s : Subject} {tag : String} {slot : Slot} {e : FilterError}
    (h : (TagMeaning.ofTag s tag).onceOnly? = some (slot, e)) :
    (slot, tag) ∈ [(Slot.location, "filter_location"), (.side, "filter_side"), (.occupant, "filter")] := by
  rw [TagMeaning.ofTag] at h
  cases hc : Conditional.ofTag? tag with
  | some c => rw [hc] at h; cases h
  | none =>
    rw [hc] at h
    revert h
    fun_cases TagMeaning.ofOwnTag s tag
    all_goals intro h
    case case10 => cases s <;> simp_all [TagMeaning.ofOwnTag, TagMeaning.onceOnly?]
    all_goals cases h
    all_goals decide

/-! ### The children seen so far -/

/-- The slots of those children among the ones before that may occur only once. -/
def Seen (s : Subject) (seen : List Slot) (before : List String) : Prop :=
  ∀ tag slot e, (TagMeaning.ofTag s tag).onceOnly? = some (slot, e) → (slot ∈ seen ↔ tag ∈ before)

variable {s inner : Subject} {tag : String} {seen : List Slot} {before : List String}

/-- A tag that may come again fills no slot. -/
theorem Seen.pass (h : Seen s seen before) (ho : (TagMeaning.ofTag s tag).onceOnly? = none) :
    Seen s seen (tag :: before) := by
  intro tag' slot e h'
  have hne : tag' ≠ tag := fun heq => by rw [heq, ho] at h'; cases h'
  rw [h tag' slot e h', List.mem_cons, or_iff_right hne]

/-- A tag that may come once fills its slot. -/
theorem Seen.add (h : Seen s seen before) {slot : Slot} {e : FilterError}
    (ho : (TagMeaning.ofTag s tag).onceOnly? = some (slot, e)) : Seen s (slot :: seen) (tag :: before) := by
  intro tag' slot' e' h'
  have hslot : slot' = slot ↔ tag' = tag := by
    have hmem := mem_of_onceOnly? ho
    have hmem' := mem_of_onceOnly? h'
    grind
  rw [List.mem_cons, List.mem_cons, h tag' slot' e' h', hslot]

/-- A tag that may come again is never refused. -/
theorem repeatedAfter?_eq_none (ho : (TagMeaning.ofTag s tag).onceOnly? = none) :
    repeatedAfter? s before tag = none := by
  rw [repeatedAfter?, repeatError?_eq, ho, Option.map_none, ite_self]

/-- **A child is refused where the walk finds it repeated,** with the same error. -/
theorem checkOnce_of_seen (h : Seen s seen before) {p : Part s inner} (hm : TagMeaning.ofTag s tag = .part inner p) :
    (∃ seen', checkOnce seen p = .ok seen' ∧ Seen s seen' (tag :: before) ∧ repeatedAfter? s before tag = none) ∨
      ∃ e, checkOnce seen p = .error e ∧ repeatedAfter? s before tag = some e := by
  have hp : (TagMeaning.ofTag s tag).onceOnly? = onceOnly? p := by rw [hm]; rfl
  rw [checkOnce]
  cases ho : onceOnly? p with
  | none => exact .inl ⟨seen, rfl, h.pass (hp.trans ho), repeatedAfter?_eq_none (hp.trans ho)⟩
  | some o =>
    obtain ⟨slot, e⟩ := o
    have ho := hp.trans ho
    have hseen := h tag slot e ho
    rw [repeatedAfter?, repeatError?_eq, ho]
    by_cases hb : tag ∈ before
    · exact .inr ⟨e, by simp [hseen.2 hb], by simp [hb]⟩
    · exact .inl ⟨slot :: seen, by simp [mt hseen.1 hb], h.add ho, by simp [hb]⟩

end Query

/-! ### Builds that refuse -/

/-- A build refuses for the first of several errors, and succeeds where there is none. -/
def Refuses {σ α : Type} (x : Query.Build σ α) (errors : List FilterError) : Prop :=
  ∀ start, match (x.run.run start).1 with
    | .ok _ => errors = []
    | .error e => errors.head? = some e

namespace Refuses

variable {σ α β : Type} {x : Query.Build σ α} {f : α → Query.Build σ β} {errors errors' : List FilterError}

/-- Giving something back is not refused. -/
theorem pure (a : α) : Refuses (Pure.pure a : Query.Build σ α) [] := fun _ => rfl

/-- A run is not refused. -/
theorem lift (r : Run σ α) : Refuses (liftM r : Query.Build σ α) [] := fun _ => rfl

/-- **Two steps in turn** are refused for the errors of the first, and then for those of the second.
-/
theorem bind (hx : Refuses x errors) (hf : ∀ a, Refuses (f a) errors') : Refuses (x >>= f) (errors ++ errors') := by
  intro start
  have hstart := hx start
  change match ((ExceptT.bindCont f (x.run.run start).1).run (x.run.run start).2).1 with
    | .ok _ => errors ++ errors' = []
    | .error e => (errors ++ errors').head? = some e
  cases hr : (x.run.run start).1 with
  | ok a =>
    rw [hr] at hstart
    obtain rfl : errors = [] := hstart
    exact hf a (x.run.run start).2
  | error e =>
    rw [hr] at hstart
    have hhead : errors.head? = some e := hstart
    change (errors ++ errors').head? = some e
    rw [List.head?_append, hhead]
    rfl

/-- Changing the result is not refused. -/
theorem map (hx : Refuses x errors) (g : α → β) : Refuses (x >>= fun a => Pure.pure (g a)) errors := by
  have h := hx.bind (f := fun a => Pure.pure (g a)) fun a => pure (g a)
  rwa [List.append_nil] at h

end Refuses

namespace Query

variable {σ : Type}

mutual

/-- **Compiling fails with the first repeated child,** and only with one. -/
theorem compileIn_refuses (S : Setting (Run σ)) (flat : Bool) (s : Subject) :
    ∀ q : Config, Refuses (compileIn S flat s q) (repeats s q)
  | .node as cs => by
    rw [compileIn, repeats]
    split
    · next hnull =>
      obtain rfl : cs = [] := by simp at hnull; exact hnull.2
      exact .pure _
    · exact .map (compileChildren_refuses S flat s (fun _ _ _ _ => by simp) cs) _

/-- **The children of a query** are refused for the first repeated one among them or within one. -/
theorem compileChildren_refuses (S : Setting (Run σ)) (flat : Bool) (s : Subject) {seen : List Slot}
    {before : List String} (h : Seen s seen before) :
    ∀ cs : List (String × Config), Refuses (compileChildren S flat s seen cs) (repeatsBehind s before cs)
  | [] => .pure _
  | (tag, child) :: rest => by
    rw [compileChildren, repeatsBehind, childSubject?_eq]
    split
    · next hm =>
      have ho : (TagMeaning.ofTag s tag).onceOnly? = none := by rw [hm]; rfl
      rw [repeatedAfter?_eq_none ho, hm]
      exact compileChildren_refuses S flat s (h.pass ho) rest
    · next test hm =>
      have ho : (TagMeaning.ofTag s tag).onceOnly? = none := by rw [hm]; rfl
      rw [repeatedAfter?_eq_none ho, hm]
      exact .map (compileChildren_refuses S flat s (h.pass ho) rest) _
    · next inner p hm =>
      rw [hm]
      rcases checkOnce_of_seen h hm with ⟨seen', hcheck, hseen', hown⟩ | ⟨e, hcheck, hown⟩
      · rw [hcheck, hown]
        -- The check passes, and what is left is the child, its clause and the rest.
        refine Refuses.bind (x := compileIn S flat inner child) (compileIn_refuses S flat inner child) fun f => ?_
        rw [← List.nil_append (repeatsBehind s (tag :: before) rest)]
        exact .bind (.lift _) fun clause => .map (compileChildren_refuses S flat s hseen' rest) _
      · rw [hcheck, hown]
        exact fun _ => rfl

end

/-- **The refusals of queries.**  In every context, from every session and with or
without the local light, a query over troops is refused exactly where the walk
over it meets a repeated child, and with the error of the first one. -/
theorem build_refuses_first_repeat (ctx : Context σ) (flat : Bool) (q : Config) (start : Session σ) :
    (∀ e, ((build q (some ctx) flat).run.run start).1 = .error e ↔ (repeats .troop q).head? = some e) ∧
      ((∃ f, ((build q (some ctx) flat).run.run start).1 = .ok f) ↔ repeats .troop q = []) := by
  have h := compileIn_refuses ctx.setting flat .troop q start
  change (∀ e, ((compileIn ctx.setting flat .troop q).run.run start).1 = .error e ↔ _) ∧
    ((∃ f, ((compileIn ctx.setting flat .troop q).run.run start).1 = .ok f) ↔ _)
  cases hr : ((compileIn ctx.setting flat .troop q).run.run start).1 with
  | ok f =>
    rw [hr] at h
    have hnone : repeats .troop q = [] := h
    simp [hnone]
  | error e =>
    rw [hr] at h
    have hfirst : (repeats .troop q).head? = some e := h
    have hsome : repeats .troop q ≠ [] := fun hnil => by rw [hnil] at hfirst; cases hfirst
    simp [hfirst, hsome]

/-- The second `filter` within the first `filter_location` comes before the second
`filter_location`. -/
example :
    repeats .troop (.node Table.empty
      [("filter_location", .node Table.empty [("filter", .empty), ("filter", .empty)]),
        ("filter_wml", .node Table.empty [("filter_side", .empty), ("filter_side", .empty)]),
        ("filter_location", .empty)]) = [.duplicateOccupant, .duplicateLocation] := by decide

end Query
end Muster
