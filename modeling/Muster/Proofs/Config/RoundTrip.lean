/-
# Configs through JSON and back

Writing a config and reading the document again always succeeds, and what comes
back can be said outright (`Config.reread`, `ofJson_toJson`).  An attribute is lost
where it is no finite number or gives way to an only child of its name; several
children under the name of an attribute are lost; and all that is left is gathered
by tag.  So at a node without such attributes and children the only change is the
order of different tags (`reread_eq_regrouped`), and a config comes back as it was
if and only if there is nothing to lose and nothing to regroup at any node
(`agrees_reread_iff`).  What has come back once has this property, whence a second
round trip changes nothing (`reread_reread`).
-/

import Muster.Proofs.Config.Grouping
import Muster.Proofs.Text.Numerals

namespace Muster

/-- Whether a number stands for the scalar in JSON, or none is needed. -/
def Scalar.isFinite : Scalar → Bool
  | real r => r.isFinite
  | _ => true

/-- Whether a scalar is a floating-point number. -/
def Scalar.isReal : Scalar → Bool
  | real _ => true
  | _ => false

/-- **A scalar comes back** unless it is an infinity or not a number. -/
theorem Scalar.ofJson?_toJson (a : Scalar) : ofJson? a.toJson = if a.isFinite then some a else none := by
  cases a with
  | bool b => rfl
  | int n => simp only [toJson, ofJson?, Text.Numerals.admits_int64, isFinite, if_true, Int64.ofInt_toInt]
  | real r =>
    by_cases hr : r.isFinite = true <;> simp [toJson, ofJson?, isFinite, hr]
  | str s => rfl

namespace Config

/-! ### What comes back -/

/-- The attributes that come back from a node whose children have the given tags. -/
def keptAttributes (as : Table String Scalar) (tags : List String) : Table String Scalar :=
  as.filter fun e => e.2.isFinite && tags.count e.1 != 1

/-- The tags of the children that come back, in order: those of only children in the
place of an attribute, then those that are no keys. -/
def keptTags (as : Table String Scalar) (tags : List String) : List String :=
  (as.entries.map Prod.fst).filter (fun k => tags.count k == 1) ++
    tags.eraseDups.filter fun t => (as.get? t).isNone

mutual

/-- What comes back of a config. -/
def reread : Config → Config
  | node as cs => node (keptAttributes as (cs.map Prod.fst)) (gather (keptTags as (cs.map Prod.fst)) (rereadAll cs))

/-- What comes back of each of several children. -/
def rereadAll : List (String × Config) → List (String × Config)
  | [] => []
  | (tag, c) :: cs => (tag, c.reread) :: rereadAll cs

end

/-- Each child comes back by itself. -/
theorem rereadAll_eq_map : ∀ cs : List (String × Config), rereadAll cs = cs.map fun e => (e.1, e.2.reread)
  | [] => rfl
  | (_, _) :: cs => congrArg _ (rereadAll_eq_map cs)

/-- Coming back changes no tag. -/
theorem tags_rereadAll (cs : List (String × Config)) : (rereadAll cs).map Prod.fst = cs.map Prod.fst := by
  rw [rereadAll_eq_map, List.map_map]
  rfl

/-- Each child is written by itself. -/
theorem childrenToJson_eq_map : ∀ cs : List (String × Config), childrenToJson cs = cs.map fun e => (e.1, e.2.toJson)
  | [] => rfl
  | (_, _) :: cs => congrArg _ (childrenToJson_eq_map cs)

/-! ### Reading back what was written -/

/-- Members put together make the children of both, or fail as the first that fails. -/
theorem memberChildren_append (ms ns : List (String × Json)) :
    memberChildren (ms ++ ns) = do return (← memberChildren ms) ++ (← memberChildren ns) := by
  induction ms with
  | nil =>
    rw [List.nil_append, memberChildren]
    cases memberChildren ns <;> rfl
  | cons m ms ih =>
    obtain ⟨key, v⟩ := m
    cases v with
    | obj inner =>
      rw [List.cons_append, memberChildren, memberChildren, ih]
      cases ofJson (.obj inner) <;> cases memberChildren ms <;> cases memberChildren ns <;> rfl
    | arr vs =>
      rw [List.cons_append, memberChildren, memberChildren, ih]
      cases itemChildren key vs <;> cases memberChildren ms <;> cases hn : memberChildren ns <;>
        simp [bind, Except.bind, pure, Except.pure]
    | _ => exact ih

/-- Members that give certain children one by one give them all together. -/
theorem memberChildren_map {ι : Type} {f : ι → String × Json} {g : ι → List (String × Config)} {l : List ι}
    (h : ∀ i ∈ l, memberChildren [f i] = .ok (g i)) : memberChildren (l.map f) = .ok (l.flatMap g) := by
  induction l with
  | nil => rfl
  | cons i l ih =>
    have hi := h i (List.mem_cons_self ..)
    have hl := ih fun j hj => h j (List.mem_cons_of_mem _ hj)
    rw [List.map_cons, List.flatMap_cons, ← List.singleton_append, memberChildren_append, hi, hl]
    rfl

/-- An attribute gives no child. -/
theorem memberChildren_scalar (key : String) (a : Scalar) : memberChildren [(key, a.toJson)] = .ok [] := by
  cases a with
  | real r => by_cases hr : r.isFinite = true <;> simp [Scalar.toJson, hr, memberChildren]
  | _ => rfl

/-- A member that holds one config makes one child, the config as it comes back. -/
theorem memberChildren_toJson (key : String) {c : Config} (hc : ofJson c.toJson = .ok c.reread) :
    memberChildren [(key, c.toJson)] = .ok [(key, c.reread)] := by
  cases c with
  | node as cs =>
    rw [toJson] at hc ⊢
    rw [memberChildren, hc]
    rfl

/-- A member that holds an array of configs makes a child of each. -/
theorem itemChildren_toJson (key : String) {cs : List Config} (hcs : ∀ c ∈ cs, ofJson c.toJson = .ok c.reread) :
    itemChildren key (cs.map toJson) = .ok (cs.map fun c => (key, c.reread)) := by
  induction cs with
  | nil => rfl
  | cons c cs ih =>
    have hc := hcs c (List.mem_cons_self ..)
    have hrest := ih fun d hd => hcs d (List.mem_cons_of_mem _ hd)
    cases c with
    | node as ds =>
      rw [toJson] at hc
      rw [List.map_cons, List.map_cons, toJson, itemChildren, hc, hrest]
      rfl

/-- The children under a tag are written in order. -/
theorem valuesAt_childrenToJson (t : String) (cs : List (String × Config)) :
    valuesAt t (childrenToJson cs) = (valuesAt t cs).map toJson := by
  rw [childrenToJson_eq_map, valuesAt_map]

/-- The children under a tag come back in order. -/
theorem valuesAt_rereadAll (t : String) (cs : List (String × Config)) :
    valuesAt t (rereadAll cs) = (valuesAt t cs).map reread := by
  rw [rereadAll_eq_map, valuesAt_map]

section Laid

variable {cs : List (String × Config)} (hcs : ∀ e ∈ cs, ofJson e.2.toJson = .ok e.2.reread)

include hcs

/-- A member for an attribute gives the only child of its name, if there is one. -/
theorem memberChildren_attributeMember (e : String × Scalar) :
    memberChildren [attributeMember (childrenToJson cs) e] =
      .ok (if (cs.map Prod.fst).count e.1 == 1 then (valuesAt e.1 (rereadAll cs)).map fun c => (e.1, c) else []) := by
  rw [attributeMember, valuesAt_childrenToJson, valuesAt_rereadAll, ← length_valuesAt]
  match hv : valuesAt e.1 cs with
  | [] => exact memberChildren_scalar e.1 e.2
  | [only] => exact memberChildren_toJson e.1 (hcs (e.1, only) (mem_valuesAt.1 (hv ▸ List.mem_singleton_self _)))
  | c :: d :: rest => exact memberChildren_scalar e.1 e.2

/-- A member for a tag gives its children. -/
theorem memberChildren_tagMember (t : String) :
    memberChildren [tagMember (childrenToJson cs) t] = .ok ((valuesAt t (rereadAll cs)).map fun c => (t, c)) := by
  have hvs : ∀ c ∈ valuesAt t cs, ofJson c.toJson = .ok c.reread := fun c hc => hcs (t, c) (mem_valuesAt.1 hc)
  have hitems := itemChildren_toJson t hvs
  rw [tagMember, valuesAt_childrenToJson, valuesAt_rereadAll, List.map_map]
  match hv : valuesAt t cs with
  | [only] => exact memberChildren_toJson t (hvs only (hv ▸ List.mem_singleton_self _))
  | [] => rfl
  | c :: d :: rest =>
    rw [hv, List.map_cons, List.map_cons] at hitems
    simp only [List.map_cons]
    rw [memberChildren, hitems]
    exact congrArg Except.ok (List.append_nil _)

/-- **The members laid out for a config** give back its children, gathered by what comes back. -/
theorem memberChildren_layMembers (as : Table String Scalar) :
    memberChildren (layMembers as.entries (childrenToJson cs)) =
      .ok (gather (keptTags as (cs.map Prod.fst)) (rereadAll cs)) := by
  have htags : (childrenToJson cs).map Prod.fst = cs.map Prod.fst := by
    rw [childrenToJson_eq_map, List.map_map]
    rfl
  rw [layMembers, memberChildren_append, memberChildren_map fun e _ => memberChildren_attributeMember hcs e,
    memberChildren_map fun t _ => memberChildren_tagMember hcs t, htags, keptTags, gather_append, gather_filter,
    List.flatMap_map]
  simp only [← Table.lookup_eq_list_lookup]
  rfl

end Laid

/-- Members put together give the attributes of both. -/
theorem scalarMembers_append (ms ns : List (String × Json)) :
    scalarMembers (ms ++ ns) = scalarMembers ms ++ scalarMembers ns := List.filterMap_append

/-- A member for an attribute gives this attribute where it comes back. -/
theorem ofJson?_attributeMember (cs : List (String × Config)) (e : String × Scalar) :
    (Scalar.ofJson? (attributeMember (childrenToJson cs) e).2).map
        (fun a => ((attributeMember (childrenToJson cs) e).1, a)) =
      if e.2.isFinite && (cs.map Prod.fst).count e.1 != 1 then some e else none := by
  obtain ⟨k, a⟩ := e
  rw [attributeMember, valuesAt_childrenToJson, ← length_valuesAt]
  match valuesAt k cs with
  | [] =>
    simp only [List.map_nil]
    rw [Scalar.ofJson?_toJson]
    cases a.isFinite <;> rfl
  | [.node _ _] =>
    cases a.isFinite <;> rfl
  | c :: d :: rest =>
    simp only [List.map_cons]
    rw [Scalar.ofJson?_toJson]
    cases a.isFinite <;> rfl

/-- A member for a tag gives no attribute. -/
theorem ofJson?_tagMember (cs : List (String × Config)) (t : String) :
    Scalar.ofJson? (tagMember (childrenToJson cs) t).2 = none := by
  rw [tagMember, valuesAt_childrenToJson]
  match valuesAt t cs with
  | [] => rfl
  | [.node _ _] => rfl
  | c :: d :: rest => rfl

/-- **The members laid out for a config** give back the attributes that are kept. -/
theorem scalarMembers_layMembers (as : Table String Scalar) (cs : List (String × Config)) :
    scalarMembers (layMembers as.entries (childrenToJson cs)) = (keptAttributes as (cs.map Prod.fst)).entries := by
  have hattributes : scalarMembers (as.entries.map (attributeMember (childrenToJson cs))) =
      (keptAttributes as (cs.map Prod.fst)).entries := by
    rw [scalarMembers, List.filterMap_map]
    simp only [Function.comp_def, ofJson?_attributeMember]
    exact congrFun List.filterMap_eq_filter as.entries
  have htags : ∀ tags : List String, scalarMembers (tags.map (tagMember (childrenToJson cs))) = [] := by
    intro tags
    rw [scalarMembers, List.filterMap_map, List.filterMap_eq_nil_iff]
    intro t _
    rw [Function.comp_apply, ofJson?_tagMember]
    rfl
  rw [layMembers, scalarMembers_append, hattributes, htags, List.append_nil]

/-- **Reading back a written config succeeds,** and gives what comes back of it. -/
theorem ofJson_toJson (c : Config) : ofJson c.toJson = .ok c.reread := by
  induction c using Config.induct with
  | node as cs hcs =>
    rw [toJson, ofJson, memberChildren_layMembers hcs as, scalarMembers_layMembers, Table.ofList_entries, reread]
    rfl

/-! ### Where nothing is lost -/

/-- A property of every node of a config. -/
inductive Everywhere (P : Config → Prop) : Config → Prop where
  | node {as : Table String Scalar} {cs : List (String × Config)} (here : P (node as cs))
      (below : ∀ e ∈ cs, Everywhere P e.2) : Everywhere P (node as cs)

/-- A property of every node is one of the root and of every node of each child. -/
theorem everywhere_node {P : Config → Prop} {as : Table String Scalar} {cs : List (String × Config)} :
    Everywhere P (node as cs) ↔ P (node as cs) ∧ ∀ e ∈ cs, Everywhere P e.2 :=
  ⟨fun | .node here below => ⟨here, below⟩, fun h => .node h.1 h.2⟩

/-- What each node implies, every node has. -/
theorem Everywhere.imp {P Q : Config → Prop} (hPQ : ∀ c, P c → Q c) {c : Config} (h : c.Everywhere P) :
    c.Everywhere Q := by
  induction h with
  | node here _ ih => exact .node (hPQ _ here) ih

/-- Two properties of every node are one. -/
theorem Everywhere.and {P Q : Config → Prop} {c : Config} (hP : c.Everywhere P) (hQ : c.Everywhere Q) :
    c.Everywhere fun d => P d ∧ Q d := by
  induction hP with
  | node here _ ih =>
    obtain ⟨here', below'⟩ := everywhere_node.1 hQ
    exact .node ⟨here, here'⟩ fun e he => ih e he (below' e he)

/-- No attribute of the root is a floating-point number. -/
def HasNoReal (c : Config) : Prop := ∀ e ∈ c.attributes.entries, e.2.isReal = false

/-- The attributes of the root are a list, so it can be seen whether one is a floating-point number.
-/
instance (c : Config) : Decidable c.HasNoReal :=
  inferInstanceAs (Decidable (∀ e ∈ c.attributes.entries, e.2.isReal = false))

/-- No child of the root has an attribute's name, and no attribute is an infinity or not a number. -/
structure Lossless (c : Config) : Prop where
  noClash : ∀ e ∈ c.children, c.get e.1 = none
  finite : ∀ e ∈ c.attributes.entries, e.2.isFinite = true

/-- Where nothing is lost no tag of a child is a key. -/
theorem Lossless.free {as : Table String Scalar} {cs : List (String × Config)} (h : (node as cs).Lossless) :
    ∀ t ∈ cs.map Prod.fst, as.get? t = none := by
  intro t ht
  obtain ⟨e, he, rfl⟩ := List.mem_map.1 ht
  exact h.noClash e he

/-- The children of each tag of the root come in one stretch. -/
def Unmixed (c : Config) : Prop := Contiguous (c.children.map Prod.fst)

mutual

/-- The config with the children of every node stably regrouped by tag in order of
first appearance. -/
def regrouped : Config → Config
  | node as cs => node as (grouped (regroupedAll cs))

/-- Several children regrouped, each in itself. -/
def regroupedAll : List (String × Config) → List (String × Config)
  | [] => []
  | (tag, c) :: cs => (tag, c.regrouped) :: regroupedAll cs

end

/-- Each child is regrouped by itself. -/
theorem regroupedAll_eq_map : ∀ cs : List (String × Config), regroupedAll cs = cs.map fun e => (e.1, e.2.regrouped)
  | [] => rfl
  | (_, _) :: cs => congrArg _ (regroupedAll_eq_map cs)

/-- Regrouping changes no attribute of the root. -/
theorem attributes_regrouped (c : Config) : c.regrouped.attributes = c.attributes := by
  cases c
  rfl

/-- Under each tag the children stay in order. -/
theorem childrenAt_regrouped (c : Config) (tag : String) :
    c.regrouped.childrenAt tag = (c.childrenAt tag).map regrouped := by
  cases c with
  | node as cs =>
    rw [regrouped, regroupedAll_eq_map]
    exact (valuesAt_grouped _ tag).trans (valuesAt_map regrouped tag cs)

section Kept

variable {as : Table String Scalar} {tags : List String}

/-- A tag comes back as a key with one child of its name, or as the tag of children that is no key.
-/
theorem mem_keptTags {t : String} :
    t ∈ keptTags as tags ↔ as.get? t ≠ none ∧ tags.count t = 1 ∨ t ∈ tags ∧ as.get? t = none := by
  rw [keptTags, List.mem_append, List.mem_filter, List.mem_filter, List.mem_eraseDups, beq_iff_eq,
    Option.isNone_iff_eq_none, Ne, Table.get?_eq_none_iff, Classical.not_not]

/-- Each tag that comes back is gathered once. -/
theorem nodup_keptTags (as : Table String Scalar) (tags : List String) : (keptTags as tags).Nodup := by
  refine List.nodup_append.2 ⟨as.nodup_keys.filter _, (nodup_eraseDups tags).filter _, ?_⟩
  rintro t hkey u htag rfl
  rw [List.mem_filter, Option.isNone_iff_eq_none, Table.get?_eq_none_iff] at htag
  exact htag.2 (List.mem_filter.1 hkey).1

/-- A tag that comes back is no key any more. -/
theorem get?_keptAttributes {t : String} (ht : t ∈ keptTags as tags) : (keptAttributes as tags).get? t = none := by
  refine Option.eq_none_iff_forall_ne_some.2 fun a ha => ?_
  obtain ⟨hmem, hkept⟩ := List.mem_filter.1 (Table.get?_eq_some_iff.1 ha)
  rw [Bool.and_eq_true, bne_iff_ne] at hkept
  rcases mem_keptTags.1 ht with ⟨-, hone⟩ | ⟨-, hnone⟩
  · exact hkept.2 hone
  · rw [Table.get?_eq_some_iff.2 hmem] at hnone
    cases hnone

variable (hfree : ∀ t ∈ tags, as.get? t = none)

include hfree

/-- An attribute has no child of its name where no tag is a key. -/
theorem count_eq_zero {e : String × Scalar} (he : e ∈ as.entries) : tags.count e.1 = 0 := by
  refine List.count_eq_zero.2 fun hmem => ?_
  have hsome : as.get? e.1 = some e.2 := Table.get?_eq_some_iff.2 he
  rw [hfree e.1 hmem] at hsome
  cases hsome

/-- All attributes are kept where no tag is a key and JSON has a number for each. -/
theorem keptAttributes_eq_self (hfinite : ∀ e ∈ as.entries, e.2.isFinite = true) : keptAttributes as tags = as := by
  refine Table.filter_eq_self fun e he => ?_
  rw [count_eq_zero hfree he, hfinite e he]
  rfl

/-- The tags come back in order of first appearance where none is a key. -/
theorem keptTags_eq_eraseDups : keptTags as tags = tags.eraseDups := by
  have hkeys : (as.entries.map Prod.fst).filter (fun k => tags.count k == 1) = [] := by
    refine List.filter_eq_nil_iff.2 fun k hk => ?_
    obtain ⟨e, he, rfl⟩ := List.mem_map.1 hk
    rw [count_eq_zero hfree he]
    decide
  have htags : (tags.eraseDups.filter fun t => (as.get? t).isNone) = tags.eraseDups := by
    refine List.filter_eq_self.2 fun t ht => ?_
    rw [hfree t (List.mem_eraseDups.1 ht)]
    rfl
  rw [keptTags, hkeys, htags, List.nil_append]

end Kept

/-- The children that come back where no child tag is a key. -/
theorem gather_keptTags {as : Table String Scalar} {cs : List (String × Config)}
    (hfree : ∀ t ∈ cs.map Prod.fst, as.get? t = none) :
    gather (keptTags as (cs.map Prod.fst)) (rereadAll cs) = grouped (rereadAll cs) := by
  rw [keptTags_eq_eraseDups hfree, grouped, tags_rereadAll]

/-- **Where nothing is lost at any node the children are regrouped** and all else stays. -/
theorem reread_eq_regrouped {c : Config} (hc : c.Everywhere Lossless) : c.reread = c.regrouped := by
  induction c using Config.induct with
  | node as cs ih =>
    obtain ⟨hlossless, hbelow⟩ := everywhere_node.1 hc
    have hcs : rereadAll cs = regroupedAll cs := by
      rw [rereadAll_eq_map, regroupedAll_eq_map]
      exact List.map_congr_left fun e he => by rw [ih e he (hbelow e he)]
    have hfree := hlossless.free
    rw [reread, regrouped, keptAttributes_eq_self hfree hlossless.finite, gather_keptTags hfree, hcs]

/-- Where the children of each tag come in one stretch there is nothing to regroup. -/
theorem regrouped_eq_self {c : Config} (hc : c.Everywhere Unmixed) : c.regrouped = c := by
  induction c using Config.induct with
  | node as cs ih =>
    obtain ⟨hunmixed, hbelow⟩ := everywhere_node.1 hc
    have hcs : regroupedAll cs = cs := by
      rw [regroupedAll_eq_map]
      calc (cs.map fun e => (e.1, e.2.regrouped)) = cs.map id :=
            List.map_congr_left fun e he => by rw [ih e he (hbelow e he)]; rfl
        _ = cs := List.map_id cs
    have hgrouped : grouped cs = cs := grouped_eq_self_iff.2 hunmixed
    rw [regrouped, hcs, hgrouped]

/-- **What comes back has nothing more to lose** and nothing to regroup. -/
theorem everywhere_reread (c : Config) : c.reread.Everywhere fun d => d.Lossless ∧ d.Unmixed := by
  induction c using Config.induct with
  | node as cs ih =>
    rw [reread]
    refine .node ⟨⟨fun e he => ?_, fun e he => ?_⟩, ?_⟩ fun e he => ?_
    · exact get?_keptAttributes (mem_gather.1 he).1
    · have hkept := (List.mem_filter.1 he).2
      rw [Bool.and_eq_true] at hkept
      exact hkept.1
    · rw [Unmixed, children_node, tags_gather]
      exact contiguous_stretches _ (nodup_keptTags as _)
    · have hmem := (mem_gather.1 he).2
      rw [rereadAll_eq_map] at hmem
      obtain ⟨d, hd, rfl⟩ := List.mem_map.1 hmem
      exact ih d hd

/-- A second round trip changes nothing. -/
theorem reread_reread (c : Config) : c.reread.reread = c.reread := by
  have hc := c.everywhere_reread
  rw [reread_eq_regrouped (hc.imp fun _ h => h.1), regrouped_eq_self (hc.imp fun _ h => h.2)]

/-! ### What comes back as it was -/

/-- Attributes that agree have the same keys. -/
theorem keys_eq_of_attributesAgree :
    ∀ {as bs : List (String × Scalar)}, attributesAgree as bs = true → as.map Prod.fst = bs.map Prod.fst
  | [], [], _ => rfl
  | (k, a) :: as, (l, b) :: bs, h => by
    rw [attributesAgree, Bool.and_eq_true, Bool.and_eq_true, beq_iff_eq] at h
    rw [List.map_cons, List.map_cons, h.1.1, keys_eq_of_attributesAgree h.2]

/-- Children that agree have the same tags. -/
theorem tags_eq_of_childrenAgree :
    ∀ {cs ds : List (String × Config)}, childrenAgree cs ds = true → cs.map Prod.fst = ds.map Prod.fst
  | [], [], _ => rfl
  | (k, c) :: cs, (l, d) :: ds, h => by
    rw [childrenAgree, Bool.and_eq_true, Bool.and_eq_true, beq_iff_eq] at h
    rw [List.map_cons, List.map_cons, h.1.1, tags_eq_of_childrenAgree h.2]

/-- Children agree with what they are changed to if each does. -/
theorem childrenAgree_map_iff (f : Config → Config) (cs : List (String × Config)) :
    childrenAgree (cs.map fun e => (e.1, f e.2)) cs = true ↔ ∀ e ∈ cs, (f e.2).agrees e.2 = true := by
  induction cs with
  | nil => exact ⟨fun _ _ he => absurd he List.not_mem_nil, fun _ => rfl⟩
  | cons e cs ih =>
    rw [List.map_cons, childrenAgree, Bool.and_eq_true, Bool.and_eq_true, ih, List.forall_mem_cons, beq_self_eq_true]
    simp only [true_and]

/-- Attributes agree with themselves. -/
theorem attributesAgree_refl : ∀ as : List (String × Scalar), attributesAgree as as = true
  | [] => rfl
  | (k, a) :: as => by
    rw [attributesAgree, Scalar.agrees, attributesAgree_refl as, beq_self_eq_true, beq_self_eq_true]
    rfl

/-- A config agrees with itself. -/
theorem agrees_refl (c : Config) : c.agrees c = true := by
  induction c using Config.induct with
  | node as cs ih =>
    have hcs := (childrenAgree_map_iff id cs).2 ih
    rw [agrees, attributes_node, children_node, attributesAgree_refl, Bool.true_and]
    rwa [show (cs.map fun e => (e.1, id e.2)) = cs from List.map_id cs] at hcs

section Agreeing

variable {as : Table String Scalar} {cs : List (String × Config)}

/-- If no key is missing among what comes back, no attribute is lost. -/
theorem kept_of_attributesAgree
    (h : attributesAgree (keptAttributes as (cs.map Prod.fst)).entries as.entries = true) :
    ∀ e ∈ as.entries, e.2.isFinite = true ∧ (cs.map Prod.fst).count e.1 ≠ 1 := by
  intro e he
  have hlength := congrArg List.length (keys_eq_of_attributesAgree h)
  rw [List.length_map, List.length_map] at hlength
  have hkept := List.length_filter_eq_length_iff.1 hlength e he
  rwa [Bool.and_eq_true, bne_iff_ne] at hkept

/-- If no tag is missing either, nothing is lost and nothing regrouped. -/
theorem lossless_of_agrees (hattributes : attributesAgree (keptAttributes as (cs.map Prod.fst)).entries as.entries = true)
    (hchildren : childrenAgree (gather (keptTags as (cs.map Prod.fst)) (rereadAll cs)) cs = true) :
    (node as cs).Lossless ∧ (node as cs).Unmixed := by
  have hkept := kept_of_attributesAgree hattributes
  have htags := tags_eq_of_childrenAgree hchildren
  refine ⟨⟨fun e he => ?_, fun e he => (hkept e he).1⟩, ?_⟩
  · have htag : e.1 ∈ cs.map Prod.fst := List.mem_map_of_mem he
    rw [← htags] at htag
    obtain ⟨d, hd, hde⟩ := List.mem_map.1 htag
    rw [← hde]
    rcases mem_keptTags.1 (mem_gather.1 hd).1 with ⟨hkey, hone⟩ | ⟨-, hnone⟩
    · obtain ⟨a, ha⟩ := Option.ne_none_iff_exists'.1 hkey
      exact absurd hone (hkept (d.1, a) (Table.get?_eq_some_iff.1 ha)).2
    · exact hnone
  · rw [Unmixed, children_node, ← htags, tags_gather]
    exact contiguous_stretches _ (nodup_keptTags as _)

end Agreeing

/-- **A config comes back as it was** if and only if at no node there is anything to
lose or to regroup. -/
theorem agrees_reread_iff (c : Config) :
    c.reread.agrees c = true ↔ c.Everywhere fun d => d.Lossless ∧ d.Unmixed := by
  constructor
  · intro h
    induction c using Config.induct with
    | node as cs ih =>
      rw [reread, agrees, attributes_node, children_node, Bool.and_eq_true] at h
      obtain ⟨hattributes, hchildren⟩ := h
      obtain ⟨hlossless, hunmixed⟩ := lossless_of_agrees hattributes hchildren
      have hgrouped : grouped (rereadAll cs) = rereadAll cs := grouped_eq_self_iff.2 (tags_rereadAll cs ▸ hunmixed)
      rw [gather_keptTags hlossless.free, hgrouped, rereadAll_eq_map, childrenAgree_map_iff] at hchildren
      exact .node ⟨hlossless, hunmixed⟩ fun e he => ih e he (hchildren e he)
  · intro h
    rw [reread_eq_regrouped (h.imp fun _ h => h.1), regrouped_eq_self (h.imp fun _ h => h.2)]
    exact agrees_refl c

/-- **Configs through JSON and back.**  A written config can be read.  If at no node
a child tag is a key or an attribute is an infinity or not a number, the config
comes back with the children of every node stably regrouped by tag: the attributes
are the same, and so are the children of each tag, in order.  It comes back as it
was if and only if moreover the children of each tag come in one stretch at every
node.  And what has come back once comes back unchanged. -/
theorem json_round_trip (c : Config) :
    ∃ d, ofJson c.toJson = .ok d ∧
      (c.Everywhere Lossless → d = c.regrouped ∧ d.attributes = c.attributes ∧
        ∀ tag, d.childrenAt tag = (c.childrenAt tag).map regrouped) ∧
      (d.agrees c = true ↔ c.Everywhere Lossless ∧ c.Everywhere Unmixed) ∧
      ofJson d.toJson = .ok d := by
  refine ⟨c.reread, ofJson_toJson c, fun hc => ?_, ?_, ?_⟩
  · rw [reread_eq_regrouped hc]
    exact ⟨rfl, attributes_regrouped c, childrenAt_regrouped c⟩
  · rw [agrees_reread_iff]
    exact ⟨fun h => ⟨h.imp fun _ h => h.1, h.imp fun _ h => h.2⟩, fun h => h.1.and h.2⟩
  · rw [ofJson_toJson, reread_reread]

/-- A config with interleaved tags. -/
def interleaved : Config :=
  node (Table.ofList [("x", .int 3), ("y", .str "4")])
    [("and", empty), ("or", node (Table.ofList [("z", .bool true)]) []), ("and", wrap "x" empty)]

/-- What `json_round_trip` says of `interleaved`: nothing is lost, but the tags are regrouped. -/
theorem json_round_trip_interleaved :
    interleaved.Everywhere Lossless ∧ ∃ d, ofJson interleaved.toJson = .ok d ∧ d.attributes = interleaved.attributes ∧
      d.children = [("and", empty), ("and", wrap "x" empty), ("or", node (Table.ofList [("z", .bool true)]) [])] ∧
      d.agrees interleaved = false := by
  have hempty : empty.Everywhere Lossless := .node ⟨by decide, by decide⟩ (by simp)
  have hwrap : (wrap "x" empty).Everywhere Lossless := .node ⟨by decide, by decide⟩ (by simpa using hempty)
  have hz : (node (Table.ofList [("z", .bool true)]) []).Everywhere Lossless :=
    .node ⟨by decide, by decide⟩ (by simp)
  have hc : interleaved.Everywhere Lossless :=
    .node ⟨by decide, by decide⟩ (by simpa using ⟨hempty, hz, hwrap⟩)
  obtain ⟨d, hd, hregrouped, -, -⟩ := json_round_trip interleaved
  obtain ⟨rfl, hattributes, -⟩ := hregrouped hc
  exact ⟨hc, _, hd, hattributes, rfl, rfl⟩

end Config
end Muster
