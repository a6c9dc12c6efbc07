/-
# Grouping by tags

An object of JSON has room for each tag once, so writing a list of tagged values as
an object gathers the values of a tag (`gather`).  Nothing but the order of
different tags is lost: a list of tagged values is determined by the order of its
tags and by the values under each tag (`ext_valuesAt`).  Hence gathering the tags
in order of first appearance changes a list if and only if some tag comes again
after another one (`grouped_eq_self_iff`).
-/

import Muster.Config.Json

namespace Muster
namespace Config

variable {α β : Type}

/-! ### The values under a tag -/

/-- An entry in front adds its value under its own tag. -/
theorem valuesAt_cons (t : String) (e : String × α) (es : List (String × α)) :
    valuesAt t (e :: es) = if e.1 = t then e.2 :: valuesAt t es else valuesAt t es := by
  rw [valuesAt, List.filterMap_cons]
  by_cases h : e.1 = t <;> simp [h, valuesAt]

/-- The values of lists put together. -/
theorem valuesAt_append (t : String) (es ds : List (String × α)) :
    valuesAt t (es ++ ds) = valuesAt t es ++ valuesAt t ds := List.filterMap_append

/-- Changing the values keeps them under their tags. -/
theorem valuesAt_map (f : α → β) (t : String) (es : List (String × α)) :
    valuesAt t (es.map fun e => (e.1, f e.2)) = (valuesAt t es).map f := by
  induction es with
  | nil => rfl
  | cons e es ih =>
    rw [List.map_cons, valuesAt_cons, valuesAt_cons, ih]
    split <;> rfl

/-- The values under a tag are those of its entries. -/
theorem mem_valuesAt {t : String} {v : α} {es : List (String × α)} : v ∈ valuesAt t es ↔ (t, v) ∈ es := by
  rw [valuesAt, List.mem_filterMap]
  constructor
  · rintro ⟨⟨u, w⟩, hmem, h⟩
    obtain ⟨rfl, hw⟩ := Option.ite_none_right_eq_some.1 h
    obtain rfl := Option.some.inj hw
    exact hmem
  · exact fun h => ⟨(t, v), h, if_pos rfl⟩

/-- There are as many values under a tag as the tag has entries. -/
theorem length_valuesAt (t : String) (es : List (String × α)) :
    (valuesAt t es).length = (es.map Prod.fst).count t := by
  induction es with
  | nil => rfl
  | cons e es ih =>
    rw [valuesAt_cons, List.map_cons, List.count_cons, ← ih]
    by_cases h : e.1 = t <;> simp [h]

/-- There are no values under a tag that does not occur. -/
theorem valuesAt_eq_nil_iff {t : String} {es : List (String × α)} :
    valuesAt t es = [] ↔ t ∉ es.map Prod.fst := by
  rw [← List.length_eq_zero_iff, length_valuesAt, List.count_eq_zero]

/-- A list of tagged values is determined by its tags and the values under each. -/
theorem ext_valuesAt {es ds : List (String × α)} (htags : es.map Prod.fst = ds.map Prod.fst)
    (hvalues : ∀ t, valuesAt t es = valuesAt t ds) : es = ds := by
  induction es generalizing ds with
  | nil => exact (List.map_eq_nil_iff.1 htags.symm).symm
  | cons e es ih =>
    cases ds with
    | nil => cases htags
    | cons d ds =>
      obtain ⟨hfst, hrest⟩ := List.cons_eq_cons.1 htags
      have hhead := hvalues e.1
      rw [valuesAt_cons, valuesAt_cons, if_pos rfl, if_pos hfst.symm] at hhead
      have hed : e = d := Prod.ext hfst (List.cons_eq_cons.1 hhead).1
      have hes : es = ds := ih hrest fun t => by
        have ht := hvalues t
        rw [valuesAt_cons, valuesAt_cons, hed] at ht
        split at ht
        · exact (List.cons_eq_cons.1 ht).2
        · exact ht
      rw [hed, hes]

/-! ### Gathering -/

/-- The values under some tags, tag by tag. -/
def gather (tags : List String) (es : List (String × α)) : List (String × α) :=
  tags.flatMap fun t => (valuesAt t es).map fun v => (t, v)

/-- The values of the first tag come first. -/
theorem gather_cons (t : String) (tags : List String) (es : List (String × α)) :
    gather (t :: tags) es = (valuesAt t es).map (fun v => (t, v)) ++ gather tags es := List.flatMap_cons

/-- Tags put together are gathered one list after the other. -/
theorem gather_append (tags tags' : List String) (es : List (String × α)) :
    gather (tags ++ tags') es = gather tags es ++ gather tags' es := List.flatMap_append

/-- A tag that is left out gives nothing. -/
theorem gather_filter (p : String → Bool) (tags : List String) (es : List (String × α)) :
    gather (tags.filter p) es = tags.flatMap fun t => if p t then (valuesAt t es).map fun v => (t, v) else [] := by
  induction tags with
  | nil => rfl
  | cons t tags ih => cases h : p t <;> simp [h, gather_cons, ih]

/-- What is gathered are the entries of the tags. -/
theorem mem_gather {tags : List String} {es : List (String × α)} {e : String × α} :
    e ∈ gather tags es ↔ e.1 ∈ tags ∧ e ∈ es := by
  rw [gather, List.mem_flatMap]
  constructor
  · rintro ⟨t, ht, he⟩
    obtain ⟨v, hv, rfl⟩ := List.mem_map.1 he
    exact ⟨ht, mem_valuesAt.1 hv⟩
  · rintro ⟨ht, he⟩
    exact ⟨e.1, ht, List.mem_map.2 ⟨e.2, mem_valuesAt.2 he, rfl⟩⟩

/-- The tags of gathered values: each as often as before. -/
theorem tags_gather (tags : List String) (es : List (String × α)) :
    (gather tags es).map Prod.fst = tags.flatMap fun t => List.replicate ((es.map Prod.fst).count t) t := by
  rw [gather, List.map_flatMap]
  congr 1
  funext t
  rw [List.map_map, ← length_valuesAt]
  exact List.map_const ..

/-- **Gathering keeps the values** under the tags gathered, in order, and no others. -/
theorem valuesAt_gather {tags : List String} (hnodup : tags.Nodup) (es : List (String × α)) (t : String) :
    valuesAt t (gather tags es) = if t ∈ tags then valuesAt t es else [] := by
  induction tags with
  | nil => rfl
  | cons u tags ih =>
    obtain ⟨hu, htags⟩ := List.nodup_cons.1 hnodup
    rw [gather_cons, valuesAt_append, ih htags]
    by_cases h : u = t
    · subst h
      have hall : valuesAt u ((valuesAt u es).map fun v => (u, v)) = valuesAt u es := by
        generalize valuesAt u es = vs
        induction vs with
        | nil => rfl
        | cons v vs ih => rw [List.map_cons, valuesAt_cons, if_pos rfl, ih]
      rw [hall, if_neg hu, if_pos (List.mem_cons_self ..), List.append_nil]
    · have hnone : valuesAt t ((valuesAt u es).map fun v => (u, v)) = [] := by
        rw [valuesAt_eq_nil_iff, List.map_map]
        intro hmem
        obtain ⟨v, -, hv⟩ := List.mem_map.1 hmem
        exact h hv
      rw [hnone, List.nil_append]
      simp only [List.mem_cons, Ne.symm h, false_or]

/-! ### Tags that come in one stretch -/

/-- Each tag comes in one stretch: one that another tag follows does not come again. -/
def Contiguous : List String → Prop
  | t :: u :: tags => (t = u ∨ t ∉ u :: tags) ∧ Contiguous (u :: tags)
  | _ => True

/-- A stretch of a new tag may stand in front. -/
theorem contiguous_replicate_append (n : Nat) {t : String} {tags : List String} (ht : t ∉ tags)
    (htags : Contiguous tags) : Contiguous (List.replicate n t ++ tags) := by
  induction n with
  | zero => exact htags
  | succ n ih =>
    rw [List.replicate_succ, List.cons_append]
    cases n with
    | zero =>
      cases tags with
      | nil => exact trivial
      | cons u tags => exact ⟨.inr ht, htags⟩
    | succ n => exact ⟨.inl rfl, ih⟩

/-- Stretches of different tags leave each tag in one. -/
theorem contiguous_stretches (n : String → Nat) {tags : List String} (hnodup : tags.Nodup) :
    Contiguous (tags.flatMap fun t => List.replicate (n t) t) := by
  induction tags with
  | nil => exact trivial
  | cons t tags ih =>
    obtain ⟨ht, htags⟩ := List.nodup_cons.1 hnodup
    rw [List.flatMap_cons]
    refine contiguous_replicate_append (n t) (fun hmem => ?_) (ih htags)
    obtain ⟨u, hu, htu⟩ := List.mem_flatMap.1 hmem
    exact ht (List.eq_of_mem_replicate htu ▸ hu)

/-- The tags in order of first appearance are all different. -/
theorem nodup_eraseDups : ∀ tags : List String, tags.eraseDups.Nodup
  | [] => .nil
  | t :: tags => by
    rw [List.eraseDups_cons]
    refine List.nodup_cons.2 ⟨fun hmem => ?_, nodup_eraseDups (tags.filter fun u => !u == t)⟩
    simp [List.mem_eraseDups] at hmem
termination_by tags => tags.length
decreasing_by exact Nat.lt_succ_of_le (List.length_filter_le ..)

/-- The tags of a list in stretches, in order of first appearance. -/
def stretches (tags : List String) : List String :=
  tags.eraseDups.flatMap fun t => List.replicate (tags.count t) t

/-- The first tag takes all its later entries to the front. -/
theorem stretches_cons (t : String) (tags : List String) :
    stretches (t :: tags) = List.replicate (tags.count t + 1) t ++ stretches (tags.filter fun u => !u == t) := by
  rw [stretches, List.eraseDups_cons, List.flatMap_cons, List.count_cons_self, stretches]
  congr 1
  rw [List.flatMap_def, List.flatMap_def]
  congr 1
  refine List.map_congr_left fun u hu => ?_
  obtain ⟨-, hne⟩ := List.mem_filter.1 (List.mem_eraseDups.1 hu)
  have hne' : t ≠ u := by
    rintro rfl
    simp at hne
  have hcount : (tags.filter fun u => !u == t).count u = tags.count u := List.count_filter hne
  rw [List.count_cons_of_ne hne', hcount]

/-- **Tags in one stretch each** are in stretches as they are. -/
theorem stretches_of_contiguous : ∀ {tags : List String}, Contiguous tags → stretches tags = tags
  | [], _ => rfl
  | [t], _ => by rw [stretches_cons]; rfl
  | t :: u :: tags, ⟨hnext, hrest⟩ => by
    have ih := stretches_of_contiguous hrest
    rw [stretches_cons]
    by_cases h : t = u
    · subst h
      rw [stretches_cons] at ih
      have hfilter : (t :: tags).filter (fun u => !u == t) = tags.filter fun u => !u == t := by simp
      rw [hfilter, List.count_cons_self, List.replicate_succ, List.cons_append, ih]
    · have hnot : t ∉ u :: tags := hnext.resolve_left h
      have hfilter : (u :: tags).filter (fun u => !u == t) = u :: tags := by
        refine List.filter_eq_self.2 fun v hv => ?_
        have hvt : v ≠ t := fun hvt => hnot (hvt ▸ hv)
        simpa using hvt
      rw [hfilter, List.count_eq_zero.2 hnot, ih]
      rfl

/-- A list of tagged values, stably regrouped by tag in order of first appearance. -/
def grouped (es : List (String × α)) : List (String × α) := gather (es.map Prod.fst).eraseDups es

/-- Regrouping keeps the values under every tag, in order. -/
theorem valuesAt_grouped (es : List (String × α)) (t : String) : valuesAt t (grouped es) = valuesAt t es := by
  rw [grouped, valuesAt_gather (nodup_eraseDups _)]
  split
  · rfl
  · next h =>
    rw [List.mem_eraseDups] at h
    exact (valuesAt_eq_nil_iff.2 h).symm

/-- **Regrouping changes nothing** if and only if each tag comes in one stretch. -/
theorem grouped_eq_self_iff {es : List (String × α)} : grouped es = es ↔ Contiguous (es.map Prod.fst) := by
  have htags : (grouped es).map Prod.fst = stretches (es.map Prod.fst) := tags_gather _ es
  constructor
  · intro h
    rw [← h, htags]
    exact contiguous_stretches _ (nodup_eraseDups _)
  · intro h
    exact ext_valuesAt (htags.trans (stretches_of_contiguous h)) (valuesAt_grouped es)

end Config
end Muster
