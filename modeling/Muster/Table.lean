/-
# Tables

A finite table from keys to values, kept as its entries in strictly ascending
key order.  Two tables with the same look-ups are therefore the same table
(`ext_get?`), whatever the order in which their entries came in.

`get?_insert` and `get?_erase` are the whole behaviour: writing at a key changes
the look-up at that key and at no other.
-/

namespace Muster

/-- Entries in strictly ascending key order. -/
structure Table (κ ν : Type) [Ord κ] where
  entries : List (κ × ν)
  ascending : entries.Pairwise fun a b => compare a.1 b.1 = .lt

namespace Table

variable {κ ν : Type} [Ord κ]

/-- The value at a key in a list of entries. -/
def lookup (k : κ) : List (κ × ν) → Option ν
  | [] => none
  | (k', v) :: es => if compare k k' = .eq then some v else lookup k es

/-- Entries in ascending order with one more, which replaces an entry of the same key. -/
def put (k : κ) (v : ν) : List (κ × ν) → List (κ × ν)
  | [] => [(k, v)]
  | (k', v') :: es =>
    match compare k k' with
    | .lt => (k, v) :: (k', v') :: es
    | .eq => (k, v) :: es
    | .gt => (k', v') :: put k v es

/-- Entries without those at a key. -/
def remove (k : κ) (es : List (κ × ν)) : List (κ × ν) := es.filter fun e => compare k e.1 ≠ .eq

/-- The table without entries. -/
def empty : Table κ ν := ⟨[], .nil⟩

instance : Inhabited (Table κ ν) := ⟨empty⟩

/-- The value at a key. -/
def get? (t : Table κ ν) (k : κ) : Option ν := lookup k t.entries

/-- Whether a key has a value. -/
def contains (t : Table κ ν) (k : κ) : Bool := (t.get? k).isSome

/-- The number of keys. -/
def size (t : Table κ ν) : Nat := t.entries.length

/-- Whether there is no key. -/
def isEmpty (t : Table κ ν) : Bool := t.entries.isEmpty

theorem get?_of_isEmpty {t : Table κ ν} (h : t.isEmpty = true) : t.get? = fun _ => none := by
  funext k
  rw [get?, List.isEmpty_iff.1 h]
  rfl

/-- Take the value at a key away. -/
def erase (t : Table κ ν) (k : κ) : Table κ ν := ⟨remove k t.entries, t.ascending.filter _⟩

/-- The table of the entries that pass a test. -/
def filter (t : Table κ ν) (p : κ × ν → Bool) : Table κ ν := ⟨t.entries.filter p, t.ascending.filter _⟩

theorem filter_eq_self {t : Table κ ν} {p : κ × ν → Bool} (h : ∀ e ∈ t.entries, p e = true) : t.filter p = t := by
  obtain ⟨es, hes⟩ := t
  have hfilter : es.filter p = es := List.filter_eq_self.2 h
  simp only [filter, hfilter]

/-- Apply a function to every value. -/
def mapValues {μ : Type} (f : ν → μ) (t : Table κ ν) : Table κ μ where
  entries := t.entries.map fun e => (e.1, f e.2)
  ascending := List.pairwise_map.2 t.ascending

theorem get?_mapValues {μ : Type} (f : ν → μ) (t : Table κ ν) (k : κ) : (t.mapValues f).get? k = (t.get? k).map f := by
  obtain ⟨es, hes⟩ := t
  change lookup k (es.map fun e => (e.1, f e.2)) = (lookup k es).map f
  clear hes
  induction es with
  | nil => rfl
  | cons e es ih =>
    rw [List.map_cons, lookup, lookup, ih]
    split <;> rfl

theorem fst_mem_put {k : κ} {v : ν} {es : List (κ × ν)} {e : κ × ν} (h : e ∈ put k v es) :
    e.1 = k ∨ e ∈ es := by
  induction es with
  | nil => simp [put] at h; simp [h]
  | cons d es ih =>
    obtain ⟨k', v'⟩ := d
    simp only [put] at h
    split at h
    · rcases List.mem_cons.1 h with rfl | h
      · exact .inl rfl
      · exact .inr h
    · rcases List.mem_cons.1 h with rfl | h
      · exact .inl rfl
      · exact .inr (List.mem_cons_of_mem _ h)
    · rcases List.mem_cons.1 h with rfl | h
      · exact .inr (List.mem_cons_self ..)
      · exact (ih h).imp id (List.mem_cons_of_mem _)

theorem lookup_eq_none_of_lt {k : κ} {es : List (κ × ν)} (h : ∀ e ∈ es, compare k e.1 = .lt) :
    lookup k es = none := by
  induction es with
  | nil => rfl
  | cons d es ih =>
    simp only [lookup, h d (List.mem_cons_self ..), reduceCtorEq, if_false]
    exact ih fun e he => h e (List.mem_cons_of_mem _ he)

section Lawful

variable [Std.LawfulEqOrd κ]

theorem lookup_put (k : κ) (v : ν) (k' : κ) (es : List (κ × ν)) :
    lookup k' (put k v es) = if compare k' k = .eq then some v else lookup k' es := by
  induction es with
  | nil => simp [put, lookup]
  | cons d es ih =>
    obtain ⟨kd, vd⟩ := d
    simp only [put]
    split
    · simp [lookup]
    · next heq =>
      have hk := Std.LawfulEqOrd.eq_of_compare heq
      subst hk
      simp only [lookup]
      split <;> rfl
    · next hgt =>
      simp only [lookup, ih]
      split <;> split
      · next h1 h2 =>
        have h1 := Std.LawfulEqOrd.eq_of_compare h1
        have h2 := Std.LawfulEqOrd.eq_of_compare h2
        subst h1 h2
        simp at hgt
      all_goals rfl

theorem lookup_remove (k k' : κ) (es : List (κ × ν)) :
    lookup k' (remove k es) = if compare k' k = .eq then none else lookup k' es := by
  induction es with
  | nil => simp [remove, lookup]
  | cons d es ih =>
    obtain ⟨kd, vd⟩ := d
    by_cases h : compare k kd = .eq
    · have hk := Std.LawfulEqOrd.eq_of_compare h
      subst hk
      rw [show remove k ((k, vd) :: es) = remove k es from by simp [remove], ih]
      simp only [lookup]
      split <;> rfl
    · rw [show remove k ((kd, vd) :: es) = (kd, vd) :: remove k es from by simp [remove, h]]
      simp only [lookup, ih]
      split <;> split
      · next h1 h2 =>
        have h1 := Std.LawfulEqOrd.eq_of_compare h1
        have h2 := Std.LawfulEqOrd.eq_of_compare h2
        subst h1 h2
        simp at h
      all_goals rfl

theorem get?_erase (t : Table κ ν) (k k' : κ) :
    (t.erase k).get? k' = if compare k' k = .eq then none else t.get? k' :=
  lookup_remove k k' t.entries

theorem mem_of_lookup {k : κ} {v : ν} {es : List (κ × ν)} (h : lookup k es = some v) :
    (k, v) ∈ es := by
  induction es with
  | nil => simp [lookup] at h
  | cons d es ih =>
    simp only [lookup] at h
    split at h
    · next hk =>
      obtain rfl := Std.LawfulEqOrd.eq_of_compare hk
      obtain rfl := Option.some.inj h
      exact List.mem_cons_self ..
    · exact List.mem_cons_of_mem _ (ih h)

/-- Entries of the keys that pass a test keep their look-ups. -/
theorem lookup_filter (p : κ → Bool) (k : κ) (es : List (κ × ν)) :
    lookup k (es.filter fun e => p e.1) = if p k then lookup k es else none := by
  induction es with
  | nil => simp [lookup]
  | cons d es ih =>
    by_cases hk : compare k d.1 = .eq
    · obtain rfl := Std.LawfulEqOrd.eq_of_compare hk
      by_cases hp : p d.1 <;> simp [lookup, hp, ih]
    · by_cases hp : p d.1 <;> simp [lookup, hp, hk, ih]

theorem lookup_of_mem {es : List (κ × ν)} (h : es.Pairwise fun a b => compare a.1 b.1 = .lt) {k : κ} {v : ν}
    (hkv : (k, v) ∈ es) : lookup k es = some v := by
  induction es with
  | nil => simp at hkv
  | cons d es ih =>
    have hd := List.pairwise_cons.1 h
    rcases List.mem_cons.1 hkv with rfl | hkv
    · simp [lookup]
    · have hlt := hd.1 _ hkv
      have hne : compare k d.1 ≠ .eq := by
        intro heq
        obtain rfl := Std.LawfulEqOrd.eq_of_compare heq
        simp at hlt
      simp only [lookup, hne, if_false]
      exact ih hd.2 hkv

theorem lookup_eq_list_lookup [BEq κ] [LawfulBEq κ] (k : κ) (es : List (κ × ν)) : lookup k es = es.lookup k := by
  induction es with
  | nil => rfl
  | cons e es ih =>
    rw [lookup, List.lookup_cons, ih]
    by_cases h : k = e.1
    · simp [h]
    · rw [if_neg (by simpa using h), beq_false_of_ne h]

theorem get?_eq_some_iff {t : Table κ ν} {k : κ} {v : ν} : t.get? k = some v ↔ (k, v) ∈ t.entries :=
  ⟨mem_of_lookup, lookup_of_mem t.ascending⟩

theorem get?_eq_none_iff {t : Table κ ν} {k : κ} : t.get? k = none ↔ k ∉ t.entries.map Prod.fst := by
  constructor
  · intro h hk
    obtain ⟨⟨_, v⟩, he, rfl⟩ := List.mem_map.1 hk
    rw [get?_eq_some_iff.2 he] at h
    cases h
  · intro h
    refine Option.eq_none_iff_forall_ne_some.2 fun v hv => h ?_
    exact List.mem_map.2 ⟨(k, v), get?_eq_some_iff.1 hv, rfl⟩

/-- The keys are different. -/
theorem nodup_keys (t : Table κ ν) : (t.entries.map Prod.fst).Nodup := by
  refine List.pairwise_map.2 (t.ascending.imp fun {a b} hlt heq => ?_)
  rw [heq, Std.LawfulEqOrd.compare_eq_iff_eq.2 rfl] at hlt
  cases hlt

end Lawful

variable [Std.TransOrd κ] [Std.LawfulEqOrd κ]

theorem ascending_put (k : κ) (v : ν) {es : List (κ × ν)}
    (h : es.Pairwise fun a b => compare a.1 b.1 = .lt) :
    (put k v es).Pairwise fun a b => compare a.1 b.1 = .lt := by
  induction es with
  | nil => simp [put]
  | cons d es ih =>
    obtain ⟨k', v'⟩ := d
    have hd := List.pairwise_cons.1 h
    simp only [put]
    split
    · next hlt =>
      refine List.pairwise_cons.2 ⟨fun e he => ?_, h⟩
      rcases List.mem_cons.1 he with rfl | he
      · exact hlt
      · exact Std.TransCmp.lt_trans hlt (hd.1 e he)
    · next heq =>
      have hk := Std.LawfulEqOrd.eq_of_compare heq
      subst hk
      exact List.pairwise_cons.2 hd
    · next hgt =>
      refine List.pairwise_cons.2 ⟨fun e he => ?_, ih hd.2⟩
      rcases fst_mem_put he with hek | he
      · rw [hek]; exact Std.OrientedCmp.lt_of_gt hgt
      · exact hd.1 e he

/-- Write a value at a key. -/
def insert (t : Table κ ν) (k : κ) (v : ν) : Table κ ν := ⟨put k v t.entries, ascending_put k v t.ascending⟩

/-- The table that writes the given entries in order, so that the last one at a key stays. -/
def ofList (es : List (κ × ν)) : Table κ ν := es.foldl (fun t e => t.insert e.1 e.2) empty

theorem get?_insert (t : Table κ ν) (k : κ) (v : ν) (k' : κ) :
    (t.insert k v).get? k' = if compare k' k = .eq then some v else t.get? k' :=
  lookup_put k v k' t.entries

theorem get?_insert_self (t : Table κ ν) (k : κ) (v : ν) : (t.insert k v).get? k = some v := by
  rw [get?_insert, if_pos (Std.LawfulEqOrd.compare_eq_iff_eq.2 rfl)]

theorem get?_insert_of_ne (t : Table κ ν) {k k' : κ} (h : k' ≠ k) (v : ν) : (t.insert k v).get? k' = t.get? k' := by
  rw [get?_insert, if_neg (mt Std.LawfulEqOrd.compare_eq_iff_eq.1 h)]

theorem isEmpty_insert (t : Table κ ν) (k : κ) (v : ν) : (t.insert k v).isEmpty = false := by
  have h := t.get?_insert_self k v
  rw [isEmpty, List.isEmpty_eq_false_iff]
  rintro hnil
  rw [get?, hnil] at h
  cases h

theorem eq_of_lookup_eq {es ds : List (κ × ν)} (he : es.Pairwise fun a b => compare a.1 b.1 = .lt)
    (hd : ds.Pairwise fun a b => compare a.1 b.1 = .lt) (h : ∀ k, lookup k es = lookup k ds) :
    es = ds := by
  induction es generalizing ds with
  | nil =>
    cases ds with
    | nil => rfl
    | cons d ds => have := h d.1; simp [lookup] at this
  | cons e es ih =>
    obtain ⟨ke, ve⟩ := e
    cases ds with
    | nil => have := h ke; simp [lookup] at this
    | cons d ds =>
      obtain ⟨kd, vd⟩ := d
      have he' := List.pairwise_cons.1 he
      have hd' := List.pairwise_cons.1 hd
      have below : ∀ {k : κ} {v v' : ν} {k' : κ} {xs ys : List (κ × ν)},
          (∀ y ∈ ys, compare k' y.1 = .lt) → compare k k' = .lt →
          lookup k ((k, v) :: xs) = lookup k ((k', v') :: ys) → False := by
        intro k v v' k' xs ys hy hlt heq
        have hnone : lookup k ((k', v') :: ys) = none := lookup_eq_none_of_lt fun y hym => by
          rcases List.mem_cons.1 hym with rfl | hym
          · exact hlt
          · exact Std.TransCmp.lt_trans hlt (hy y hym)
        rw [hnone] at heq
        simp [lookup] at heq
      have hkk : ke = kd := by
        cases hc : compare ke kd with
        | lt => exact (below hd'.1 hc (h ke)).elim
        | eq => exact Std.LawfulEqOrd.eq_of_compare hc
        | gt => exact (below he'.1 (Std.OrientedCmp.lt_of_gt hc) (h kd).symm).elim
      subst hkk
      have hv : ve = vd := by simpa [lookup] using h ke
      subst hv
      rw [ih he'.2 hd'.2 fun k => ?_]
      by_cases hk : compare k ke = .eq
      · obtain rfl := Std.LawfulEqOrd.eq_of_compare hk
        rw [lookup_eq_none_of_lt he'.1, lookup_eq_none_of_lt hd'.1]
      · simpa [lookup, hk] using h k

theorem get?_foldl_insert {es : List (κ × ν)} (h : es.Pairwise fun a b => compare a.1 b.1 = .lt) (k : κ)
    (t : Table κ ν) : (es.foldl (fun t e => t.insert e.1 e.2) t).get? k = (lookup k es).or (t.get? k) := by
  induction es generalizing t with
  | nil => rfl
  | cons e es ih =>
    have he := List.pairwise_cons.1 h
    rw [List.foldl_cons, ih he.2, get?_insert, lookup]
    by_cases hk : compare k e.1 = .eq
    · obtain rfl := Std.LawfulEqOrd.eq_of_compare hk
      simp [lookup_eq_none_of_lt he.1]
    · simp [hk]

theorem get?_ofList {es : List (κ × ν)} (h : es.Pairwise fun a b => compare a.1 b.1 = .lt) (k : κ) :
    (ofList es).get? k = lookup k es := by
  rw [ofList, get?_foldl_insert h]
  exact Option.or_none

/-- A table is determined by its look-ups. -/
theorem ext_get? {t u : Table κ ν} (h : ∀ k, t.get? k = u.get? k) : t = u := by
  obtain ⟨es, he⟩ := t
  obtain ⟨ds, hd⟩ := u
  have := eq_of_lookup_eq he hd h
  subst this
  rfl

/-- Writing the entries of a table gives the table. -/
@[simp] theorem ofList_entries (t : Table κ ν) : ofList t.entries = t :=
  ext_get? (get?_ofList t.ascending)

end Table

/-- A finite set of keys, kept as a table without information. -/
abbrev KeySet (κ : Type) [Ord κ] := Table κ PUnit

namespace KeySet

variable {κ : Type} [Ord κ]

/-- The members in ascending order. -/
def members (s : KeySet κ) : List κ := s.entries.map Prod.fst

variable [Std.TransOrd κ] [Std.LawfulEqOrd κ]

/-- The set of the keys of a list. -/
def ofKeys (ks : List κ) : KeySet κ := Table.ofList (ks.map fun k => (k, ⟨⟩))

theorem contains_ofKeys (ks : List κ) (k : κ) : (ofKeys ks).contains k = true ↔ k ∈ ks := by
  have hfold : ∀ (ks : List κ) (s : KeySet κ),
      ((ks.map fun k => (k, PUnit.unit)).foldl (fun t e => t.insert e.1 e.2) s).contains k = true ↔
        k ∈ ks ∨ s.contains k = true := by
    intro ks
    induction ks with
    | nil => simp
    | cons k' ks ih =>
      intro s
      rw [List.map_cons, List.foldl_cons, ih, List.mem_cons]
      by_cases h : k = k' <;> simp [Table.contains, Table.get?_insert, h]
  rw [ofKeys, Table.ofList, hfold]
  simp [Table.contains, Table.empty, Table.get?, Table.lookup]

/-- A set is determined by its members. -/
theorem ext_contains {s t : KeySet κ} (h : ∀ k, s.contains k = true ↔ t.contains k = true) : s = t := by
  refine Table.ext_get? fun k => ?_
  have hk := h k
  rw [Table.contains, Table.contains] at hk
  cases hs : s.get? k <;> cases ht : t.get? k <;> simp_all

end KeySet
end Muster
