/-
# The meaning of JSON documents

Which JSON documents are configs is a question of what may stand where:

| place | `null`, scalars | arrays | objects |
| --- | --- | --- | --- |
| the document | not an object | segments | members |
| a segment | not an object | not an object | members |
| a member of an object | fine | items | members |
| an item of a member | unsupported | segments | members |

`faults` lists everything that stands where it may not, in document order.  Reading
a document fails with the first of these and succeeds where there is none
(`ofJson_reads`), which is to say that the document is `Acceptable`.  The config
then has one child for each object and each item among the members of the document
(`parts`), read by itself, and under each key the last scalar that a member gives.
So segments mean what they mean one after the other (`ofJson_append`).
-/

import Muster.Proofs.Config.RoundTrip

namespace Muster
namespace Config

/-! ### What may stand where -/

/-- Where a value stands in a document. -/
inductive Place where
  | document
  | segment
  | member (key : String)
  | item (key : String)

namespace Place

/-- Where the elements of an array stand, if an array may stand here. -/
def elements? : Place → Option Place
  | document => some segment
  | segment => none
  | member key => some (item key)
  | item _ => some segment

/-- The fault of a value of the given kind that is no object and has no elements to look at. -/
def fault? : Place → String → Option ConfigError
  | document, kind => some (.notAnObject kind)
  | segment, kind => some (.notAnObject kind)
  | member _, _ => none
  | item key, kind => some (.unsupportedValue key kind)

end Place

mutual

/-- The faults of a value at a place and of all within it, in document order. -/
def faults : Place → Json → List ConfigError
  | _, .obj ms => faultsOfMembers ms
  | p, .arr vs =>
    match p.elements? with
    | some q => faultsOfElements q vs
    | none => (p.fault? "array").toList
  | p, v => (p.fault? v.kind).toList

/-- The faults of several values at one kind of place. -/
def faultsOfElements : Place → List Json → List ConfigError
  | _, [] => []
  | p, v :: vs => faults p v ++ faultsOfElements p vs

/-- The faults of the members of an object. -/
def faultsOfMembers : List (String × Json) → List ConfigError
  | [] => []
  | (key, v) :: ms => faults (.member key) v ++ faultsOfMembers ms

end

/-- A document that can be read: an object, or an array of objects, all of whose
members that are objects and all items of whose members that are arrays can be read
as well. -/
inductive Acceptable : Json → Prop where
  | obj {ms : List (String × Json)} (member : ∀ key inner, (key, .obj inner) ∈ ms → Acceptable (.obj inner))
      (item : ∀ key vs, (key, .arr vs) ∈ ms → ∀ v ∈ vs, Acceptable v) : Acceptable (.obj ms)
  | arr {segments : List Json} (objects : ∀ v ∈ segments, ∃ ms, v = .obj ms)
      (each : ∀ v ∈ segments, Acceptable v) : Acceptable (.arr segments)

/-! ### What a document gives -/

/-- The members of a document, over all its segments. -/
def documentMembers : Json → List (String × Json)
  | .obj ms => ms
  | .arr segments => segmentMembers segments
  | _ => []

/-- The documents that a member holds, each under the key. -/
def memberParts : String × Json → List (String × Json)
  | (key, .obj inner) => [(key, .obj inner)]
  | (key, .arr vs) => vs.map fun v => (key, v)
  | _ => []

/-- The documents within a document that make the children, in order. -/
def parts (v : Json) : List (String × Json) := (documentMembers v).flatMap memberParts

/-- The scalars that a document gives for a key, in order. -/
def scalarsUnder (key : String) (v : Json) : List Scalar :=
  (documentMembers v).filterMap fun m => if m.1 = key then Scalar.ofJson? m.2 else none

/-- Children that are made of documents, one by one, each read by itself. -/
def MadeOf (cs : List (String × Config)) (ps : List (String × Json)) : Prop :=
  cs.map (fun c => (c.1, Except.ok c.2)) = ps.map fun p => (p.1, ofJson p.2)

/-- A reading that fails with the first of some faults, or else makes children of some documents. -/
def Reads (x : Except ConfigError (List (String × Config))) (fs : List ConfigError) (ps : List (String × Json)) : Prop :=
  match fs with
  | e :: _ => x = .error e
  | [] => ∃ cs, x = .ok cs ∧ MadeOf cs ps

namespace Reads

variable {x y : Except ConfigError (List (String × Config))} {fs gs : List ConfigError} {ps qs : List (String × Json)}

/-- No members, no faults and no children. -/
theorem nil : Reads (.ok []) [] [] := ⟨[], rfl, rfl⟩

/-- **Reading on:** what comes first fails first. -/
theorem append (hx : Reads x fs ps) (hy : Reads y gs qs) :
    Reads (do return (← x) ++ (← y)) (fs ++ gs) (ps ++ qs) := by
  cases fs with
  | cons e fs =>
    obtain rfl : x = .error e := hx
    rfl
  | nil =>
    obtain ⟨cs, rfl, hcs⟩ := hx
    cases gs with
    | cons e gs =>
      obtain rfl : y = .error e := hy
      rfl
    | nil =>
      obtain ⟨ds, rfl, hds⟩ := hy
      refine ⟨cs ++ ds, rfl, ?_⟩
      rw [MadeOf, List.map_append, List.map_append, hcs, hds]

end Reads

/-- A document that cannot be read for the first of its faults, or else is read with its parts as children. -/
def ReadsDocument (v : Json) : Prop :=
  Reads ((ofJson v).map children) (faults .document v) (parts v)

/-- The children of an object are read from its members. -/
theorem map_children_obj (ms : List (String × Json)) : (ofJson (.obj ms)).map children = memberChildren ms := by
  rw [ofJson]
  cases memberChildren ms <;> rfl

/-- The children of an array are read from its segments. -/
theorem map_children_arr (segments : List Json) : (ofJson (.arr segments)).map children = segmentChildren segments := by
  rw [ofJson]
  cases segmentChildren segments <;> rfl

/-- What can come of reading a document: a config and no fault, or the first fault. -/
theorem ReadsDocument.outcome {v : Json} (h : ReadsDocument v) :
    (∃ c, ofJson v = .ok c ∧ faults .document v = [] ∧ MadeOf c.children (parts v)) ∨
      ∃ e fs, ofJson v = .error e ∧ faults .document v = e :: fs := by
  rw [ReadsDocument] at h
  cases hv : ofJson v <;> cases hf : faults .document v <;> rw [hv, hf] at h
  case ok.nil c =>
    obtain ⟨cs, hcs, hmade⟩ := h
    obtain rfl : c.children = cs := Except.ok.inj hcs
    exact .inl ⟨c, rfl, rfl, hmade⟩
  case error.cons e e' fs =>
    obtain rfl : e = e' := Except.error.inj h
    exact .inr ⟨e, fs, rfl, rfl⟩
  case ok.cons => cases h
  case error.nil =>
    obtain ⟨cs, hcs, -⟩ := h
    cases hcs

/-- A document under a key makes one child more. -/
theorem ReadsDocument.cons {v : Json} (h : ReadsDocument v) (key : String)
    {x : Except ConfigError (List (String × Config))} {fs : List ConfigError} {ps : List (String × Json)}
    (hx : Reads x fs ps) :
    Reads (do let c ← ofJson v; return (key, c) :: (← x)) (faults .document v ++ fs) ((key, v) :: ps) := by
  rcases h.outcome with ⟨c, hc, hf, -⟩ | ⟨e, gs, he, hf⟩
  · have hchild : Reads (.ok [(key, c)]) [] [(key, v)] := ⟨_, rfl, by rw [MadeOf, List.map_singleton, List.map_singleton, hc]⟩
    rw [hc, hf]
    exact hchild.append hx
  · rw [he, hf]
    rfl

mutual

/-- **Reading a document** fails with its first fault, or makes its parts the children. -/
theorem ofJson_reads : ∀ v : Json, ReadsDocument v
  | .obj ms => by
    rw [ReadsDocument, map_children_obj]
    exact memberChildren_reads ms
  | .arr segments => by
    rw [ReadsDocument, map_children_arr]
    exact segmentChildren_reads segments
  | .null => rfl
  | .bool _ => rfl
  | .int _ => rfl
  | .real _ => rfl
  | .str _ => rfl

/-- Segments fail with the first fault of one, or make the children of all. -/
theorem segmentChildren_reads : ∀ segments : List Json,
    Reads (segmentChildren segments) (faultsOfElements .segment segments) ((segmentMembers segments).flatMap memberParts)
  | [] => .nil
  | .obj ms :: segments => by
    have hparts : (segmentMembers (.obj ms :: segments)).flatMap memberParts =
        ms.flatMap memberParts ++ (segmentMembers segments).flatMap memberParts := List.flatMap_append
    rw [segmentChildren, faultsOfElements, hparts]
    exact (memberChildren_reads ms).append (segmentChildren_reads segments)
  | .arr _ :: _ => rfl
  | .null :: _ => rfl
  | .bool _ :: _ => rfl
  | .int _ :: _ => rfl
  | .real _ :: _ => rfl
  | .str _ :: _ => rfl

/-- Members fail with the first fault of one, or make children of the documents they hold. -/
theorem memberChildren_reads : ∀ ms : List (String × Json),
    Reads (memberChildren ms) (faultsOfMembers ms) (ms.flatMap memberParts)
  | [] => .nil
  | (key, .obj inner) :: ms => by
    rw [memberChildren]
    exact (ofJson_reads (.obj inner)).cons key (memberChildren_reads ms)
  | (key, .arr vs) :: ms => by
    rw [memberChildren, faultsOfMembers, List.flatMap_cons]
    exact (itemChildren_reads key vs).append (memberChildren_reads ms)
  | (_, .null) :: ms => memberChildren_reads ms
  | (_, .bool _) :: ms => memberChildren_reads ms
  | (_, .int _) :: ms => memberChildren_reads ms
  | (_, .real _) :: ms => memberChildren_reads ms
  | (_, .str _) :: ms => memberChildren_reads ms

/-- The items of a member fail with the first fault of one, or make a child each. -/
theorem itemChildren_reads (key : String) : ∀ vs : List Json,
    Reads (itemChildren key vs) (faultsOfElements (.item key) vs) (vs.map fun v => (key, v))
  | [] => .nil
  | .obj ms :: vs => by
    rw [itemChildren]
    exact (ofJson_reads (.obj ms)).cons key (itemChildren_reads key vs)
  | .arr segments :: vs => by
    rw [itemChildren]
    exact (ofJson_reads (.arr segments)).cons key (itemChildren_reads key vs)
  | .null :: _ => rfl
  | .bool _ :: _ => rfl
  | .int _ :: _ => rfl
  | .real _ :: _ => rfl
  | .str _ :: _ => rfl

end

/-! ### Documents without faults -/

/-- Several values have no fault if none of them has one. -/
theorem faultsOfElements_eq_nil_iff {p : Place} {vs : List Json} :
    faultsOfElements p vs = [] ↔ ∀ v ∈ vs, faults p v = [] := by
  induction vs with
  | nil => simp [faultsOfElements]
  | cons v vs ih => rw [faultsOfElements, List.append_eq_nil_iff, ih, List.forall_mem_cons]

/-- Members have no fault if no value has one in its place. -/
theorem faultsOfMembers_eq_nil_iff {ms : List (String × Json)} :
    faultsOfMembers ms = [] ↔ ∀ m ∈ ms, faults (.member m.1) m.2 = [] := by
  induction ms with
  | nil => simp [faultsOfMembers]
  | cons m ms ih => rw [faultsOfMembers, List.append_eq_nil_iff, ih, List.forall_mem_cons]

/-- What may be an item may be a document, and conversely. -/
theorem faults_item_eq_nil_iff {key : String} {v : Json} : faults (.item key) v = [] ↔ faults .document v = [] := by
  cases v with
  | obj => exact .rfl
  | arr => exact .rfl
  | _ => exact ⟨nofun, nofun⟩

/-- What may be a segment is an object that may be a document. -/
theorem faults_segment_eq_nil_iff {v : Json} :
    faults .segment v = [] ↔ (∃ ms, v = .obj ms) ∧ faults .document v = [] := by
  cases v with
  | obj ms => exact ⟨fun h => ⟨⟨ms, rfl⟩, h⟩, And.right⟩
  | _ => exact ⟨nofun, nofun⟩

/-- An acceptable document has no fault, by induction on what makes it so. -/
theorem faults_eq_nil_of_acceptable {v : Json} (h : Acceptable v) : faults .document v = [] := by
  induction h with
  | @obj ms _ _ member item =>
    refine faultsOfMembers_eq_nil_iff.2 fun m hm => ?_
    obtain ⟨key, v⟩ := m
    cases v with
    | obj inner => exact member key inner hm
    | arr vs => exact faultsOfElements_eq_nil_iff.2 fun v hv => faults_item_eq_nil_iff.2 (item key vs hm v hv)
    | _ => rfl
  | arr objects _ each =>
    exact faultsOfElements_eq_nil_iff.2 fun v hv => faults_segment_eq_nil_iff.2 ⟨objects v hv, each v hv⟩

/-- A document without faults is acceptable, by recursion on the document. -/
theorem acceptable_of_faults_eq_nil : ∀ v : Json, faults .document v = [] → Acceptable v
  | .obj ms, h => by
    have hms := faultsOfMembers_eq_nil_iff.1 h
    refine .obj (fun key inner hm => ?_) fun key vs hm v hv => ?_
    · exact acceptable_of_faults_eq_nil (.obj inner) (hms _ hm)
    · exact acceptable_of_faults_eq_nil v (faults_item_eq_nil_iff.1 (faultsOfElements_eq_nil_iff.1 (hms _ hm) v hv))
  | .arr segments, h => by
    have hsegments := faultsOfElements_eq_nil_iff.1 h
    refine .arr (fun v hv => ?_) fun v hv => ?_
    · exact (faults_segment_eq_nil_iff.1 (hsegments v hv)).1
    · exact acceptable_of_faults_eq_nil v (faults_segment_eq_nil_iff.1 (hsegments v hv)).2
termination_by v => sizeOf v
decreasing_by
  · have hlt := List.sizeOf_lt_of_mem hm
    simp only [Prod.mk.sizeOf_spec, Json.obj.sizeOf_spec] at hlt ⊢
    omega
  · have hlt := List.sizeOf_lt_of_mem hm
    have hlt' := List.sizeOf_lt_of_mem hv
    simp only [Prod.mk.sizeOf_spec, Json.arr.sizeOf_spec, Json.obj.sizeOf_spec] at hlt ⊢
    omega
  · have hlt := List.sizeOf_lt_of_mem hv
    simp only [Json.arr.sizeOf_spec]
    omega

/-- **The documents without faults are the acceptable ones.** -/
theorem acceptable_iff {v : Json} : Acceptable v ↔ faults .document v = [] :=
  ⟨faults_eq_nil_of_acceptable, acceptable_of_faults_eq_nil v⟩

/-! ### Attributes -/

/-- **The last entry at a key stays.** -/
theorem get?_ofList_eq_getLast? (es : List (String × Scalar)) (key : String) :
    (Table.ofList es).get? key = (valuesAt key es).getLast? := by
  have hfold : ∀ t : Table String Scalar,
      (es.foldl (fun t e => t.insert e.1 e.2) t).get? key = (valuesAt key es).getLast?.or (t.get? key) := by
    induction es with
    | nil => exact fun _ => rfl
    | cons e es ih =>
      intro t
      rw [List.foldl_cons, ih, Table.get?_insert, valuesAt_cons]
      by_cases hkey : e.1 = key
      · subst hkey
        rw [if_pos Std.ReflCmp.compare_self, if_pos rfl, List.getLast?_cons, Option.some_or]
        cases (valuesAt e.1 es).getLast? <;> rfl
      · rw [if_neg (by simpa using Ne.symm hkey), if_neg hkey]
  exact (hfold Table.empty).trans (Option.or_none ..)

section

variable {es : List (String × Scalar)} {key : String} {a : Scalar}

/-- **An entry whose key no other entry has** stays. -/
theorem get?_ofList_of_mem (hkeys : (es.map Prod.fst).Nodup) (h : (key, a) ∈ es) :
    (Table.ofList es).get? key = some a := by
  obtain ⟨b, hb⟩ : ∃ b, valuesAt key es = [b] := by
    rw [← List.length_eq_one_iff, length_valuesAt, hkeys.count, if_pos (List.mem_map_of_mem h)]
  have ha : a ∈ valuesAt key es := mem_valuesAt.2 h
  rw [hb] at ha
  rw [get?_ofList_eq_getLast?, hb, List.mem_singleton.1 ha]
  rfl

/-- At a key of no entry there is nothing. -/
theorem get?_ofList_of_not_mem (h : key ∉ es.map Prod.fst) : (Table.ofList es).get? key = none := by
  rw [get?_ofList_eq_getLast?, valuesAt_eq_nil_iff.2 h]
  rfl

/-- **Entries with different keys** are all kept. -/
theorem mem_entries_ofList (hkeys : (es.map Prod.fst).Nodup) {e : String × Scalar} :
    e ∈ (Table.ofList es).entries ↔ e ∈ es := by
  rw [← Table.get?_eq_some_iff (k := e.1) (v := e.2)]
  refine ⟨fun h => ?_, get?_ofList_of_mem hkeys⟩
  rw [get?_ofList_eq_getLast?] at h
  exact mem_valuesAt.1 (List.mem_of_getLast? h)

end

/-- The scalars under a key, among the attributes that members give. -/
theorem valuesAt_scalarMembers (key : String) (ms : List (String × Json)) :
    valuesAt key (scalarMembers ms) = ms.filterMap fun m => if m.1 = key then Scalar.ofJson? m.2 else none := by
  rw [valuesAt, scalarMembers, List.filterMap_filterMap]
  congr 1
  funext m
  cases Scalar.ofJson? m.2 <;> simp

/-- The attributes of a document are the scalars of its members. -/
theorem attributes_of_ofJson {v : Json} {c : Config} (h : ofJson v = .ok c) :
    c.attributes = Table.ofList (scalarMembers (documentMembers v)) := by
  cases v with
  | obj ms =>
    rw [ofJson] at h
    cases hm : memberChildren ms <;> rw [hm] at h <;> cases h
    rfl
  | arr segments =>
    rw [ofJson] at h
    cases hs : segmentChildren segments <;> rw [hs] at h <;> cases h
    rfl
  | _ => cases h

/-- **At each key the last scalar of the document stays.** -/
theorem get_of_ofJson {v : Json} {c : Config} (h : ofJson v = .ok c) (key : String) :
    c.get key = (scalarsUnder key v).getLast? := by
  rw [get, attributes_of_ofJson h, get?_ofList_eq_getLast?, valuesAt_scalarMembers, scalarsUnder]

/-! ### Segments one after the other -/

/-- The config with the content of another one after its own: of two values at a
key the later stays. -/
def followedBy (c d : Config) : Config :=
  node (d.attributes.entries.foldl (fun t e => t.insert e.1 e.2) c.attributes) (c.children ++ d.children)

/-- Segments put together have the members of both. -/
theorem segmentMembers_append (xs ys : List Json) :
    segmentMembers (xs ++ ys) = segmentMembers xs ++ segmentMembers ys := List.flatMap_append

/-- Segments put together make the children of both, or fail as the first that fails. -/
theorem segmentChildren_append (xs ys : List Json) :
    segmentChildren (xs ++ ys) = do return (← segmentChildren xs) ++ (← segmentChildren ys) := by
  induction xs with
  | nil =>
    rw [List.nil_append, segmentChildren]
    cases segmentChildren ys <;> rfl
  | cons v xs ih =>
    cases v with
    | obj ms =>
      rw [List.cons_append, segmentChildren, segmentChildren, ih]
      cases memberChildren ms <;> cases segmentChildren xs <;> cases segmentChildren ys <;>
        simp [bind, Except.bind, pure, Except.pure]
    | _ => rfl

/-- **Segments mean what they mean one after the other.** -/
theorem ofJson_append (xs ys : List Json) :
    ofJson (.arr (xs ++ ys)) = do return (← ofJson (.arr xs)).followedBy (← ofJson (.arr ys)) := by
  have hattributes : Table.ofList (scalarMembers (segmentMembers (xs ++ ys))) =
      (Table.ofList (scalarMembers (segmentMembers ys))).entries.foldl (fun t e => t.insert e.1 e.2)
        (Table.ofList (scalarMembers (segmentMembers xs))) := by
    refine Table.ext_get? fun key => ?_
    rw [Table.get?_foldl_insert (Table.ascending _), get?_ofList_eq_getLast?, segmentMembers_append, scalarMembers_append,
      valuesAt_append, List.getLast?_append, ← get?_ofList_eq_getLast?, ← get?_ofList_eq_getLast?]
    rfl
  rw [ofJson, ofJson, ofJson, segmentChildren_append, hattributes]
  cases segmentChildren xs <;> cases segmentChildren ys <;> rfl

/-- **The meaning of JSON documents.**  A document can be read if and only if it is
acceptable.  Then the config has one child for each of its parts, in order, tagged by
the key and read by itself, and at each key the last scalar that the document gives.
If it cannot be read, the error is the first of its faults.  Reading two arrays of
segments put together is reading one after the other: the first that fails decides,
and if none does, the children of both come in order and later attributes stay. -/
theorem json_document_meaning (v : Json) :
    ((∃ c, ofJson v = .ok c) ↔ Acceptable v) ∧
      (∀ c, ofJson v = .ok c →
        MadeOf c.children (parts v) ∧ ∀ key, c.get key = (scalarsUnder key v).getLast?) ∧
      (∀ e, ofJson v = .error e ↔ (faults .document v).head? = some e) ∧
      ∀ xs ys, ofJson (.arr (xs ++ ys)) = do return (← ofJson (.arr xs)).followedBy (← ofJson (.arr ys)) := by
  refine ⟨?_, fun c hc => ⟨?_, get_of_ofJson hc⟩, fun e => ?_, ofJson_append⟩ <;>
    rcases (ofJson_reads v).outcome with ⟨d, hd, hf, hmade⟩ | ⟨d, fs, hd, hf⟩
  · exact ⟨fun _ => acceptable_iff.2 hf, fun _ => ⟨d, hd⟩⟩
  · rw [acceptable_iff, hd, hf]
    exact ⟨nofun, nofun⟩
  · obtain rfl := Except.ok.inj (hc.symm.trans hd)
    exact hmade
  · rw [hd] at hc
    cases hc
  · rw [hd, hf]
    exact ⟨nofun, nofun⟩
  · rw [hd, hf]
    simp

/-- The faults of the second segment: what a member array holds, and what the array
of segments within another one does. -/
example :
    faults .document
      (.arr [.obj [("a", .int 1), ("b", .arr [.arr [.obj [("c", .null)]], .obj []])],
        .obj [("a", .null), ("x", .arr [.obj [], .int 2]), ("y", .arr [.arr [.arr []]])]]) =
      [.unsupportedValue "x" "number", .notAnObject "array"] := rfl

end Config
end Muster
