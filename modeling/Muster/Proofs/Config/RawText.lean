/-
# Configs read from raw text

A JSON document has no place for a key that an object repeats: of several members of
one name only one could stay.  Raw text has, so a text is read as a config only if the
keys of each of its objects differ, and then as the document that it spells:

| keys of the objects | reading a spelling of `v` |
| --- | --- |
| differ in each | what reading `v` gives, a config or an error |
| repeat in some | an error that names the key whose second place in its object comes first |

Which of the spellings it is makes no difference (`ofText_spelt`), since keys are
compared as the strings that they spell.  What `toJson` writes repeats no key, so the
text of it can be read as what it is a text of (`ofText_toJson`).
-/

import Muster.Proofs.Config.RoundTrip
import Muster.Proofs.Json.Reading

namespace Muster
namespace Config

open Json (Spelt IsWhole HasUniqueKeys maxDepth)

/-- What becomes of a text that spells a document. -/
theorem ofText_spelt {v : Json} (hwhole : v.Everywhere IsWhole) (hdepth : v.depth ≤ maxDepth) {xs : List Char}
    (h : Spelt v xs) :
    ofText (String.ofList xs) =
      match v.repeats with
      | [] => ofJson v
      | key :: _ => .error (.unreadable (.repeatedKey key)) := by
  rw [ofText, Json.read_spelt hwhole hdepth h]
  cases v.repeats <;> rfl

/-! ### Documents that configs are written as -/

variable {as : List (String × Scalar)} {children : List (String × Json)}

/-- The member for an attribute has its key. -/
theorem fst_attributeMember (children : List (String × Json)) (e : String × Scalar) :
    (attributeMember children e).1 = e.1 := by
  unfold attributeMember
  split <;> rfl

/-- The member for a tag has the tag as its key. -/
theorem fst_tagMember (children : List (String × Json)) (tag : String) : (tagMember children tag).1 = tag := by
  unfold tagMember
  split <;> rfl

/-- **The keys of a written object differ:** a tag that is a key of an attribute takes its place. -/
theorem nodup_keys_layMembers (has : (as.map Prod.fst).Nodup) : ((layMembers as children).map Prod.fst).Nodup := by
  have hattributes : (as.map (attributeMember children)).map Prod.fst = as.map Prod.fst := by
    rw [List.map_map]
    exact List.map_congr_left fun e _ => fst_attributeMember children e
  have htags : ∀ tags : List String, (tags.map (tagMember children)).map Prod.fst = tags := fun tags => by
    rw [List.map_map]
    exact (List.map_congr_left fun t _ => fst_tagMember children t).trans (List.map_id tags)
  rw [layMembers, List.map_append, hattributes, htags]
  refine List.nodup_append.2 ⟨has, (nodup_eraseDups _).filter _, ?_⟩
  rintro key hkey tag htag rfl
  have hfree := (List.mem_filter.1 htag).2
  obtain ⟨e, he, rfl⟩ := List.mem_map.1 hkey
  rw [Option.isNone_iff_eq_none, List.lookup_eq_none_iff] at hfree
  exact absurd (hfree e he) (by simp)

/-- What a written object holds: a scalar, a child or several children. -/
theorem mem_layMembers {v : Json} (h : v ∈ (layMembers as children).map Prod.snd) :
    (∃ e ∈ as, v = e.2.toJson) ∨ v ∈ children.map Prod.snd ∨
      ∃ vs, v = .arr vs ∧ ∀ w ∈ vs, w ∈ children.map Prod.snd := by
  have hvalues : ∀ {t : String} {w : Json}, w ∈ valuesAt t children → w ∈ children.map Prod.snd :=
    fun hw => List.mem_map.2 ⟨_, mem_valuesAt.1 hw, rfl⟩
  rw [layMembers, List.map_append, List.mem_append, List.map_map, List.map_map, List.mem_map, List.mem_map] at h
  obtain ⟨e, he, rfl⟩ | ⟨t, -, rfl⟩ := h
  · rw [Function.comp_apply, attributeMember]
    split
    · next only honly => exact .inr (.inl (hvalues (t := e.1) (honly ▸ List.mem_cons_self ..)))
    · exact .inl ⟨e, he, rfl⟩
  · rw [Function.comp_apply, tagMember]
    split
    · next only honly => exact .inr (.inl (hvalues (t := t) (honly ▸ List.mem_cons_self ..)))
    · exact .inr (.inr ⟨_, rfl, fun w hw => hvalues hw⟩)

/-- An attribute in JSON has nothing within it. -/
theorem inner_scalar (a : Scalar) : a.toJson.inner = [] := by
  cases a with
  | real r => cases h : r.isFinite <;> simp [Scalar.toJson, h, Json.inner]
  | _ => rfl

/-- **What holds of the parts that a config is written as** holds within its document. -/
theorem everywhere_toJson {P : Json → Prop} (harr : ∀ vs, P (.arr vs)) (hobj : ∀ d : Config, P d.toJson) {c : Config}
    (hscalars : c.Everywhere fun d => ∀ e ∈ d.attributes.entries, P e.2.toJson) : c.toJson.Everywhere P := by
  induction c using Config.induct with
  | node as cs ih =>
    obtain ⟨hhere, hbelow⟩ := everywhere_node.1 hscalars
    have hchild : ∀ w ∈ (childrenToJson cs).map Prod.snd, w.Everywhere P := by
      rw [childrenToJson_eq_map, List.map_map]
      rintro w hw
      obtain ⟨e, he, rfl⟩ := List.mem_map.1 hw
      exact ih e he (hbelow e he)
    refine .value (hobj _) fun v hv => ?_
    rw [toJson, Json.inner] at hv
    obtain ⟨e, he, rfl⟩ | hv | ⟨vs, rfl, hvs⟩ := mem_layMembers hv
    · exact .value (hhere e he) (by simp [inner_scalar])
    · exact hchild v hv
    · exact .value (harr vs) fun w hw => hchild w (hvs w hw)

/-- **No written config repeats a key.** -/
theorem hasUniqueKeys_toJson (c : Config) : c.toJson.Everywhere HasUniqueKeys := by
  refine everywhere_toJson (fun _ => trivial) (fun d => ?_) ?_
  · obtain ⟨as, cs⟩ := d
    exact nodup_keys_layMembers as.nodup_keys
  · induction c using Config.induct with
    | node as cs ih =>
      refine .node (fun e _ => ?_) ih
      cases e.2 with
      | real r => cases h : r.isFinite <;> simp [Scalar.toJson, h, HasUniqueKeys]
      | _ => trivial

/-- **A config without floating-point numbers** is written with whole numbers. -/
theorem isWhole_toJson {c : Config} (hc : c.Everywhere HasNoReal) : c.toJson.Everywhere IsWhole := by
  refine everywhere_toJson (fun _ => trivial) (fun d => ?_) (hc.imp fun d hd e he => ?_)
  · obtain ⟨as, cs⟩ := d
    trivial
  · have hreal := hd e he
    cases h : e.2 with
    | real r => simp [h, Scalar.isReal] at hreal
    | int n => exact Text.Numerals.admits_int64 n
    | _ => trivial

/-- **The text of a written config** is read as what was written. -/
theorem ofText_toJson {c : Config} (hc : c.Everywhere HasNoReal) (hdepth : c.toJson.depth ≤ maxDepth) :
    ofText c.toJson.text = ofJson c.toJson := by
  have hrepeats := (Json.repeats_eq_nil_iff _).2 (hasUniqueKeys_toJson c)
  rw [Json.text, ofText_spelt (isWhole_toJson hc) hdepth (Json.spelt_write _), hrepeats]

/-- **Raw text means the document that it spells.**  Take a document whose numbers are
64-bit integers and whose containers nest at most 127 deep, and any text that spells it,
such as the one that the printer gives.  If the keys of each of its objects differ, the
text is read as the document is, to the same config or the same error.  If not, reading
fails with the first of the keys that, going through the text, stand in an object which
had them before.  So the text of a config that was written can be read as what was written,
for a config without floating-point numbers, since no key is repeated in it. -/
theorem raw_text_meaning :
    (∀ v : Json, v.Everywhere IsWhole → v.depth ≤ maxDepth → ∀ xs, Spelt v xs →
      (v.Everywhere HasUniqueKeys → ofText (String.ofList xs) = ofJson v) ∧
      (¬ v.Everywhere HasUniqueKeys → ∃ key, v.repeats.head? = some key ∧
        ofText (String.ofList xs) = .error (.unreadable (.repeatedKey key)))) ∧
    (∀ v : Json, Spelt v v.write) ∧
    (∀ c : Config, c.Everywhere HasNoReal → c.toJson.depth ≤ maxDepth → ofText c.toJson.text = ofJson c.toJson) := by
  refine ⟨fun v hwhole hdepth xs h => ?_, Json.spelt_write, fun c => ofText_toJson⟩
  rw [ofText_spelt hwhole hdepth h, ← Json.repeats_eq_nil_iff]
  cases v.repeats with
  | nil => exact ⟨fun _ => rfl, fun hne => absurd rfl hne⟩
  | cons key keys => exact ⟨fun hnil => by contradiction, fun _ => ⟨key, rfl, rfl⟩⟩

/-- A document with a key repeated at the root, and another one before it further in. -/
def doubled : Json := .obj [("a", .arr [.obj [("k", .int 1), ("k", .int 2)]]), ("a", .int 3)]

/-- What `raw_text_meaning` says of the text of `doubled`, and of that of `interleaved`. -/
theorem raw_text_meaning_doubled :
    ofText doubled.text = .error (.unreadable (.repeatedKey "k")) ∧
      ofText interleaved.toJson.text = ofJson interleaved.toJson := by
  have hint : ∀ n : Int, Text.Numerals.int64.admits n = true → (Json.int n).Everywhere IsWhole :=
    fun n hn => .value hn (by simp [Json.inner])
  have hk : (Json.obj [("k", .int 1), ("k", .int 2)]).Everywhere IsWhole :=
    .value trivial (by simpa [Json.inner] using ⟨hint 1 (by decide), hint 2 (by decide)⟩)
  have hwhole : doubled.Everywhere IsWhole := by
    refine .value trivial ?_
    simpa [doubled, Json.inner] using
      ⟨Json.Everywhere.value (v := .arr [_]) trivial (by simpa [Json.inner] using hk), hint 3 (by decide)⟩
  have hrepeated : doubled.repeats = ["k", "a"] := by decide
  have hunique : ¬ doubled.Everywhere HasUniqueKeys := by
    rw [← Json.repeats_eq_nil_iff, hrepeated]
    simp
  have hempty : empty.Everywhere HasNoReal := .node (by decide) (by simp)
  have hwrap : (wrap "x" empty).Everywhere HasNoReal := .node (by decide) (by simpa using hempty)
  have hz : (node (Table.ofList [("z", .bool true)]) []).Everywhere HasNoReal :=
    .node (by decide) (by simp)
  have hreal : interleaved.Everywhere HasNoReal :=
    .node (by decide) (by simpa using ⟨hempty, hz, hwrap⟩)
  obtain ⟨hspelt, hwrite, hwritten⟩ := raw_text_meaning
  refine ⟨?_, hwritten interleaved hreal (by decide)⟩
  obtain ⟨key, hkey, htext⟩ := (hspelt doubled hwhole (by decide) _ (hwrite doubled)).2 hunique
  rw [hrepeated] at hkey
  rwa [← Option.some.inj hkey] at htext

end Config
end Muster
