/-
# Labels through JSON and back

A document of labels is an array of objects, each of which says where its label is and
some of what it is:

| member | value | where it is missing |
| --- | --- | --- |
| `x`, `y` | signed 32-bit integers | not allowed |
| `text`, `team_name` | text | empty |
| `color` | object or array of three bytes | white |
| `visible_in_fog`, `immutable` | truth value | true |
| `visible_in_shroud` | truth value | false |

Members come in any order and further ones do not matter (`LabelEntry.Written`).
Reading a document places the labels of its entries one after the other
(`Labels.ofJson?_of_written`), so the last entry at a location decides, and one with an
empty text leaves no label there.

A written document has one entry for each label, in the order of the locations.  It
reads back as the same labels because none of them is empty, which holds of all labels
that come about by placing and taking away (`Labels.Reachable.written`).
-/

import Mathlib.Data.List.Basic
import Mathlib.Data.List.Forall2
import Muster.Editor.LabelJson
import Muster.Proofs.Editor.LastWriting
import Muster.Proofs.Text.Numerals

namespace Muster

/-! ### Locations -/

/-- Both coordinates are signed 32-bit integers. -/
structure Location.Fits (l : Location) : Prop where
  x : Text.Numerals.int32.admits l.x = true
  y : Text.Numerals.int32.admits l.y = true

/-- Locations are ordered by column, and in a column by row. -/
theorem Location.compare_eq_lt_iff {l m : Location} : compare l m = .lt ↔ l.x < m.x ∨ l.x = m.x ∧ l.y < m.y := by
  change compareLex (compareOn Location.x) (compareOn Location.y) l m = .lt ↔ _
  simp only [compareLex, compareOn, Ordering.then_eq_lt, Int.compare_eq_lt, Int.compare_eq_eq]

/-! ### What a document says -/

namespace Json

/-- An object with different member names gives the value of each of its members. -/
theorem lookup_of_mem {ms : List (String × Json)} (hnames : (ms.map Prod.fst).Nodup) {name : String} {v : Json}
    (h : (name, v) ∈ ms) : ms.lookup name = some v := by
  induction ms with
  | nil => exact absurd h List.not_mem_nil
  | cons m ms ih =>
    obtain ⟨hm, hnames⟩ := List.nodup_cons.1 hnames
    rcases List.mem_cons.1 h with rfl | h
    · rw [List.lookup_cons, beq_self_eq_true]
    · have hne : name ≠ m.1 := fun heq => hm (heq ▸ List.mem_map_of_mem (f := Prod.fst) h)
      rw [List.lookup_cons, beq_false_of_ne hne, ih hnames h]

/-- A member that may be missing: if a value is given, some member of the name stands for it. -/
def MayGive {α : Type} (ms : List (String × Json)) (name : String) (stands : α → Json → Prop) : Option α → Prop
  | none => name ∉ ms.map Prod.fst
  | some a => ∃ v, (name, v) ∈ ms ∧ stands a v

end Json

open Json

/-- The JSON values that stand for a colour. -/
inductive Color.Written (c : Color) : Json → Prop where
  | components : Written c (.arr (c.components.map fun n => .int n.toNat))
  | members {ms : List (String × Json)} (names : (ms.map Prod.fst).Nodup) (r : ("r", .int c.r.toNat) ∈ ms)
      (g : ("g", .int c.g.toNat) ∈ ms) (b : ("b", .int c.b.toNat) ∈ ms) : Written c (.obj ms)

/-- An entry of a document: a location, and what is given of its label. -/
structure LabelEntry where
  location : Location
  text : Option String := none
  team : Option String := none
  color : Option Color := none
  visibleInFog : Option Bool := none
  visibleInShroud : Option Bool := none
  immutable : Option Bool := none

namespace LabelEntry

/-- The label of an entry: what is not given is as it is in a label made of nothing. -/
def label (e : LabelEntry) : Label :=
  let blank : Label := {}
  { text := e.text.getD blank.text
    team := e.team.getD blank.team
    color := e.color.getD blank.color
    visibleInFog := e.visibleInFog.getD blank.visibleInFog
    visibleInShroud := e.visibleInShroud.getD blank.visibleInShroud
    immutable := e.immutable.getD blank.immutable }

/-- The entry that gives all of a label. -/
def full (l : Location) (label : Label) : LabelEntry where
  location := l
  text := some label.text
  team := some label.team
  color := some label.color
  visibleInFog := some label.visibleInFog
  visibleInShroud := some label.visibleInShroud
  immutable := some label.immutable

/-- The members of an object that says what an entry says. -/
structure Members (e : LabelEntry) (ms : List (String × Json)) : Prop where
  names : (ms.map Prod.fst).Nodup
  fits : e.location.Fits
  x : ("x", .int e.location.x) ∈ ms
  y : ("y", .int e.location.y) ∈ ms
  text : MayGive ms "text" (fun s v => v = .str s) e.text
  team : MayGive ms "team_name" (fun s v => v = .str s) e.team
  color : MayGive ms "color" Color.Written e.color
  visibleInFog : MayGive ms "visible_in_fog" (fun b v => v = .bool b) e.visibleInFog
  visibleInShroud : MayGive ms "visible_in_shroud" (fun b v => v = .bool b) e.visibleInShroud
  immutable : MayGive ms "immutable" (fun b v => v = .bool b) e.immutable

/-- The JSON values that say what an entry says. -/
inductive Written (e : LabelEntry) : Json → Prop where
  | obj {ms : List (String × Json)} (h : e.Members ms) : Written e (.obj ms)

/-- Place the label of an entry. -/
def place (ls : Labels) (e : LabelEntry) : Labels := ls.place e.location e.label

/-- An entry writes at its location, and leaves its label there unless the text is empty. -/
theorem writesAt : Labels.WritesAt place location fun e => e.label.standing? := fun ls e l =>
  Labels.get?_place ls e.location e.label l

end LabelEntry

/-! ### Reading -/

/-- A byte is read as a component of a color. -/
theorem Color.componentOfJson?_byte (n : UInt8) : componentOfJson? (.int n.toNat) = some n := by
  have hadmits : Text.Numerals.byte.admits n.toNat = true :=
    Text.Numerals.admits_iff.2 ⟨Int.natCast_nonneg _, Int.ofNat_le.2 (Nat.le_of_lt_succ n.toNat_lt)⟩
  rw [componentOfJson?, if_pos hadmits, Int.toNat_natCast, UInt8.ofNat_toNat]

/-- **A colour is read** from an object or an array. -/
theorem Color.ofJson?_of_written {c : Color} {v : Json} (h : c.Written v) : ofJson? v = some c := by
  cases h with
  | components => simp [ofJson?, components, componentOfJson?_byte, ofComponents?]
  | members names r g b =>
    simp [ofJson?, lookup_of_mem names r, lookup_of_mem names g, lookup_of_mem names b, componentOfJson?_byte,
      ofComponents?]

/-- **A field that may be given** is read as what it stands for, or as its default. -/
theorem Label.field?_of_mayGive {α : Type} {ms : List (String × Json)} {name : String} {stands : α → Json → Prop}
    {read : Json → Option α} (hnames : (ms.map Prod.fst).Nodup) (hread : ∀ a v, stands a v → read v = some a)
    {given : Option α} (h : MayGive ms name stands given) (default : α) :
    field? ms name default read = some (given.getD default) := by
  cases given with
  | none =>
    have hlookup : ms.lookup name = none := List.lookup_eq_none_iff.2 fun m hm =>
      bne_iff_ne.2 fun heq => h (heq ▸ List.mem_map_of_mem hm)
    rw [field?, hlookup]
    rfl
  | some a =>
    obtain ⟨v, hmem, hstands⟩ := h
    rw [field?, lookup_of_mem hnames hmem]
    exact hread a v hstands

/-- A signed 32-bit integer is read as a coordinate. -/
theorem Label.coordinate?_int {n : Int} (h : Text.Numerals.int32.admits n = true) : coordinate? (.int n) = some n :=
  if_pos h

/-- **An entry is read** with what it does not give at its default. -/
theorem Label.ofJson?_of_written {e : LabelEntry} {v : Json} (h : e.Written v) :
    ofJson? v = some (e.location, e.label) := by
  obtain ⟨hm⟩ := h
  have hstring : ∀ s v, v = Json.str s → string? v = some s := fun _ _ h => h ▸ rfl
  have hbool : ∀ b v, v = Json.bool b → bool? v = some b := fun _ _ h => h ▸ rfl
  have hcolor : ∀ c v, Color.Written c v → Color.ofJson? v = some c := fun _ _ => Color.ofJson?_of_written
  rw [ofJson?, lookup_of_mem hm.names hm.x, lookup_of_mem hm.names hm.y, field?_of_mayGive hm.names hstring hm.text,
    field?_of_mayGive hm.names hstring hm.team, field?_of_mayGive hm.names hcolor hm.color,
    field?_of_mayGive hm.names hbool hm.visibleInFog, field?_of_mayGive hm.names hbool hm.visibleInShroud,
    field?_of_mayGive hm.names hbool hm.immutable]
  simp only [Option.bind_some, coordinate?_int hm.fits.x, coordinate?_int hm.fits.y]
  rfl

/-- **Reading places the labels of the entries** one after the other. -/
theorem Labels.ofJson?_of_written {entries : List LabelEntry} {vs : List Json}
    (h : List.Forall₂ LabelEntry.Written entries vs) :
    ofJson? (.arr vs) = some (entries.foldl LabelEntry.place Table.empty) := by
  have hread : vs.mapM Label.ofJson? = some (entries.map fun e => (e.location, e.label)) := by
    induction h with
    | nil => rfl
    | cons he _ ih =>
      rw [List.mapM_cons, Label.ofJson?_of_written he, ih]
      rfl
  rw [ofJson?, hread, Option.map_some, List.foldl_map]
  rfl

/-! ### Writing -/

/-- A color is written as an object of its components. -/
theorem Color.written_toJson (c : Color) : c.Written c.toJson :=
  .members (show ["r", "g", "b"].Nodup by decide) (by simp) (by simp) (by simp)

/-- **A label is written with all its fields.** -/
theorem Label.written_toJson {l : Location} (hl : l.Fits) (label : Label) :
    (LabelEntry.full l label).Written (label.toJson l) := by
  have hnames : ["x", "y", "text", "team_name", "color", "visible_in_fog", "visible_in_shroud", "immutable"].Nodup := by
    decide
  refine .obj ⟨hnames, hl, ?_, ?_, ⟨_, ?_, rfl⟩, ⟨_, ?_, rfl⟩, ⟨_, ?_, label.color.written_toJson⟩, ⟨_, ?_, rfl⟩,
    ⟨_, ?_, rfl⟩, ⟨_, ?_, rfl⟩⟩ <;> simp [LabelEntry.full]

namespace Labels

/-- The labels that come about from none by placing them and taking them away. -/
inductive Reachable : Labels → Prop where
  | new : Reachable Table.empty
  | place {ls : Labels} (h : Reachable ls) {l : Location} (hl : l.Fits) (label : Label) : Reachable (ls.place l label)
  | clear {ls : Labels} (h : Reachable ls) (l : Location) : Reachable (ls.erase l)

/-- **No label is empty** among labels that came about by placing and taking away. -/
theorem Reachable.written {ls : Labels} (h : ls.Reachable) : ls.Written := by
  induction h with
  | new => exact .empty
  | place _ _ label ih => exact ih.place _ label
  | clear _ l ih => exact ih.erase l

/-- Labels that came about so stand at locations of signed 32-bit coordinates. -/
theorem Reachable.fits {ls : Labels} (h : ls.Reachable) {l : Location} {label : Label}
    (hl : ls.get? l = some label) : l.Fits := by
  induction h with
  | new => cases hl
  | @place ls _ m hm new ih =>
    rw [get?_place] at hl
    split at hl
    · next heq => exact heq ▸ hm
    · exact ih hl
  | clear _ m ih =>
    rw [get?_erase] at hl
    split at hl
    · cases hl
    · exact ih hl

/-- The entries of the document of some labels, one for each. -/
def entriesOf (ls : Labels) : List LabelEntry := ls.entries.map fun e => .full e.1 e.2

variable {ls : Labels}

/-- The document of such labels has an entry for each of them. -/
theorem Reachable.written_toJson (h : ls.Reachable) :
    ∃ vs, ls.toJson = .arr vs ∧ List.Forall₂ LabelEntry.Written ls.entriesOf vs := by
  refine ⟨_, rfl, ?_⟩
  rw [entriesOf, List.forall₂_map_left_iff, List.forall₂_map_right_iff, List.forall₂_same]
  exact fun e he => Label.written_toJson (h.fits (Table.get?_eq_some_iff.2 he)) e.2

/-- **Placing all labels gives them back** where none of them is empty. -/
theorem Written.foldl_place (h : ls.Written) : ls.entriesOf.foldl LabelEntry.place Table.empty = ls := by
  -- an empty label would be taken away instead
  have hinsert : ∀ (t : Labels), ∀ e ∈ ls.entries, t.place e.1 e.2 = t.insert e.1 e.2 := fun t e he => by
    rw [Labels.place, h e.1 e.2 (Table.get?_eq_some_iff.2 he)]
    rfl
  rw [entriesOf, List.foldl_map]
  exact (List.foldl_ext _ _ _ fun t e he => hinsert t e he).trans (Table.ofList_entries ls)

/-- **The entries are in the order of their locations,** so no two have the same. -/
theorem pairwise_entriesOf (ls : Labels) : ls.entriesOf.Pairwise fun e f =>
    e.location.x < f.location.x ∨ e.location.x = f.location.x ∧ e.location.y < f.location.y :=
  List.pairwise_map.2 (ls.ascending.imp Location.compare_eq_lt_iff.1)

/-- The entries of a document are those of the labels, with everything said. -/
theorem mem_entriesOf {e : LabelEntry} :
    e ∈ ls.entriesOf ↔ ∃ l label, ls.get? l = some label ∧ e = .full l label := by
  simp only [entriesOf, List.mem_map, Prod.exists, Table.get?_eq_some_iff, @eq_comm _ e]

/-- **Labels through JSON and back.**  Labels that come about by placing them and taking them
away read back as they were.  Their document has an entry that gives all of the label for each
label, in ascending order of columns and then of rows, and none whose text is empty.

Every array of objects that say where a label is, and any part of what it is, can be read.  The
labels are those that come of placing the labels of the entries in order, what is not given
being at its default: where no entry is, there is no label, and elsewhere the last entry at the
location decides, whose label stands there unless its text is empty. -/
theorem document_round_trip :
    (∀ ls : Labels, ls.Reachable → ofJson? ls.toJson = some ls ∧
      ∃ entries vs, ls.toJson = .arr vs ∧ List.Forall₂ LabelEntry.Written entries vs ∧
        (∀ e, e ∈ entries ↔ ∃ l label, ls.get? l = some label ∧ e = .full l label) ∧
        entries.Pairwise (fun e f =>
          e.location.x < f.location.x ∨ e.location.x = f.location.x ∧ e.location.y < f.location.y) ∧
        ∀ e ∈ entries, e.label.text ≠ "") ∧
    ∀ entries vs, List.Forall₂ LabelEntry.Written entries vs →
      ∃ ls : Labels, ofJson? (.arr vs) = some ls ∧
        ls = entries.foldl (fun (ls : Labels) e => ls.place e.location e.label) Table.empty ∧
        (∀ l, (∀ e ∈ entries, e.location ≠ l) → ls.get? l = none) ∧
        ∀ l, (∃ e ∈ entries, e.location = l) → ∃ before last after, entries = before ++ last :: after ∧
          last.location = l ∧ (∀ later ∈ after, later.location ≠ l) ∧
          ls.get? l = if last.label.text = "" then none else some last.label := by
  refine ⟨fun ls h => ?_, fun entries vs h => ?_⟩
  · obtain ⟨vs, harray, hwritten⟩ := h.written_toJson
    refine ⟨?_, ls.entriesOf, vs, harray, hwritten, fun _ => mem_entriesOf, ls.pairwise_entriesOf, fun e he => ?_⟩
    · rw [harray, ofJson?_of_written hwritten, h.written.foldl_place]
    · obtain ⟨l, label, hl, rfl⟩ := mem_entriesOf.1 he
      exact mt String.isEmpty_iff.2 (Bool.eq_false_iff.1 (h.written l label hl))
  · refine ⟨_, ofJson?_of_written h, rfl, fun _ => LabelEntry.writesAt.get?_of_unnamed Table.empty, fun l hl => ?_⟩
    simpa only [Label.standing?, String.isEmpty_iff] using LabelEntry.writesAt.exists_last Table.empty hl

/-- A bridge where a ford was. -/
def bridgeLabels : Labels := (place Table.empty ⟨3, -1⟩ { text := "Ford" }).place ⟨3, -1⟩ { text := "Bridge" }

/-- The second entry is at the hex of the first, and the fourth, without a text, at that of the third. -/
def bridgeEntries : List LabelEntry :=
  [{ location := ⟨1, 2⟩, text := some "Ford", visibleInFog := some false },
    { location := ⟨1, 2⟩, text := some "Bridge", color := some ⟨0, 0, 255⟩ },
    { location := ⟨0, -7⟩, text := some "Keep" }, { location := ⟨0, -7⟩ }]

/-- A document of these entries. -/
def bridgeDocument : List Json :=
  [.obj [("text", .str "Ford"), ("visible_in_fog", .bool false), ("x", .int 1), ("y", .int 2)],
    .obj [("x", .int 1), ("y", .int 2), ("color", .arr [.int 0, .int 0, .int 255]), ("text", .str "Bridge")],
    .obj [("x", .int 0), ("y", .int (-7)), ("text", .str "Keep"), ("remark", .null)],
    .obj [("y", .int (-7)), ("x", .int 0)]]

/-- The document says what the entries do, with members in any order. -/
theorem bridgeDocument_written : List.Forall₂ LabelEntry.Written bridgeEntries bridgeDocument := by
  have hbridge : Location.Fits ⟨1, 2⟩ := ⟨by decide, by decide⟩
  have hkeep : Location.Fits ⟨0, -7⟩ := ⟨by decide, by decide⟩
  refine .cons (.obj ⟨?_, hbridge, ?_, ?_, ?_, ?_, ?_, ?_, ?_, ?_⟩)
    (.cons (.obj ⟨?_, hbridge, ?_, ?_, ?_, ?_, ⟨_, ?_, .components⟩, ?_, ?_, ?_⟩)
      (.cons (.obj ⟨?_, hkeep, ?_, ?_, ?_, ?_, ?_, ?_, ?_, ?_⟩)
        (.cons (.obj ⟨?_, hkeep, ?_, ?_, ?_, ?_, ?_, ?_, ?_, ?_⟩) .nil))) <;>
  simp [MayGive, Color.components]

/-- What `document_round_trip` says of the bridge, and of the document. -/
theorem document_round_trip_bridge :
    bridgeLabels.Reachable ∧ bridgeLabels.get? ⟨3, -1⟩ = some { text := "Bridge" } ∧
      ofJson? bridgeLabels.toJson = some bridgeLabels ∧
      List.Forall₂ LabelEntry.Written bridgeEntries bridgeDocument ∧
      ∃ ls : Labels, ofJson? (.arr bridgeDocument) = some ls ∧
        ls.get? ⟨1, 2⟩ = some { text := "Bridge", color := ⟨0, 0, 255⟩ } ∧ ls.get? ⟨0, -7⟩ = none := by
  obtain ⟨hback, hread⟩ := document_round_trip
  have hfits : Location.Fits ⟨3, -1⟩ := ⟨by decide, by decide⟩
  have hreachable : bridgeLabels.Reachable := (Reachable.new.place hfits _).place hfits _
  obtain ⟨ls, hls, rfl, -, -⟩ := hread bridgeEntries bridgeDocument bridgeDocument_written
  exact ⟨hreachable, rfl, (hback _ hreachable).1, bridgeDocument_written, _, hls, rfl, rfl⟩

end Labels

end Muster
