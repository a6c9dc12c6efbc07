/-
# Coordinate lists read as range lists

Coordinate lists and range lists share a notation, but have readers of their own that
part on many texts:

| piece | as a coordinate | as a range |
| --- | --- | --- |
| `4`, `2-5` | 4, 2 to 5 | 4, 2 to 5 |
| `5-2` | none | 2 to 5 |
| `-3` | 0 to 3 | -3 |
| `up` | 0 | none |
| empty | any | none |

They agree on pieces of unsigned numerals whose bounds are in order
(`Location.coordinateFits_of_plainPiece`), so on lists of such pieces the only difference left is that
columns and rows are paired (`Location.fits_iff`), where a list that has come to its end
excludes nothing.
-/

import Mathlib.Data.List.GetD
import Muster.Location.Ranges
import Muster.Proofs.Text.RangeLists

namespace Muster
namespace Text

/-- The pieces between the commas of a text, with the blanks around them. -/
def pieces (s : String) : List String := (s.toList.splitOn ',').map String.ofList

/-- A piece has no comma. -/
theorem comma_notMem_of_mem_pieces {s piece : String} (h : piece ∈ pieces s) : ',' ∉ piece.toList := by
  obtain ⟨cs, hcs, rfl⟩ := List.mem_map.1 h
  rw [String.toList_ofList]
  exact fun hcomma => (mem_and_ne_of_mem_splitOn hcs hcomma).2 rfl

/-- Range lists have the same pieces, trimmed. -/
theorem commaPieces_eq_map (s : String) : commaPieces s = (pieces s).map fun piece => trim piece.toList := by
  simp only [commaPieces, pieces, List.map_map, Function.comp_def, String.toList_ofList]

/-- The unsigned numerals of 32-bit integers. -/
structure UnsignedNumeral (cs : List Char) (n : Nat) : Prop where
  ne_nil : cs ≠ []
  digits : ∀ c ∈ cs, c.isDigit = true
  value : Nat.ofDigitChars 10 cs 0 = n
  greatest : n ≤ 2147483647

namespace UnsignedNumeral

variable {cs : List Char} {n : Nat}

/-- An unsigned numeral is one of a signed 32-bit integer. -/
theorem int32Numeral (h : UnsignedNumeral cs n) : Int32Numeral cs n where
  numeral := h.value ▸ .plain h.ne_nil h.digits
  least := by omega
  greatest := Int.ofNat_le.2 h.greatest

/-- What is read without a sign is an unsigned numeral, if it is not too large. -/
theorem of_magnitude? (h : Numerals.magnitude? cs = some n) (hn : n ≤ 2147483647) : UnsignedNumeral cs n := by
  obtain ⟨hne, hdigits, hvalue⟩ := Numerals.magnitude?_eq_some_iff.1 h
  exact ⟨hne, hdigits, hvalue, hn⟩

/-- An unsigned numeral has no minus. -/
theorem minus_notMem (h : UnsignedNumeral cs n) : '-' ∉ cs := fun hmem => absurd (h.digits _ hmem) (by decide)

end UnsignedNumeral

end Text

open Text

namespace RangeSet

/-- **A range list holds what its pieces hold.** -/
theorem contains_parse_iff {s : String} {n : Int} :
    (parse s).contains n = true ↔ ∃ piece ∈ pieces s, (parse piece).contains n = true := by
  have hsingle : ∀ piece ∈ pieces s, (parse piece).contains n = true ↔
      ∃ i, Interval.read? (trim piece.toList) = some i ∧ i.contains n = true := by
    intro piece hpiece
    rw [parse, commaPieces_of_no_comma (comma_notMem_of_mem_pieces hpiece), contains, List.any_eq_true]
    simp only [List.mem_filterMap, List.mem_singleton, exists_eq_left]
  rw [parse, commaPieces_eq_map, contains, List.any_eq_true]
  simp only [List.mem_filterMap, List.mem_map, exists_exists_and_eq_and]
  constructor
  · rintro ⟨i, ⟨piece, hpiece, hread⟩, hn⟩
    exact ⟨piece, hpiece, (hsingle piece hpiece).2 ⟨i, hread, hn⟩⟩
  · rintro ⟨piece, hpiece, hn⟩
    obtain ⟨i, hread, hn⟩ := (hsingle piece hpiece).1 hn
    exact ⟨i, ⟨piece, hpiece, hread⟩, hn⟩

end RangeSet

namespace Location

/-! ### Pieces -/

/-- The pieces of coordinate lists that are well formed, with the coordinates that they name. -/
inductive PlainPiece : List Char → Interval → Prop where
  | one {cs : List Char} {n : Nat} (h : UnsignedNumeral cs n) : PlainPiece cs ⟨n, n, Int.le_refl n⟩
  | span {lower before after upper : List Char} {a b : Nat} (hlower : UnsignedNumeral lower a)
      (hbefore : ∀ c ∈ before, isBlank c = true) (hafter : ∀ c ∈ after, isBlank c = true)
      (hupper : UnsignedNumeral upper b) (hle : a ≤ b) :
      PlainPiece (lower ++ before ++ '-' :: (after ++ upper)) ⟨a, b, Int.ofNat_le.2 hle⟩

/-- A text all of whose pieces are well formed. -/
def IsCoordinateList (s : String) : Prop := ∀ piece ∈ pieces s, ∃ i, PlainPiece (trim piece.toList) i

variable {cs left right : List Char} {i : Interval} {n : Int}

/-- A plain piece is one of a range list, for the same interval. -/
theorem PlainPiece.written (h : PlainPiece cs i) : Interval.Written cs i := by
  cases h with
  | one h => exact .one h.int32Numeral
  | span hlower hbefore hafter hupper hle =>
    rw [← Interval.between_of_le (Int.ofNat_le.2 hle)]
    exact .two hlower.int32Numeral hbefore hafter hupper.int32Numeral

/-- A numeral is read as its integer. -/
theorem bound_of_numeral (h : Int32Numeral cs n) : bound cs = n := by
  rw [bound, Numerals.read?_int32_iff.2 h, Option.getD_some]

/-- An empty coordinate fits everything. -/
theorem coordinateFits_nil (n : Int) : coordinateFits n [] = true := rfl

/-- Blanks around a piece count for nothing. -/
theorem coordinateFits_trim (n : Int) (cs : List Char) : coordinateFits n (trim cs) = coordinateFits n cs := by
  rw [coordinateFits, coordinateFits, trim_trim]

/-- Where there is no minus, the piece is one number. -/
theorem coordinateFits_of_no_minus (htrimmed : trim cs = cs) (hne : cs ≠ []) (h : '-' ∉ cs) (n : Int) :
    coordinateFits n cs = decide (bound cs = n + 1) := by
  rw [coordinateFits, htrimmed, List.isEmpty_eq_false_iff.2 hne, if_neg Bool.false_ne_true, dropWhile_ne_of_notMem h]

/-- Where there is one, the numbers stand on both sides of the first. -/
theorem coordinateFits_of_minus (htrimmed : trim (left ++ '-' :: right) = left ++ '-' :: right) (h : '-' ∉ left) (n : Int) :
    coordinateFits n (left ++ '-' :: right) =
      (decide (bound (trim left) ≤ n + 1) && decide (n + 1 ≤ bound (trim right))) := by
  have hne : left ++ '-' :: right ≠ [] := by simp
  rw [coordinateFits, htrimmed, List.isEmpty_eq_false_iff.2 hne, if_neg Bool.false_ne_true, dropWhile_ne_append h,
    takeWhile_ne_append h]

/-- **A well-formed piece fits the coordinates that it names,** counted from one. -/
theorem coordinateFits_of_plainPiece (htrimmed : trim cs = cs) (h : PlainPiece cs i) (n : Int) :
    coordinateFits n cs = i.contains (n + 1) := by
  cases h with
  | @one _ k h =>
    rw [coordinateFits_of_no_minus htrimmed h.ne_nil h.minus_notMem, bound_of_numeral h.int32Numeral,
      Bool.eq_iff_iff, Interval.contains_eq_true_iff, decide_eq_true_eq]
    simp only
    omega
  | @span lower before after upper a b hlower hbefore hafter hupper hle =>
    have hminus : '-' ∉ lower ++ before := by
      rw [List.mem_append]
      rintro (hmem | hmem)
      · exact hlower.minus_notMem hmem
      · exact absurd (hbefore _ hmem) (by decide)
    have hleft := hlower.int32Numeral.trim_padded (List.forall_mem_nil _) hbefore
    have hright := hupper.int32Numeral.trim_padded hafter (List.forall_mem_nil _)
    rw [List.nil_append] at hleft
    rw [List.append_nil] at hright
    rw [coordinateFits_of_minus htrimmed hminus, hleft, hright, bound_of_numeral hlower.int32Numeral,
      bound_of_numeral hupper.int32Numeral, Interval.contains]

/-- **On a well-formed piece the readers agree.** -/
theorem coordinateFits_eq_contains {piece : String} (hcomma : ',' ∉ piece.toList) (h : PlainPiece (trim piece.toList) i)
    (n : Int) : coordinateFits n piece.toList = (RangeSet.parse piece).contains (n + 1) := by
  rw [← coordinateFits_trim, coordinateFits_of_plainPiece (trim_trim _) h, RangeSet.parse, commaPieces_of_no_comma hcomma,
    List.filterMap_cons_some (Interval.read?_of_written h.written), RangeSet.contains, List.any_cons,
    List.filterMap_nil, List.any_nil, Bool.or_false]

/-! ### Lists -/

/-- **Pairing by position,** the shorter list filled up. -/
theorem pairUp_eq_map {α : Type} (filler : α) (xs ys : List α) :
    pairUp filler xs ys =
      (List.range (max xs.length ys.length)).map fun k => (xs.getD k filler, ys.getD k filler) := by
  induction xs generalizing ys with
  | nil =>
    refine List.ext_getElem (by simp [pairUp]) fun k hk _ => ?_
    have hk : k < ys.length := by simpa [pairUp] using hk
    simp [pairUp, hk]
  | cons x xs ih =>
    cases ys with
    | nil =>
      have hlength : max (x :: xs).length ([] : List α).length = max xs.length ([] : List α).length + 1 := by simp
      rw [pairUp, ih, hlength, List.range_succ_eq_map, List.map_cons, List.map_map]
      rfl
    | cons y ys =>
      have hlength : max (x :: xs).length (y :: ys).length = max xs.length ys.length + 1 := by simp
      rw [pairUp, ih, hlength, List.range_succ_eq_map, List.map_cons, List.map_map]
      rfl

/-- **A location fits two lists** where it fits their pieces at one position, whatever the texts
are. -/
theorem fits_iff {l : Location} {columns rows : String} :
    l.fits columns rows = true ↔ ∃ k < max (pieces columns).length (pieces rows).length,
      coordinateFits l.x ((pieces columns).getD k "").toList = true ∧
        coordinateFits l.y ((pieces rows).getD k "").toList = true := by
  have hpiece : ∀ (n : Int) (s : String) (k : Nat),
      coordinateFits n ((commaPieces s).getD k []) = coordinateFits n ((pieces s).getD k "").toList := by
    intro n s k
    rw [commaPieces_eq_map]
    exact (congrArg (coordinateFits n) (List.getD_map (pieces s) "" fun piece => trim piece.toList)).trans
      (coordinateFits_trim n _)
  have hlength : ∀ s, (commaPieces s).length = (pieces s).length := fun s => by
    rw [commaPieces_eq_map, List.length_map]
  simp only [fits, pairUp_eq_map, List.any_eq_true, List.mem_map, List.mem_range, exists_exists_and_eq_and,
    Bool.and_eq_true, hpiece, hlength]

/-- At a position behind the last piece nothing is excluded. -/
theorem coordinateFits_getD_iff {s : String} (h : IsCoordinateList s) (n : Int) (k : Nat) :
    coordinateFits n ((pieces s).getD k "").toList = true ↔
      (pieces s).length ≤ k ∨ (RangeSet.parse ((pieces s).getD k "")).contains (n + 1) = true := by
  by_cases hk : k < (pieces s).length
  · have hmem : (pieces s).getD k "" ∈ pieces s := by
      rw [List.getD_eq_getElem _ _ hk]
      exact List.getElem_mem hk
    obtain ⟨i, hi⟩ := h _ hmem
    rw [coordinateFits_eq_contains (comma_notMem_of_mem_pieces hmem) hi]
    exact (or_iff_right (Nat.not_le_of_lt hk)).symm
  · have hle : (pieces s).length ≤ k := Nat.le_of_not_lt hk
    rw [List.getD_eq_default _ _ hle]
    exact iff_of_true (coordinateFits_nil n) (.inl hle)

/-- Columns and rows are tested alike. -/
theorem fits_swap (x y : Int) (columns rows : String) :
    (⟨x, y⟩ : Location).fits columns rows = (⟨y, x⟩ : Location).fits rows columns := by
  rw [Bool.eq_iff_iff, fits_iff, fits_iff, Nat.max_comm]
  exact exists_congr fun k => and_congr_right fun _ => and_comm

/-- **Beside an empty text** a list is read as a range list. -/
theorem fits_empty_right {columns : String} (h : IsCoordinateList columns) (l : Location) :
    l.fits columns "" = (RangeSet.parse columns).contains (l.x + 1) := by
  have hempty : ∀ k, coordinateFits l.y ((pieces "").getD k "").toList = true := by
    intro k
    cases k <;> exact coordinateFits_nil l.y
  have hone : (pieces "").length = 1 := rfl
  have hsome : 1 ≤ (pieces columns).length := by
    rw [pieces, List.length_map]
    exact List.length_pos_of_ne_nil (List.splitOn_ne_nil _ _)
  rw [Bool.eq_iff_iff, fits_iff, hone, Nat.max_eq_left hsome, RangeSet.contains_parse_iff]
  simp only [coordinateFits_getD_iff h, hempty, and_true]
  constructor
  · rintro ⟨k, hk, hfits⟩
    have hn := hfits.resolve_left (Nat.not_le_of_lt hk)
    rw [List.getD_eq_getElem _ _ hk] at hn
    exact ⟨_, List.getElem_mem hk, hn⟩
  · rintro ⟨piece, hpiece, hn⟩
    obtain ⟨k, hk, rfl⟩ := List.mem_iff_getElem.1 hpiece
    refine ⟨k, hk, .inr ?_⟩
    rwa [List.getD_eq_getElem _ _ hk]

/-- **Coordinate lists and range lists agree where they are well formed,** that is, where every
piece is an unsigned numeral of a 32-bit integer, or two of them with a minus in between and the
lesser in front.  A location fits two such lists where at some position, counted up to the end
of the longer list, the range lists of both pieces hold its coordinates counted from one, a list
that has come to its end excluding nothing.  Beside an empty text one such list is tested as the
range list that it is. -/
theorem coordinate_lists_agree {columns rows : String} (hcolumns : IsCoordinateList columns)
    (hrows : IsCoordinateList rows) (l : Location) :
    (l.fits columns rows = true ↔ ∃ k < max (pieces columns).length (pieces rows).length,
        ((pieces columns).length ≤ k ∨ (RangeSet.parse ((pieces columns).getD k "")).contains (l.x + 1) = true) ∧
          ((pieces rows).length ≤ k ∨ (RangeSet.parse ((pieces rows).getD k "")).contains (l.y + 1) = true)) ∧
      l.fits columns "" = (RangeSet.parse columns).contains (l.x + 1) ∧
      l.fits "" rows = (RangeSet.parse rows).contains (l.y + 1) := by
  refine ⟨?_, fits_empty_right hcolumns l, (fits_swap l.x l.y "" rows).trans (fits_empty_right hrows ⟨l.y, l.x⟩)⟩
  simp only [fits_iff, coordinateFits_getD_iff hcolumns, coordinateFits_getD_iff hrows]

/-- The columns up to a swamp, and one behind it. -/
def swampColumns : String := "1-3, 5"

/-- The rows at the swamp. -/
def swampRows : String := "04,2 - 2147483647,9"

/-- What `coordinate_lists_agree` says of `swampColumns` and `swampRows`: the column behind the
swamp goes with the second piece of the rows, and the third goes with any column. -/
theorem coordinate_lists_agree_swamp :
    IsCoordinateList swampColumns ∧ IsCoordinateList swampRows ∧ (⟨4, 6⟩ : Location).fits swampColumns swampRows = true ∧
      (⟨7, 8⟩ : Location).fits swampColumns swampRows = true ∧
      (⟨4, 6⟩ : Location).fits swampColumns "" = (RangeSet.parse swampColumns).contains 5 := by
  have hone : UnsignedNumeral ['1'] 1 := .of_magnitude? rfl (by decide)
  have htwo : UnsignedNumeral ['2'] 2 := .of_magnitude? rfl (by decide)
  have hthree : UnsignedNumeral ['3'] 3 := .of_magnitude? rfl (by decide)
  have hfour : UnsignedNumeral ['0', '4'] 4 := .of_magnitude? rfl (by decide)
  have hfive : UnsignedNumeral ['5'] 5 := .of_magnitude? rfl (by decide)
  have hnine : UnsignedNumeral ['9'] 9 := .of_magnitude? rfl (by decide)
  have hgreatest : UnsignedNumeral ['2', '1', '4', '7', '4', '8', '3', '6', '4', '7'] 2147483647 :=
    .of_magnitude? rfl (Nat.le_refl _)
  have hblank : ∀ c ∈ [' '], isBlank c = true := List.forall_mem_singleton.2 (by decide)
  have hcolumns : IsCoordinateList swampColumns := by
    have hpieces : pieces swampColumns = ["1-3", " 5"] := by decide
    rw [IsCoordinateList, hpieces, List.forall_mem_cons, List.forall_mem_singleton]
    exact ⟨⟨_, .span hone (List.forall_mem_nil _) (List.forall_mem_nil _) hthree (by decide)⟩, ⟨_, .one hfive⟩⟩
  have hrows : IsCoordinateList swampRows := by
    have hpieces : pieces swampRows = ["04", "2 - 2147483647", "9"] := by decide
    rw [IsCoordinateList, hpieces, List.forall_mem_cons, List.forall_mem_cons, List.forall_mem_singleton]
    exact ⟨⟨_, .one hfour⟩, ⟨_, .span htwo hblank hblank hgreatest (by decide)⟩, ⟨_, .one hnine⟩⟩
  have hsecond := (coordinate_lists_agree hcolumns hrows ⟨4, 6⟩).1.2 ⟨1, by decide, .inr (by decide), .inr (by decide)⟩
  have hthird := (coordinate_lists_agree hcolumns hrows ⟨7, 8⟩).1.2 ⟨2, by decide, .inl (by decide), .inr (by decide)⟩
  exact ⟨hcolumns, hrows, hsecond, hthird, (coordinate_lists_agree hcolumns hrows ⟨4, 6⟩).2.1⟩

/-- On a piece whose bounds are not in order the readers part. -/
example : (RangeSet.parse "5-2").contains 3 = true ∧ (⟨2, 0⟩ : Location).fits "5-2" "" = false := by decide

end Location
end Muster
