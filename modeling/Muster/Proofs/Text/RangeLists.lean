/-
# The grammar of range lists

A piece of a range list names an interval if it is one of these (`Interval.Written`),
where `a` and `b` are numerals of signed 32-bit integers:

| piece | interval |
| --- | --- |
| `a` | a to a |
| `a-b`, blanks around the minus allowed | the lesser of a and b to the greater |

A minus is a sign as well as the separator.  There is no doubt which it is: after its
first character a numeral has no minus, so the separator is the first minus behind the
first character of the piece (`Interval.minus_notMem`).  That is where the reader looks
for it, and so it reads exactly the pieces of the grammar (`Interval.read?_eq_some_iff`).

For the same reason an interval is read back from its written form whatever the signs
of its bounds are (`Interval.read?_write`), and a range list from its text.
-/

import Mathlib.Data.List.Basic
import Muster.Proofs.Text.Items
import Muster.Range

namespace Muster
namespace Text

/-! ### Numerals -/

/-- The numerals of signed 32-bit integers. -/
structure Int32Numeral (cs : List Char) (n : Int) : Prop where
  numeral : Numerals.Signed cs n
  least : -2147483648 ≤ n
  greatest : n ≤ 2147483647

namespace Numerals

variable {cs : List Char} {n : Int}

/-- **Reading a 32-bit numeral** succeeds on these numerals only. -/
theorem read?_int32_iff : int32.read? cs = some n ↔ Int32Numeral cs n := by
  rw [read?, Option.filter_eq_some_iff, signed?_eq_some_iff (by decide), admits_iff]
  simp only [int32]
  constructor
  · rintro ⟨hnumeral, hleast, hgreatest⟩
    exact ⟨hnumeral, by omega, by omega⟩
  · rintro ⟨hnumeral, hleast, hgreatest⟩
    exact ⟨hnumeral, by omega, by omega⟩

end Numerals

namespace Int32Numeral

variable {cs : List Char} {n : Int}

/-- **A numeral** is a character and then digits. -/
theorem exists_cons (h : Int32Numeral cs n) : ∃ c ds, cs = c :: ds ∧ ∀ d ∈ ds, d.isDigit = true := by
  obtain ⟨hnumeral, -, -⟩ := h
  cases hnumeral with
  | plain hne hds =>
    obtain ⟨c, ds, rfl⟩ := List.exists_cons_of_ne_nil hne
    exact ⟨c, ds, rfl, (List.forall_mem_cons.1 hds).2⟩
  | plus _ hds => exact ⟨'+', _, rfl, hds⟩
  | minus _ hds => exact ⟨'-', _, rfl, hds⟩

/-- A numeral has no blanks. -/
theorem isBlank_of_mem (h : Int32Numeral cs n) {c : Char} (hc : c ∈ cs) : isBlank c = false := by
  rcases (Numerals.chars_of_read? (Numerals.read?_int32_iff.2 h)).2 c hc with hdigit | rfl | rfl
  · exact Numerals.isBlank_of_isDigit hdigit
  · decide
  · decide

/-- Trimming takes off the blanks around a numeral. -/
theorem trim_padded (h : Int32Numeral cs n) {before after : List Char}
    (hbefore : ∀ c ∈ before, isBlank c = true) (hafter : ∀ c ∈ after, isBlank c = true) :
    trim (before ++ (cs ++ after)) = cs :=
  (trim_pad hbefore hafter cs).trans (trim_eq_self (fun _ hc => h.isBlank_of_mem (List.mem_of_head? hc)) fun _ hc =>
    h.isBlank_of_mem (List.mem_of_getLast? hc))

end Int32Numeral

end Text

open Text

namespace Interval

/-! ### Pieces -/

/-- The pieces of a range list that name an interval. -/
inductive Written : List Char → Interval → Prop where
  | one {cs : List Char} {n : Int} (h : Int32Numeral cs n) : Written cs ⟨n, n, Int.le_refl n⟩
  | two {lower before after upper : List Char} {a b : Int} (hlower : Int32Numeral lower a)
      (hbefore : ∀ c ∈ before, isBlank c = true) (hafter : ∀ c ∈ after, isBlank c = true)
      (hupper : Int32Numeral upper b) :
      Written (lower ++ before ++ '-' :: (after ++ upper)) (between a b)

/-- **The separator is the first minus** behind the first character of a piece. -/
theorem minus_notMem {lower before : List Char} {a : Int} (hlower : Int32Numeral lower a)
    (hbefore : ∀ c ∈ before, isBlank c = true) : '-' ∉ (lower ++ before).tail := by
  obtain ⟨c, ds, rfl, hds⟩ := hlower.exists_cons
  rw [List.cons_append, List.tail_cons, List.mem_append]
  rintro (hmem | hmem)
  · exact absurd (hds _ hmem) (by decide)
  · exact absurd (hbefore _ hmem) (by decide)

/-- Bounds in order are the ends of their interval. -/
theorem between_of_le {a b : Int} (h : a ≤ b) : between a b = ⟨a, b, h⟩ := by
  simp only [between, Int.min_eq_left h, Int.max_eq_right h]

/-- Where there is no minus behind the first character, the piece is one numeral. -/
theorem read?_of_no_minus {c : Char} {cs : List Char} (h : '-' ∉ cs) :
    read? (c :: cs) = (Numerals.int32.read? (c :: cs)).map fun n => between n n := by
  rw [read?, dropWhile_ne_of_notMem h]

/-- Where there is one, the numerals stand on both sides of the first. -/
theorem read?_of_minus {c : Char} {left : List Char} (h : '-' ∉ left) (right : List Char) :
    read? (c :: (left ++ '-' :: right)) = (do
      let a ← Numerals.int32.read? (trim (c :: left))
      let b ← Numerals.int32.read? (trim right)
      return between a b) := by
  rw [read?, dropWhile_ne_append h, takeWhile_ne_append h]

/-- **A piece that names an interval is read** as this interval. -/
theorem read?_of_written {piece : List Char} {i : Interval} (h : Written piece i) : read? piece = some i := by
  cases h with
  | one h =>
    have hread := Numerals.read?_int32_iff.2 h
    obtain ⟨c, ds, rfl, hds⟩ := h.exists_cons
    have hminus : '-' ∉ ds := fun hmem => absurd (hds _ hmem) (by decide)
    rw [read?_of_no_minus hminus, hread, Option.map_some, between_of_le (Int.le_refl _)]
  | @two lower before after upper a b hlower hbefore hafter hupper =>
    have ha := Numerals.read?_int32_iff.2 hlower
    have hb := Numerals.read?_int32_iff.2 hupper
    have hright := hupper.trim_padded hafter (List.forall_mem_nil _)
    rw [List.append_nil] at hright
    have hleft := hlower.trim_padded (List.forall_mem_nil _) hbefore
    have hminus := minus_notMem hlower hbefore
    obtain ⟨c, ds, rfl, -⟩ := hlower.exists_cons
    rw [List.nil_append, List.cons_append] at hleft
    rw [List.cons_append, List.tail_cons] at hminus
    rw [List.cons_append, List.cons_append, read?_of_minus hminus, hleft, hright, ha, hb]
    rfl

/-- **A trimmed piece that is read** names the interval. -/
theorem written_of_read? {piece : List Char} (htrimmed : trim piece = piece) {i : Interval}
    (h : read? piece = some i) : Written piece i := by
  obtain ⟨hhead, hlast⟩ := trim_eq_self_iff.1 htrimmed
  cases piece with
  | nil => cases h
  | cons c cs =>
    by_cases hminus : '-' ∈ cs
    · obtain ⟨left, right, rfl, hleft⟩ := List.eq_append_cons_of_mem hminus
      rw [read?_of_minus hleft] at h
      obtain ⟨a, ha, h⟩ := Option.bind_eq_some_iff.1 h
      obtain ⟨b, hb, h⟩ := Option.bind_eq_some_iff.1 h
      obtain rfl := Option.some.inj h
      -- the piece is trimmed, so what is trimmed off its parts stands around the separator
      have hleftHead : ∀ d, (c :: left).head? = some d → isBlank d = false := hhead
      have hrightLast : ∀ d, right.getLast? = some d → isBlank d = false := fun d hd => hlast d (by
        simp [List.getLast?_cons, List.getLast?_append, hd])
      obtain ⟨before, hbefore, hlower⟩ := exists_padding_behind hleftHead
      obtain ⟨after, hafter, hupper⟩ := exists_padding_front hrightLast
      have hpiece : c :: (left ++ '-' :: right) = trim (c :: left) ++ before ++ '-' :: (after ++ trim right) := by
        rw [← hlower, ← hupper, List.cons_append]
      rw [hpiece]
      exact .two (Numerals.read?_int32_iff.1 ha) hbefore hafter (Numerals.read?_int32_iff.1 hb)
    · rw [read?_of_no_minus hminus] at h
      obtain ⟨n, hn, rfl⟩ := Option.map_eq_some_iff.1 h
      rw [between_of_le (Int.le_refl _)]
      exact .one (Numerals.read?_int32_iff.1 hn)

/-- **The reader reads the grammar.** -/
theorem read?_eq_some_iff {piece : List Char} (htrimmed : trim piece = piece) {i : Interval} :
    read? piece = some i ↔ Written piece i :=
  ⟨written_of_read? htrimmed, read?_of_written⟩

/-! ### Written intervals -/

/-- Both bounds are signed 32-bit integers. -/
structure Fits (i : Interval) : Prop where
  least : -2147483648 ≤ i.lo
  greatest : i.hi ≤ 2147483647

/-- The ends of a written interval are signed 32-bit integers. -/
theorem Written.fits {piece : List Char} {i : Interval} (h : Written piece i) : i.Fits := by
  cases h with
  | one h => exact ⟨h.least, h.greatest⟩
  | two ha _ _ hb =>
    have := ha.least
    have := ha.greatest
    have := hb.least
    have := hb.greatest
    exact ⟨by simp only [between]; omega, by simp only [between]; omega⟩

/-- A signed 32-bit integer is written as a numeral of it. -/
theorem int32Numeral_write {n : Int} (hleast : -2147483648 ≤ n) (hgreatest : n ≤ 2147483647) :
    Int32Numeral (Numerals.write n) n :=
  Numerals.read?_int32_iff.1 (Numerals.read?_write (Numerals.admits_iff.2 ⟨hleast, hgreatest⟩))

/-- **An interval is written as a piece that names it.** -/
theorem written_write {i : Interval} (h : i.Fits) : Written i.write i := by
  have hlo := int32Numeral_write h.least (Int.le_trans i.lo_le_hi h.greatest)
  have hhi := int32Numeral_write (Int.le_trans h.least i.lo_le_hi) h.greatest
  obtain ⟨lo, hi, hle⟩ := i
  rw [write]
  split
  · next heq =>
    obtain rfl : lo = hi := heq
    exact .one hlo
  · have htwo := Written.two hlo (List.forall_mem_nil _) (List.forall_mem_nil _) hhi
    rwa [between_of_le hle, List.append_nil, List.nil_append] at htwo

/-- The written form of an interval has digits and minuses only. -/
theorem isDigit_or_of_mem_write {i : Interval} {c : Char} (hc : c ∈ i.write) : c.isDigit = true ∨ c = '-' := by
  rw [write] at hc
  split at hc
  · exact Numerals.isDigit_or_of_mem_write hc
  · rw [List.mem_append, List.mem_cons] at hc
    rcases hc with hc | rfl | hc
    · exact Numerals.isDigit_or_of_mem_write hc
    · exact .inr rfl
    · exact Numerals.isDigit_or_of_mem_write hc

/-- A written interval has no blanks around it. -/
theorem trim_write (i : Interval) : trim i.write = i.write :=
  Numerals.trim_eq_self_of_digits fun _ => isDigit_or_of_mem_write

/-- A written interval has no comma, so it is one piece of a list. -/
theorem comma_notMem_write (i : Interval) : ',' ∉ i.write := by
  intro hc
  rcases isDigit_or_of_mem_write hc with hdigit | hminus
  · exact absurd hdigit (by decide)
  · exact absurd hminus (by decide)

/-- **A written interval reads back.** -/
theorem read?_write {i : Interval} (h : i.Fits) : read? i.write = some i :=
  read?_of_written (written_write h)

end Interval

namespace RangeSet

/-! ### Lists -/

/-- The intervals that some pieces name, in order: one that names none is passed over. -/
inductive Names : List (List Char) → List Interval → Prop where
  | nil : Names [] []
  | keep {piece : List Char} {i : Interval} {pieces : List (List Char)} {is : List Interval}
      (h : Interval.Written piece i) (rest : Names pieces is) : Names (piece :: pieces) (i :: is)
  | skip {piece : List Char} {pieces : List (List Char)} {is : List Interval}
      (h : ∀ i, ¬ Interval.Written piece i) (rest : Names pieces is) : Names (piece :: pieces) is

/-- The intervals that trimmed pieces name are the ones that are read. -/
theorem names_iff {pieces : List (List Char)} (htrimmed : ∀ piece ∈ pieces, trim piece = piece) {is : List Interval} :
    Names pieces is ↔ pieces.filterMap Interval.read? = is := by
  induction pieces generalizing is with
  | nil => exact ⟨fun h => by cases h; rfl, fun h => h ▸ .nil⟩
  | cons piece pieces ih =>
    obtain ⟨hpiece, hpieces⟩ := List.forall_mem_cons.1 htrimmed
    have ih := @ih hpieces
    constructor
    · intro h
      cases h with
      | keep h rest => rw [List.filterMap_cons_some ((Interval.read?_eq_some_iff hpiece).2 h), ih.1 rest]
      | skip h rest =>
        have hnone : Interval.read? piece = none := Option.eq_none_iff_forall_ne_some.2 fun i hi =>
          h i ((Interval.read?_eq_some_iff hpiece).1 hi)
        rw [List.filterMap_cons_none hnone, ih.1 rest]
    · rintro rfl
      cases hread : Interval.read? piece with
      | none =>
        rw [List.filterMap_cons_none hread]
        refine .skip (fun i h => ?_) (ih.2 rfl)
        rw [(Interval.read?_eq_some_iff hpiece).2 h] at hread
        cases hread
      | some i =>
        rw [List.filterMap_cons_some hread]
        exact .keep ((Interval.read?_eq_some_iff hpiece).1 hread) (ih.2 rfl)

/-- The pieces of a list are trimmed. -/
theorem trim_of_mem_commaPieces {s : String} {piece : List Char} (h : piece ∈ commaPieces s) : trim piece = piece := by
  obtain ⟨cs, -, rfl⟩ := List.mem_map.1 h
  exact trim_trim cs

/-- The intervals of a range list are those that its pieces name. -/
theorem mem_parse_iff {s : String} {i : Interval} :
    i ∈ (parse s).intervals ↔ ∃ piece ∈ commaPieces s, Interval.Written piece i := by
  rw [parse, List.mem_filterMap]
  exact exists_congr fun piece => and_congr_right fun h => Interval.read?_eq_some_iff (trim_of_mem_commaPieces h)

/-- **A range list with 32-bit bounds is read back from its text.** -/
theorem parse_text {r : RangeSet} (h : ∀ i ∈ r.intervals, i.Fits) : parse r.text = r := by
  obtain ⟨is⟩ := r
  cases is with
  | nil => rfl
  | cons i is =>
    have hcomma : ∀ piece ∈ (i :: is).map Interval.write, ',' ∉ piece := by
      intro piece hpiece
      obtain ⟨j, -, rfl⟩ := List.mem_map.1 hpiece
      exact j.comma_notMem_write
    have hpieces : commaPieces (text ⟨i :: is⟩) = (i :: is).map Interval.write := by
      have hsplit : ([','].intercalate ((i :: is).map Interval.write)).splitOn ',' = (i :: is).map Interval.write :=
        List.splitOn_intercalate ',' hcomma (List.cons_ne_nil _ _)
      rw [commaPieces, text, String.toList_ofList]
      change (([','].intercalate ((i :: is).map Interval.write)).splitOn ',').map trim = _
      rw [hsplit, List.map_map]
      exact List.map_congr_left fun j _ => j.trim_write
    have hread : ((i :: is).map Interval.write).filterMap Interval.read? = i :: is := by
      rw [List.filterMap_map]
      exact (List.filterMap_congr fun j hj => Interval.read?_write (h j hj)).trans (List.filterMap_some ..)
    rw [parse, hpieces, hread]

/-- **The grammar of range lists.**  A piece names an interval if it is a numeral of a signed
32-bit integer, or two of these with a minus in between and perhaps blanks around it; this minus
is the first one behind the first character of the piece.  Of the trimmed pieces between the
commas of a text, a range list keeps exactly the intervals that some piece names, in order, and
passes over the others.  So it holds the integers in some interval that a piece names, and it is
read back from its text, whatever text it was read from. -/
theorem range_list_grammar (s : String) :
    (∀ lower before a, Int32Numeral lower a → (∀ c ∈ before, isBlank c = true) → '-' ∉ (lower ++ before).tail) ∧
      (∀ is, Names ((s.toList.splitOn ',').map trim) is ↔ (parse s).intervals = is) ∧
      (∀ n, (parse s).contains n = true ↔
        ∃ piece ∈ (s.toList.splitOn ',').map trim, ∃ i, Interval.Written piece i ∧ i.lo ≤ n ∧ n ≤ i.hi) ∧
      parse (parse s).text = parse s := by
  have hfits : ∀ i ∈ (parse s).intervals, i.Fits := fun i hi => by
    obtain ⟨piece, -, h⟩ := mem_parse_iff.1 hi
    exact h.fits
  refine ⟨fun _ _ _ => Interval.minus_notMem, fun is => names_iff fun _ => trim_of_mem_commaPieces, fun n => ?_,
    parse_text hfits⟩
  rw [contains, List.any_eq_true]
  simp only [mem_parse_iff, Interval.contains_eq_true_iff]
  exact ⟨fun ⟨i, ⟨piece, hpiece, h⟩, hn⟩ => ⟨piece, hpiece, i, h, hn⟩,
    fun ⟨piece, hpiece, i, h, hn⟩ => ⟨i, ⟨piece, hpiece, h⟩, hn⟩⟩

/-- A list with signs on both sides of separators, and with pieces that name nothing. -/
def signedList : String := "5 - 2,-3--1,--3,1-2-3,+2147483647,2147483648"

/-- What `range_list_grammar` says of `signedList`. -/
theorem range_list_grammar_signs :
    Int32Numeral ['-', '3'] (-3) ∧ '-' ∉ (['-', '3'] ++ [' ']).tail ∧
      Names ((signedList.toList.splitOn ',').map trim) [⟨2, 5, by decide⟩, ⟨-3, -1, by decide⟩,
        ⟨2147483647, 2147483647, by decide⟩] ∧
      (parse signedList).contains (-2) = true ∧ parse (parse signedList).text = parse signedList := by
  obtain ⟨hseparator, hnames, -, hback⟩ := range_list_grammar signedList
  have hnumeral : Int32Numeral ['-', '3'] (-3) := Numerals.read?_int32_iff.1 (by decide)
  have hblank : ∀ c ∈ [' '], isBlank c = true := List.forall_mem_singleton.2 (by decide)
  exact ⟨hnumeral, hseparator _ _ _ hnumeral hblank, (hnames _).2 (by decide), by decide, hback⟩

end RangeSet
end Muster
