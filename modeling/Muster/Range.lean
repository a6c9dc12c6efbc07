/-
# Lists of integer intervals

A *range list* such as `1-6, 9, -3` names integers.  Each comma piece is one
32-bit numeral, or two with a minus between them; the separator is the first
minus after the piece's first character, so that a leading minus is a sign:

| piece | interval |
| --- | --- |
| `9` | 9 to 9 |
| `1-6`, `6 - 1` | 1 to 6 |
| `-3--1` | -3 to -1 |
| `4-x`, `--3`, `1-2-3` | none: the piece is passed over |
-/

import Muster.Text.Numeral
import Muster.Text.Pieces

namespace Muster

open Text

/-- An inclusive interval of integers. -/
structure Interval where
  lo : Int
  hi : Int
  lo_le_hi : lo ≤ hi := by omega
deriving DecidableEq

namespace Interval

/-- The interval between two integers given in either order. -/
def between (a b : Int) : Interval := ⟨min a b, max a b, by omega⟩

/-- Whether an integer lies in the interval. -/
def contains (i : Interval) (n : Int) : Bool := i.lo ≤ n && n ≤ i.hi

/-- The integers of the interval, ascending. -/
def values (i : Interval) : List Int :=
  (List.range (i.hi - i.lo + 1).toNat).map fun (k : Nat) => i.lo + k

/-- Read one trimmed piece of a range list. -/
def read? : List Char → Option Interval
  | [] => none
  | c :: cs =>
    match cs.dropWhile (· ≠ '-') with
    | [] => (Numerals.int32.read? (c :: cs)).map fun n => between n n
    | _ :: upper => do
      let a ← Numerals.int32.read? (trim (c :: cs.takeWhile (· ≠ '-')))
      let b ← Numerals.int32.read? (trim upper)
      return between a b

/-- The shortest piece that reads as the interval. -/
def write (i : Interval) : List Char :=
  if i.lo = i.hi then Numerals.write i.lo else Numerals.write i.lo ++ '-' :: Numerals.write i.hi

theorem contains_eq_true_iff {i : Interval} {n : Int} :
    i.contains n = true ↔ i.lo ≤ n ∧ n ≤ i.hi := by simp [contains]

theorem mem_values {i : Interval} {n : Int} : n ∈ i.values ↔ i.contains n = true := by
  simp only [values, List.mem_map, List.mem_range, contains_eq_true_iff]
  constructor
  · rintro ⟨k, hk, rfl⟩; omega
  · intro h; exact ⟨(n - i.lo).toNat, by omega, by omega⟩

end Interval

/-- A range list, in the order written. -/
structure RangeSet where
  intervals : List Interval
deriving DecidableEq

namespace RangeSet

/-- Read a range list, passing over the pieces that are no interval. -/
def parse (s : String) : RangeSet := ⟨(commaPieces s).filterMap Interval.read?⟩

/-- Whether some interval holds the integer. -/
def contains (r : RangeSet) (n : Int) : Bool := r.intervals.any (·.contains n)

/-- Whether the list has no interval. -/
def isEmpty (r : RangeSet) : Bool := r.intervals.isEmpty

/-- Every integer of the list once, ascending. -/
def values (r : RangeSet) : List Int :=
  ((r.intervals.flatMap Interval.values).mergeSort fun a b => decide (a ≤ b)).eraseReps

/-- The range list in its shortest form. -/
def text (r : RangeSet) : String :=
  String.ofList ((r.intervals.map Interval.write).intersperse [',']).flatten

end RangeSet
end Muster
