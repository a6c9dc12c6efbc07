/-
# The shortest decimal of a floating-point number

The decimals that read back as a given number fill an interval around it, which
reaches halfway to either neighbour and holds its ends exactly when the
significand is even.  The *shortest* decimal is a multiple of the largest power
of ten that has a multiple in that interval; of two such multiples it is the
nearer one, and of two equally near ones the writer's rule picks.
-/

import Muster.Real.Binary64

namespace Muster

/-- The value `digits · 10^exponent`. -/
structure Decimal where
  digits : Nat
  exponent : Int
deriving DecidableEq

/-- Which of two equally near decimals is written. -/
inductive TieRule where
  | larger
  | even
deriving DecidableEq

namespace Binary64

/-- Compare `a · 10^i` with `n · 2^j`. -/
def compareScaled (a : Nat) (i : Int) (n : Nat) (j : Int) : Ordering :=
  compare (a * Nat.pow 10 i.toNat * Nat.pow 2 (-j).toNat) (n * Nat.pow 2 j.toNat * Nat.pow 10 (-i).toNat)

/-- Whether the number below is only half as far away as the number above, as
it is at a power of two. -/
def isNarrowBelow (r : Binary64) : Bool := r.fractionBits = 0 && r.exponentBits > 1

/-- Whether a decimal reads back as the magnitude of a finite number. -/
def readsBack (r : Binary64) (d : Decimal) : Bool :=
  let m := 4 * r.significand
  let low := compareScaled d.digits d.exponent (m - if r.isNarrowBelow then 1 else 2) (r.scale - 2)
  let high := compareScaled d.digits d.exponent (m + 2) (r.scale - 2)
  let closed := m % 8 = 0
  (low = .gt || low = .eq && closed) && (high = .lt || high = .eq && closed)

/-- The multiple of a power of ten at or below the magnitude of a number. -/
def floorAt (r : Binary64) (exponent : Int) : Decimal :=
  ⟨r.significand * Nat.pow 2 r.scale.toNat * Nat.pow 10 (-exponent).toNat /
      (Nat.pow 2 (-r.scale).toNat * Nat.pow 10 exponent.toNat),
    exponent⟩

/-- The better of the two multiples of a power of ten around a number, if one of
them reads back. -/
def candidate? (tie : TieRule) (r : Binary64) (exponent : Int) : Option Decimal :=
  let below := r.floorAt exponent
  let above : Decimal := ⟨below.digits + 1, exponent⟩
  match r.readsBack below, r.readsBack above with
  | false, false => none
  | true, false => some below
  | false, true => some above
  | true, true =>
    match compareScaled (2 * below.digits + 1) exponent (2 * r.significand) r.scale with
    | .lt => some above
    | .gt => some below
    | .eq =>
      match tie with
      | .larger => some above
      | .even => some (if below.digits % 2 = 0 then below else above)

/-- Try finer and finer powers of ten. -/
def search (tie : TieRule) (r : Binary64) : Nat → Int → Option Decimal
  | 0, _ => none
  | steps + 1, exponent => (candidate? tie r exponent).orElse fun _ => search tie r steps (exponent - 1)

/-- The shortest decimal of the magnitude of a finite number.  The search starts
at a power of ten above the number, and seventeen digits always suffice, so
that the exact value in the last line is out of reach. -/
def shortest (tie : TieRule) (r : Binary64) : Decimal :=
  if r.significand = 0 then ⟨0, 0⟩
  else
    let start := ((r.significand.log2 : Int) + r.scale + 1) * 30103 / 100000 + 1
    (search tie r 22 start).getD
      ⟨r.significand * Nat.pow 2 r.scale.toNat * Nat.pow 5 (-r.scale).toNat, min r.scale 0⟩

/-- A tenth, 10²³, 2⁻²⁵ under either rule, and the least positive number. -/
example : shortest .even ⟨0x3FB999999999999A⟩ = ⟨1, -1⟩ ∧ shortest .even ⟨0x44B52D02C7E14AF6⟩ = ⟨1, 23⟩ ∧
    shortest .even ⟨0x3E60000000000000⟩ = ⟨29802322387695312, -24⟩ ∧
    shortest .larger ⟨0x3E60000000000000⟩ = ⟨29802322387695313, -24⟩ ∧
    shortest .even ⟨1⟩ = ⟨5, -324⟩ := by decide +kernel

end Binary64
end Muster
