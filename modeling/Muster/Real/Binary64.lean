/-
# 64-bit floating-point numbers

A real-valued attribute is a binary64 number, kept as its 64 bits: a sign, 11
exponent bits `e` and 52 fraction bits `f`.

| `e` | `f` | value |
| --- | --- | --- |
| 2047 | 0 | an infinity |
| 2047 | not 0 | not a number |
| 0 | any | `f · 2^(-1074)` |
| 1 to 2046 | any | `(2^52 + f) · 2^(e - 1075)` |

A decimal text denotes the nearest of these numbers, a tie going to the even
significand; a decimal nearest to no finite number is refused.
-/

namespace Muster

/-- A binary64 number, by its bits. -/
structure Binary64 where
  bits : UInt64
deriving DecidableEq

namespace Binary64

/-- Not a number. -/
def nan : Binary64 := ⟨0x7FF8000000000000⟩

/-- Positive infinity. -/
def infinity : Binary64 := ⟨0x7FF0000000000000⟩

/-- Zero. -/
def zero : Binary64 := ⟨0⟩

/-- The same number with the other sign. -/
def neg (r : Binary64) : Binary64 := ⟨r.bits ^^^ 0x8000000000000000⟩

/-- Whether the sign is a minus, which zero can have too. -/
def isNegative (r : Binary64) : Bool := r.bits ≥ 0x8000000000000000

/-- The exponent bits. -/
def exponentBits (r : Binary64) : Nat := ((r.bits >>> 52) &&& 0x7FF).toNat

/-- The fraction bits. -/
def fractionBits (r : Binary64) : Nat := (r.bits &&& 0xFFFFFFFFFFFFF).toNat

/-- Whether the number is neither an infinity nor not a number. -/
def isFinite (r : Binary64) : Bool := r.exponentBits ≠ 2047

/-- Whether this is not a number. -/
def isNaN (r : Binary64) : Bool := r.exponentBits = 2047 && r.fractionBits ≠ 0

/-- The significand `m` of a finite number of magnitude `m · 2^scale`. -/
def significand (r : Binary64) : Nat :=
  if r.exponentBits = 0 then r.fractionBits else Nat.pow 2 52 + r.fractionBits

/-- The power of two that goes with the significand. -/
def scale (r : Binary64) : Int :=
  if r.exponentBits = 0 then -1074 else (r.exponentBits : Int) - 1075

/-- The value of a finite number that is whole. -/
def whole? (r : Binary64) : Option Int :=
  if r.isFinite then
    let divisor := Nat.pow 2 (-r.scale).toNat
    if r.significand % divisor = 0 then
      let magnitude : Int := (r.significand / divisor * Nat.pow 2 r.scale.toNat : Nat)
      some (if r.isNegative then -magnitude else magnitude)
    else none
  else none

/-- The quotient rounded to the nearest natural number, a half to the even one. -/
def roundQuotient (num den : Nat) : Nat :=
  let floor := num / den
  match compare (2 * (num % den)) den with
  | .lt => floor
  | .eq => floor + floor % 2
  | .gt => floor + 1

/-- The least power of two that keeps the significand of `num / den` below 2⁵³
and is not too fine for the format. -/
def scaleOf (num den : Nat) : Int :=
  let guess : Int := (num.log2 : Int) - den.log2
  let lead := if den * Nat.pow 2 guess.toNat ≤ num * Nat.pow 2 (-guess).toNat then guess else guess - 1
  max (lead - 52) (-1074)

/-- The number nearest to a quotient of positive naturals, if it is finite.
The exponent and the significand are added up, so that a significand which
rounds up to the next power of two carries into the exponent. -/
def ofQuotient? (num den : Nat) : Option Binary64 :=
  let q := scaleOf num den
  let bits := (q + 1074).toNat * Nat.pow 2 52 + roundQuotient (num * Nat.pow 2 (-q).toNat) (den * Nat.pow 2 q.toNat)
  if bits < 2047 * Nat.pow 2 52 then some ⟨UInt64.ofNat bits⟩ else none

/-- The number nearest to `digits · 10^exponent`, if it is finite.  A decimal
whose leading digit is far outside the format's reach is settled without
forming the power of ten. -/
def ofDecimal? (digits : Nat) (exponent : Int) : Option Binary64 :=
  let lead := (Nat.toDigits 10 digits).length + exponent
  if digits = 0 ∨ lead < -330 then some zero
  else if lead > 310 then none
  else ofQuotient? (digits * Nat.pow 10 exponent.toNat) (Nat.pow 10 (-exponent).toNat)

/-- The number nearest to an integer, an infinity where none is finite. -/
def ofInt (n : Int) : Binary64 :=
  let r := (ofDecimal? n.natAbs 0).getD infinity
  if n < 0 then r.neg else r

/-- One, a third and the least positive number. -/
example : ofDecimal? 1 0 = some ⟨0x3FF0000000000000⟩ ∧ ofQuotient? 1 3 = some ⟨0x3FD5555555555555⟩ ∧
    ofDecimal? 5 (-324) = some ⟨1⟩ ∧ ofDecimal? 2 308 = none := by decide +kernel

end Binary64
end Muster
