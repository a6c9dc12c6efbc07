/-
# Written forms of a floating-point number

A number is written with its shortest digits.  A *style* says where they go:
which decimal exponents (that of the leading digit) are written positionally,
whether a whole number keeps `.0`, and which of two equally near decimals is
taken.  Elsewhere the number is written with one digit before the point and a
signed exponent, as in `1.5e+300`.

| style | positional | whole numbers | ties |
| --- | --- | --- | --- |
| plain (attributes) | always | `12` | the larger decimal |
| JSON | exponents -5 to 15 | `12.0` | the even decimal |
-/

import Muster.Real.Shortest

namespace Muster

/-- The decisions of a written form. -/
structure RealStyle where
  /-- Which of two equally near decimals is written. -/
  tie : TieRule
  /-- The decimal exponents that are written positionally. -/
  isPositional : Int → Bool
  /-- Whether a whole number is marked by `.0`. -/
  marksWhole : Bool

namespace RealStyle

/-- Attributes are always written positionally. -/
def plain : RealStyle := ⟨.larger, fun _ => true, false⟩

/-- JSON numbers are written positionally near one. -/
def json : RealStyle := ⟨.even, fun k => -5 ≤ k && k ≤ 15, true⟩

/-- The digits with a point, or zeros, where the exponent wants them. -/
def positional (style : RealStyle) (digits : List Char) (exponent : Int) : List Char :=
  if 0 ≤ exponent then
    digits ++ List.replicate exponent.toNat '0' ++ if style.marksWhole then ['.', '0'] else []
  else
    let places := (-exponent).toNat
    let padded := List.replicate (places + 1 - digits.length) '0' ++ digits
    padded.take (padded.length - places) ++ '.' :: padded.drop (padded.length - places)

/-- One digit, the others after a point, and the exponent of the first. -/
def scientific (digits : List Char) (lead : Int) : List Char :=
  digits.take 1 ++ (if digits.length ≤ 1 then [] else '.' :: digits.drop 1) ++
    'e' :: (if lead < 0 then '-' else '+') :: Nat.toDigits 10 lead.natAbs

/-- A finite number in a style. -/
def writeFinite (style : RealStyle) (r : Binary64) : List Char :=
  let d := r.shortest style.tie
  let digits := Nat.toDigits 10 d.digits
  let lead := digits.length + d.exponent - 1
  (if r.isNegative then ['-'] else []) ++
    if style.isPositional lead then style.positional digits d.exponent else scientific digits lead

end RealStyle

namespace Binary64

/-- The attribute text of a number. -/
def text (r : Binary64) : String :=
  if r.isNaN then "NaN"
  else if r.isFinite then String.ofList (RealStyle.plain.writeFinite r)
  else if r.isNegative then "-inf" else "inf"

/-- The JSON text of a number; JSON has no numeral for an infinity or for what
is not a number. -/
def jsonText (r : Binary64) : List Char :=
  if r.isFinite then RealStyle.json.writeFinite r else "null".toList

end Binary64
end Muster
