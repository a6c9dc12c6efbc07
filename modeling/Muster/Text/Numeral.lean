/-
# Integer numerals

A numeral is an optional sign and at least one ASCII digit.  A minus is a sign
only where negative values are admitted, and a value outside the admitted
interval is no numeral at all:

| numerals | least | greatest |
| --- | ---: | ---: |
| `int32` | -2³¹ | 2³¹ - 1 |
| `int64` | -2⁶³ | 2⁶³ - 1 |
| `byte` | 0 | 255 |
| `index` | 0 | 2⁶⁴ - 1 |
-/

namespace Muster
namespace Text

/-- The integers that a kind of numeral may denote. -/
structure Numerals where
  least : Int
  greatest : Int
deriving DecidableEq

namespace Numerals

/-- Signed 32-bit integers. -/
def int32 : Numerals := ⟨-0x80000000, 0x7FFFFFFF⟩

/-- Signed 64-bit integers. -/
def int64 : Numerals := ⟨-0x8000000000000000, 0x7FFFFFFFFFFFFFFF⟩

/-- The components of a colour. -/
def byte : Numerals := ⟨0, 255⟩

/-- Positions in a list. -/
def index : Numerals := ⟨0, 0xFFFFFFFFFFFFFFFF⟩

/-- Whether a value is admitted. -/
def admits (k : Numerals) (n : Int) : Bool := k.least ≤ n && n ≤ k.greatest

/-- The value of a non-empty run of digits. -/
def magnitude? (ds : List Char) : Option Nat :=
  if !ds.isEmpty && ds.all Char.isDigit then some (Nat.ofDigitChars 10 ds 0) else none

/-- The value of a signed run of digits, of any size. -/
def signed? (k : Numerals) : List Char → Option Int
  | '+' :: ds => (magnitude? ds).map Int.ofNat
  | '-' :: ds => if k.least < 0 then (magnitude? ds).map fun n => -(n : Int) else none
  | ds => (magnitude? ds).map Int.ofNat

/-- Read a numeral. -/
def read? (k : Numerals) (cs : List Char) : Option Int := (k.signed? cs).filter k.admits

/-- Read a signed 64-bit numeral. -/
def int64? (cs : List Char) : Option Int64 := (int64.read? cs).map Int64.ofInt

/-- The plain decimal numeral of an integer. -/
def write : Int → List Char
  | .ofNat n => Nat.toDigits 10 n
  | .negSucc n => '-' :: Nat.toDigits 10 (n + 1)

end Numerals
end Text
end Muster
