/-
# Attribute values

An attribute holds a scalar: a truth value, a 64-bit integer, a floating-point
number or a text.  An absent attribute is *blank*, which is not the same as an
empty text; a value is therefore an optional scalar.

Scalars are compared by their printed form, whatever their kind, so that `3`
and `"3"` are the same and so are a true value and `"yes"`.  Each test reads
the form that it wants:

| scalar | printed | as a truth value | as an integer |
| --- | --- | --- | --- |
| truth value | `yes`, `no` | itself | none |
| integer | its numeral | whether it is not 0 | itself |
| floating point | its shortest decimal | none | itself if whole, kept within 64 bits |
| text | itself | `yes true on 1` or `no false off 0`, trimmed | its numeral, trimmed |
-/

import Muster.Real.Text
import Muster.Text.Numeral
import Muster.Text.Blank

namespace Muster

/-- The value of a present attribute. -/
inductive Scalar where
  | bool (b : Bool)
  | int (n : Int64)
  | real (r : Binary64)
  | str (s : String)
deriving DecidableEq

namespace Scalar

/-- The printed form. -/
def text : Scalar → String
  | bool b => if b then "yes" else "no"
  | int n => String.ofList (Text.Numerals.write n.toInt)
  | real r => r.text
  | str s => s

/-- Whether two scalars have the same printed form. -/
def agrees (a b : Scalar) : Bool := a.text == b.text

/-- The truth value that a word stands for. -/
def truthOfWord? (word : String) : Option Bool :=
  if ["yes", "true", "on", "1"].contains word then some true
  else if ["no", "false", "off", "0"].contains word then some false
  else none

/-- The scalar as a truth value. -/
def toBool? : Scalar → Option Bool
  | bool b => some b
  | int n => some (n ≠ 0)
  | real _ => none
  | str s => truthOfWord? (Text.trimmed s)

/-- The 64-bit integer nearest to an integer. -/
def saturate (n : Int) : Int64 :=
  Int64.ofInt (max Text.Numerals.int64.least (min n Text.Numerals.int64.greatest))

/-- The scalar as an integer. -/
def toInt? : Scalar → Option Int64
  | bool _ => none
  | int n => some n
  | real r => r.whole?.map saturate
  | str s => Text.Numerals.int64? (Text.trim s.toList)

end Scalar

/-- The value of an attribute that may be absent. -/
abbrev Value := Option Scalar

namespace Value

/-- The printed form, empty for a blank value. -/
def text (v : Value) : String := v.elim "" Scalar.text

/-- Whether the printed form is empty, as it is for a blank value. -/
def isEmpty (v : Value) : Bool := v.text.isEmpty

/-- The truth value, or a default. -/
def toBool (v : Value) (default : Bool) : Bool := (v.bind Scalar.toBool?).getD default

/-- The integer, or a default. -/
def toInt (v : Value) (default : Int64) : Int64 := (v.bind Scalar.toInt?).getD default

/-- Whether the value is present and prints as a given text. -/
def prints (v : Value) (s : String) : Bool := v.any fun a => a.text == s

/-- Whether two values are both blank or print the same. -/
def agrees : Value → Value → Bool
  | none, none => true
  | some a, some b => a.agrees b
  | _, _ => false

end Value
end Muster
