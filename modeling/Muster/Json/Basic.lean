/-
# JSON documents

A JSON value keeps the members of an object in document order, and keeps whole
numerals apart from the others: a numeral without fraction and exponent is an
integer of any size, every other one a floating-point number.
-/

import Muster.Real.Binary64

namespace Muster

/-- A JSON value. -/
inductive Json where
  | null
  | bool (b : Bool)
  | int (n : Int)
  | real (r : Binary64)
  | str (s : String)
  | arr (items : List Json)
  | obj (members : List (String × Json))

namespace Json

instance : Inhabited Json := ⟨null⟩

/-- The word for the kind of a value. -/
def kind : Json → String
  | null => "null"
  | bool _ => "bool"
  | int _ => "number"
  | real _ => "number"
  | str _ => "string"
  | arr _ => "array"
  | obj _ => "object"

/-- The value of the first member of a name. -/
def member? (v : Json) (name : String) : Option Json :=
  match v with
  | obj members => members.lookup name
  | _ => none

end Json
end Muster
