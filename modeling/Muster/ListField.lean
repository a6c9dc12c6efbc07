/-
# List-valued fields

A field that holds a comma list is split when it is first asked about its
items, and only then.  A field that is absent is *blank*; it has no items, and
nothing is left to split.
-/

import Muster.Scalar
import Muster.Text.Pieces

namespace Muster

/-- A comma list and whether it has been split. -/
structure ListField where
  text : Option String
  isSplit : Bool

namespace ListField

/-- The field of an attribute value, by its printed form. -/
def ofValue (v : Value) : ListField := ⟨v.map Scalar.text, v.isNone⟩

/-- Whether the field is absent. -/
def isBlank (f : ListField) : Bool := f.text.isNone

/-- The items of the list. -/
def items (f : ListField) : List String := f.text.elim [] Text.splitList

/-- The field after it was asked about its items. -/
def split (f : ListField) : ListField := { f with isSplit := true }

/-- The items, and the field split. -/
def values (f : ListField) : List String × ListField := (f.items, f.split)

/-- Whether there are no items, and the field split. -/
def isEmpty (f : ListField) : Bool × ListField := (f.items.isEmpty, f.split)

/-- Whether an item is listed, and the field split. -/
def contains (f : ListField) (item : String) : Bool × ListField := (f.items.contains item, f.split)

end ListField
end Muster
