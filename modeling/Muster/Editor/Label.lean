/-
# Map labels

A label is a text on a hex, shown to the troops of some teams or of all.  A map
has at most one label at a location, and none with an empty text: placing one
takes the label there away.
-/

import Muster.Editor.Color
import Muster.Location
import Muster.Table

namespace Muster

/-- A text on a hex. -/
structure Label where
  text : String := ""
  /-- The teams that see the label; empty for everyone. -/
  team : String := ""
  color : Color := .white
  visibleInFog : Bool := true
  visibleInShroud : Bool := false
  /-- Whether players cannot remove the label. -/
  immutable : Bool := true
deriving DecidableEq

/-- The labels of a map, by location. -/
abbrev Labels := Table Location Label

namespace Labels

/-- The labels with one placed at a location. -/
def place (ls : Labels) (l : Location) (label : Label) : Labels :=
  if label.text.isEmpty then ls.erase l else ls.insert l label

theorem get?_place (ls : Labels) (l : Location) (label : Label) (l' : Location) :
    (ls.place l label).get? l' =
      if l' = l then (if label.text.isEmpty then none else some label) else ls.get? l' := by
  by_cases h : l' = l <;> cases ht : label.text.isEmpty <;>
    simp [place, Table.get?_insert, Table.get?_erase, h, ht]

end Labels
end Muster
