/-
# Label colours

A colour has a red, a green and a blue component of one byte each.  Its text is
the three components with commas between them; blanks around a component do not
count.
-/

import Muster.Text.Numeral
import Muster.Text.Pieces

namespace Muster

/-- A colour. -/
structure Color where
  r : UInt8
  g : UInt8
  b : UInt8
deriving DecidableEq

/-- A text that is no colour. -/
structure ColorError where
  text : String
deriving DecidableEq

/-- The wording. -/
def ColorError.message (e : ColorError) : String :=
  "invalid color `" ++ e.text ++ "`; expected `r,g,b` with components 0-255"

namespace Color

/-- White. -/
def white : Color := ⟨255, 255, 255⟩

/-- The component of a numeral. -/
def component? (cs : List Char) : Option UInt8 :=
  (Text.Numerals.byte.read? cs).map fun n => UInt8.ofNat n.toNat

/-- The components in order. -/
def components (c : Color) : List UInt8 := [c.r, c.g, c.b]

/-- The colour of three components. -/
def ofComponents? : List UInt8 → Option Color
  | [r, g, b] => some ⟨r, g, b⟩
  | _ => none

/-- Read a colour. -/
def parse (s : String) : Except ColorError Color :=
  match ((Text.commaPieces s).mapM component?).bind ofComponents? with
  | some c => .ok c
  | none => .error ⟨s⟩

/-- The text of a colour. -/
def text (c : Color) : String :=
  String.ofList ((c.components.map fun n => Text.Numerals.write n.toNat).intersperse [',']).flatten

end Color
end Muster
