/-
# Labels as JSON

Labels are kept as an array of objects, in the order of their locations, each
with the coordinates counted from zero beside the fields of the label.  Reading
places the labels one after the other: a field that is missing takes its default,
one of the wrong kind spoils the document, and unknown ones do not matter.  A
colour is read from an object or from an array of its three components.
-/

import Muster.Editor.Label
import Muster.Json.Basic

namespace Muster

namespace Color

/-- The JSON value of a colour. -/
def toJson (c : Color) : Json :=
  .obj [("r", .int c.r.toNat), ("g", .int c.g.toNat), ("b", .int c.b.toNat)]

/-- The component that a JSON value stands for. -/
def componentOfJson? : Json → Option UInt8
  | .int n => if Text.Numerals.byte.admits n then some (UInt8.ofNat n.toNat) else none
  | _ => none

/-- Read a colour from JSON. -/
def ofJson? : Json → Option Color
  | .arr vs => (vs.mapM componentOfJson?).bind ofComponents?
  | .obj ms => (["r", "g", "b"].mapM fun name => (ms.lookup name).bind componentOfJson?).bind ofComponents?
  | _ => none

end Color

namespace Label

/-- The JSON value of a label at a location. -/
def toJson (l : Location) (label : Label) : Json :=
  .obj
    [("x", .int l.x), ("y", .int l.y), ("text", .str label.text), ("team_name", .str label.team),
      ("color", label.color.toJson), ("visible_in_fog", .bool label.visibleInFog),
      ("visible_in_shroud", .bool label.visibleInShroud), ("immutable", .bool label.immutable)]

/-- The coordinate that a JSON value stands for. -/
def coordinate? : Json → Option Int
  | .int n => if Text.Numerals.int32.admits n then some n else none
  | _ => none

/-- The text that a JSON value stands for. -/
def string? : Json → Option String
  | .str s => some s
  | _ => none

/-- The truth value that a JSON value stands for. -/
def bool? : Json → Option Bool
  | .bool b => some b
  | _ => none

/-- Read a member that may be missing. -/
def field? {α : Type} (ms : List (String × Json)) (name : String) (default : α) (read : Json → Option α) :
    Option α :=
  match ms.lookup name with
  | none => some default
  | some v => read v

/-- Read a label and its location. -/
def ofJson? : Json → Option (Location × Label)
  | .obj ms => do
    let x ← (ms.lookup "x").bind coordinate?
    let y ← (ms.lookup "y").bind coordinate?
    let text ← field? ms "text" "" string?
    let team ← field? ms "team_name" "" string?
    let color ← field? ms "color" .white Color.ofJson?
    let visibleInFog ← field? ms "visible_in_fog" true bool?
    let visibleInShroud ← field? ms "visible_in_shroud" false bool?
    let immutable ← field? ms "immutable" true bool?
    return (⟨x, y⟩, { text, team, color, visibleInFog, visibleInShroud, immutable })
  | _ => none

end Label

namespace Labels

/-- The JSON value of the labels. -/
def toJson (ls : Labels) : Json := .arr (ls.entries.map fun e => e.2.toJson e.1)

/-- Read labels from JSON. -/
def ofJson? : Json → Option Labels
  | .arr vs => (vs.mapM Label.ofJson?).map fun placed => placed.foldl (fun ls p => ls.place p.1 p.2) Table.empty
  | _ => none

end Labels
end Muster
