/-
# Configs as JSON

A config is read from an object, or from an array of objects, its *segments*,
which count as one object written in several parts:

| member | meaning |
| --- | --- |
| `null` | nothing |
| truth value, number, text | the attribute of that key; the last one stays |
| object | a child tagged by the key |
| array | one child per item, tagged by the key; the items are objects or segments |

Since the order of segments is document order, repeated and interleaved tags can
be written in full.  `toJson` writes one object: the attributes in key order,
then the tags in order of first appearance.  A tag that occurs once is written
as an object, in the place of an attribute of the same name; one that occurs
more often as an array, unless an attribute has that name.
-/

import Muster.Config.Basic
import Muster.Json.Reader

namespace Muster

/-- Why a document is no config. -/
inductive ConfigError where
  | notAnObject (kind : String)
  | unsupportedValue (key kind : String)
  | unreadable (fault : Json.ReadError)
deriving DecidableEq

namespace ConfigError

/-- The wording; a text that is not read has one only for a repeated key. -/
def message? : ConfigError → Option String
  | notAnObject kind => some ("config must be a JSON object or an array of objects, found " ++ kind)
  | unsupportedValue key kind => some ("unsupported value for key `" ++ key ++ "`: " ++ kind)
  | unreadable (.repeatedKey key) =>
    some ("malformed JSON: duplicate key `" ++ key ++ "`; use an array of objects to repeat a tag")
  | unreadable _ => none

end ConfigError

namespace Scalar

/-- The scalar that a JSON value stands for.  An integer beyond 64 bits is kept as
a floating-point number. -/
def ofJson? : Json → Option Scalar
  | .bool b => some (.bool b)
  | .int n => some (if Text.Numerals.int64.admits n then .int (Int64.ofInt n) else .real (.ofInt n))
  | .real r => some (.real r)
  | .str s => some (.str s)
  | _ => none

/-- The JSON value of a scalar; no number stands for an infinity or for what is
not a number. -/
def toJson : Scalar → Json
  | bool b => .bool b
  | int n => .int n.toInt
  | real r => if r.isFinite then .real r else .null
  | str s => .str s

end Scalar

namespace Config

/-- The attributes that the members of an object set, in document order. -/
def scalarMembers (ms : List (String × Json)) : List (String × Scalar) :=
  ms.filterMap fun m => (Scalar.ofJson? m.2).map fun a => (m.1, a)

/-- The members of the segments of a document, in document order. -/
def segmentMembers (segments : List Json) : List (String × Json) :=
  segments.flatMap fun
    | .obj ms => ms
    | _ => []

mutual

/-- Read a config. -/
def ofJson : Json → Except ConfigError Config
  | .obj ms => do return node (Table.ofList (scalarMembers ms)) (← memberChildren ms)
  | .arr segments => do
    return node (Table.ofList (scalarMembers (segmentMembers segments))) (← segmentChildren segments)
  | v => .error (.notAnObject v.kind)

/-- Read the children that the segments of a document give. -/
def segmentChildren : List Json → Except ConfigError (List (String × Config))
  | [] => .ok []
  | .obj ms :: segments => do return (← memberChildren ms) ++ (← segmentChildren segments)
  | v :: _ => .error (.notAnObject v.kind)

/-- Read the children that the members of an object give. -/
def memberChildren : List (String × Json) → Except ConfigError (List (String × Config))
  | [] => .ok []
  | (key, .obj inner) :: ms => do
    let child ← ofJson (.obj inner)
    return (key, child) :: (← memberChildren ms)
  | (key, .arr vs) :: ms => do return (← itemChildren key vs) ++ (← memberChildren ms)
  | _ :: ms => memberChildren ms

/-- Read the children that the items of an array give. -/
def itemChildren (key : String) : List Json → Except ConfigError (List (String × Config))
  | [] => .ok []
  | .obj ms :: vs => do
    let child ← ofJson (.obj ms)
    return (key, child) :: (← itemChildren key vs)
  | .arr segments :: vs => do
    let child ← ofJson (.arr segments)
    return (key, child) :: (← itemChildren key vs)
  | v :: _ => .error (.unsupportedValue key v.kind)

end

/-- Read a config from JSON text. -/
def ofText (s : String) : Except ConfigError Config :=
  match Json.read s with
  | .ok v => ofJson v
  | .error fault => .error (.unreadable fault)

/-- The values under a name, in order. -/
def valuesAt {α : Type} (name : String) (es : List (String × α)) : List α :=
  es.filterMap fun e => if e.1 = name then some e.2 else none

/-- The member in the place of an attribute: an only child of its name, or else the attribute. -/
def attributeMember (children : List (String × Json)) (e : String × Scalar) : String × Json :=
  match valuesAt e.1 children with
  | [only] => (e.1, only)
  | _ => (e.1, e.2.toJson)

/-- The member that holds the children of a tag. -/
def tagMember (children : List (String × Json)) (tag : String) : String × Json :=
  match valuesAt tag children with
  | [only] => (tag, only)
  | vs => (tag, .arr vs)

/-- The members that stand for attributes and children: an attribute gives way to
an only child of its name and hides several. -/
def layMembers (attributes : List (String × Scalar)) (children : List (String × Json)) :
    List (String × Json) :=
  let tags := (children.map Prod.fst).eraseDups.filter fun t => (attributes.lookup t).isNone
  attributes.map (attributeMember children) ++ tags.map (tagMember children)

mutual

/-- Write a config. -/
def toJson : Config → Json
  | node as cs => .obj (layMembers as.entries (childrenToJson cs))

/-- Write the children of a config, each under its tag. -/
def childrenToJson : List (String × Config) → List (String × Json)
  | [] => []
  | (tag, c) :: cs => (tag, c.toJson) :: childrenToJson cs

end

end Config
end Muster
