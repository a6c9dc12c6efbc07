/-
# Stored variables

The variables of a scenario are a config, addressed by paths such as
`party.members[2].id`: words of ASCII letters, digits and underscores between
dots, each with an optional position in brackets.  A position picks one of the
children of that tag, the first where none is given.

A path is looked up as an array, the list of the children that its last step
names, or as a scalar, the attribute that it names.
-/

import Muster.Config.Basic
import Muster.Text.Numeral
import Muster.Text.Blank

namespace Muster

/-- Why a variable is not found; each names the path. -/
inductive VariableError where
  | invalidName (path : String)
  | notFound (path : String)
  | notAContainer (path : String)
deriving DecidableEq

namespace VariableError

/-- The wording. -/
def message : VariableError → String
  | invalidName path => "invalid variable name `" ++ path ++ "`"
  | notFound path => "variable `" ++ path ++ "` not found"
  | notAContainer path => "variable `" ++ path ++ "` is a scalar, not a container"

end VariableError

/-- One step of a path. -/
structure PathStep where
  name : String
  position : Option Nat
deriving DecidableEq

namespace PathStep

/-- Whether a character may stand in a name. -/
def isNameChar (c : Char) : Bool := c.isAlphanum || c == '_'

/-- The position written behind an opening bracket. -/
def position? (cs : List Char) : Option Nat :=
  if cs.getLast? = some ']' then (Text.Numerals.index.read? cs.dropLast).map Int.toNat else none

/-- Read one step. -/
def read? (cs : List Char) : Option PathStep :=
  let name := cs.takeWhile (· ≠ '[')
  if name.isEmpty || !name.all isNameChar then none
  else
    match cs.dropWhile (· ≠ '[') with
    | [] => some ⟨String.ofList name, none⟩
    | _ :: bracket => (position? bracket).map fun n => ⟨String.ofList name, some n⟩

end PathStep

/-- A path of at least one step: those to the container, and the last. -/
structure Path where
  container : List PathStep
  last : PathStep

namespace Path

/-- The path of a list of steps. -/
def ofSteps? : List PathStep → Option Path
  | [] => none
  | [last] => some ⟨[], last⟩
  | step :: steps => (ofSteps? steps).map fun p => { p with container := step :: p.container }

/-- Read a path. -/
def read? (path : String) : Option Path :=
  ((path.toList.splitOn '.').mapM PathStep.read?).bind ofSteps?

end Path

/-- The variable store. -/
structure Variables where
  root : Config

namespace Variables

/-- The store with more children under a name. -/
def withArray (v : Variables) (name : String) (items : List Config) : Variables :=
  ⟨items.foldl (fun c item => c.addChild name item) v.root⟩

/-- The store with a value under a name. -/
def withScalar (v : Variables) (name : String) (value : Value) : Variables := ⟨v.root.set name value⟩

/-- The child that a step leads to. -/
def child? (node : Config) (step : PathStep) : Option Config :=
  (node.childrenAt step.name)[step.position.getD 0]?

/-- The node that the given steps lead to. -/
def descend? (node : Config) (steps : List PathStep) : Option Config := steps.foldlM child? node

/-- The children that a last step names. -/
def arrayAt (node : Config) (step : PathStep) : List Config :=
  match step.position with
  | some _ => (child? node step).toList
  | none => node.childrenAt step.name

/-- The scalar that a last step names. -/
def scalarAt? (node : Config) (step : PathStep) : Option Scalar :=
  match step.position with
  | some _ => none
  | none => node.get step.name

/-- Read a path and find its container. -/
def locate (v : Variables) (path : String) : Except VariableError (Config × PathStep) :=
  match Path.read? path with
  | none => .error (.invalidName path)
  | some p =>
    match descend? v.root p.container with
    | none => .error (.notFound path)
    | some node => .ok (node, p.last)

/-- Look a path up as an array, which has at least one item. -/
def array (v : Variables) (path : String) : Except VariableError (List Config) := do
  let (node, step) ← v.locate path
  let items := arrayAt node step
  if !items.isEmpty then return items
  else if (scalarAt? node step).isSome then throw (.notAContainer path)
  else throw (.notFound path)

/-- Look a path up as a scalar. -/
def scalar (v : Variables) (path : String) : Except VariableError Scalar := do
  let (node, step) ← v.locate path
  match scalarAt? node step with
  | some a => return a
  | none => throw (.notFound path)

end Variables
end Muster
