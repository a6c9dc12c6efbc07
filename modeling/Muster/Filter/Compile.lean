/-
# From queries to filters

Compiling walks a query once.  Its children are compiled in document order, and
a child that may occur only once is refused at its second occurrence, before its
own content is looked at.  Since a vision clause asks its side query at once,
compiling takes place in a setting (`compileIn`), and is a run too.

A filter first asks its own tests, those of its fields and clauses, in a fixed
order and up to the first that fails; then it joins the conditionals in document
order.  A query over troops with neither fields nor children is the null filter.
-/

import Muster.Filter.Clause

namespace Muster

/-- Why a query is refused. -/
inductive FilterError where
  | missingContext
  | duplicateLocation
  | duplicateSide
  | duplicateOccupant
deriving DecidableEq

namespace FilterError

/-- The wording for a child that occurs twice. -/
def repeated (tag query : String) : String :=
  "multiple [" ++ tag ++ "] children in one " ++ query ++ " filter; combine them with [and] instead"

/-- The wording. -/
def message : FilterError → String
  | missingContext => "attempt to build a unit filter without a filter context"
  | duplicateLocation => repeated "filter_location" "unit"
  | duplicateSide => repeated "filter_side" "unit"
  | duplicateOccupant => repeated "filter" "location"

end FilterError

namespace Query

/-- The own tests of a filter with the given fields and clauses, in the order in
which they are asked. -/
def ownTests (flat : Bool) (get : String → Value) : (s : Subject) → List (Clause s) → List (Filter s)
  | .troop, cs =>
    (identityTests get).map .troopTest ++ Clause.inSlot .location cs ++ Clause.inSlot .side cs ++
      (traitTests get).map .troopTest ++ Clause.inSlot .pattern cs ++ Clause.inSlot .vision cs ++
      Clause.inSlot .adjacent cs ++ lookupTests get
  | .side, cs =>
    (teamTests get).map .sideTest ++ Clause.lastInSlot .enemyOf cs ++ Clause.lastInSlot .alliedWith cs ++
      Clause.lastInSlot .hasTroop cs
  | .place, cs => (placeTests flat get).map .placeTest ++ Clause.inSlot .occupant cs

/-- What goes around the own tests of a filter. -/
def guardOwn : (s : Subject) → Filter s → Filter s
  | .troop, own => .bound own
  | .side, own => own
  | .place, own => own

/-- What goes around the whole of a filter. -/
def guardWhole : (s : Subject) → Filter s → Filter s
  | .troop, f => f
  | .side, f => .teamed f
  | .place, f => .onMap f

/-- The filter of a query with the given fields and clauses. -/
def assemble (flat : Bool) (get : String → Value) (s : Subject) (cs : List (Clause s)) : Filter s :=
  guardWhole s (Clause.joinConditionals (guardOwn s (.all (ownTests flat get s cs))) cs)

/-- The slot of a part that may occur only once, and the error of a second one. -/
def onceOnly? {s inner : Subject} : Part s inner → Option (Slot × FilterError)
  | .location => some (.location, .duplicateLocation)
  | .side => some (.side, .duplicateSide)
  | .occupant => some (.occupant, .duplicateOccupant)
  | _ => none

/-- Refuse a second part where only one may be; otherwise, the slots seen so far. -/
def checkOnce {s inner : Subject} (seen : List Slot) (p : Part s inner) : Except FilterError (List Slot) :=
  match onceOnly? p with
  | some (slot, error) => if seen.contains slot then .error error else .ok (slot :: seen)
  | none => .ok seen

section

variable {m : Type → Type} [Monad m]

mutual

/-- Compile a query over a subject in any setting; `flat` leaves the local light
out of every test of the time of day. -/
def compileIn (S : Setting m) (flat : Bool) (s : Subject) : Config → ExceptT FilterError m (Filter s)
  | .node as cs => do
    if s = .troop && as.isEmpty && cs.isEmpty then return .pass
    let clauses ← compileChildren S flat s [] cs
    return assemble flat as.get? s clauses

/-- Compile the children of a query; `seen` holds the slots before them that may
not come again. -/
def compileChildren (S : Setting m) (flat : Bool) (s : Subject) (seen : List Slot) :
    List (String × Config) → ExceptT FilterError m (List (Clause s))
  | [] => return []
  | (tag, child) :: rest =>
    match TagMeaning.ofTag s tag with
    | .ignored => compileChildren S flat s seen rest
    | .pattern test => do
      let clauses ← compileChildren S flat s seen rest
      return .own .pattern (test child) :: clauses
    | .part inner p => do
      let seen ← checkOnce seen p
      let f ← compileIn S flat inner child
      let clause ← Clause.ofPart S child.get p f
      let clauses ← compileChildren S flat s seen rest
      return clause :: clauses

end

end

variable {σ : Type}

/-- A run that compiles, or refuses to. -/
abbrev Build (σ : Type) := ExceptT FilterError (Run σ)

/-- Compile a query over a subject. -/
def compile (ctx : Context σ) (flat : Bool) (s : Subject) (query : Config) : Build σ (Filter s) :=
  compileIn ctx.setting flat s query

/-- Compile a query over troops, which needs a context. -/
def build (query : Config) (ctx : Option (Context σ)) (flat : Bool) : Build σ (Filter .troop) :=
  match ctx with
  | some ctx => compile ctx flat .troop query
  | none => throw .missingContext

end Query
end Muster
