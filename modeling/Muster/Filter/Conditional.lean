/-
# Conditionals

A query combines its own verdict with those of its children tagged `and`, `or`
and `not`, from left to right in document order.  Every child is asked, also when
the verdict can no longer change.
-/

namespace Muster

/-- How the verdict of a child joins the verdict so far. -/
inductive Conditional where
  | and
  | or
  | not
deriving DecidableEq

namespace Conditional

/-- The conditional of a tag. -/
def ofTag? : String → Option Conditional
  | "and" => some and
  | "or" => some or
  | "not" => some not
  | _ => none

/-- The verdict so far joined with the verdict of a child. -/
def join : Conditional → Bool → Bool → Bool
  | and, sofar, child => sofar && child
  | or, sofar, child => sofar || child
  | not, sofar, child => sofar && !child

/-- Ask every child in order and join the verdicts, starting from a base. -/
def foldChildren {m : Type → Type} [Monad m] {α : Type} (ask : α → m Bool) :
    Bool → List (Conditional × α) → m Bool
  | sofar, [] => pure sofar
  | sofar, (c, child) :: rest => do
    let verdict ← ask child
    foldChildren ask (c.join sofar verdict) rest

end Conditional
end Muster
