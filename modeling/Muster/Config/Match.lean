/-
# Matching a config against a pattern

A pattern is a config too.  A config matches it when it has every attribute of
the pattern, with a value of the same printed form, and

* for every child of the pattern tagged `not`, does not itself match that child;
* for every other child of the pattern, has a child of the same tag that matches it.

What the pattern does not mention is free.
-/

import Muster.Config.Basic

namespace Muster
namespace Config

/-- Whether a config has an attribute whose value prints like the given scalar. -/
def showsAttribute (c : Config) (key : String) (expected : Scalar) : Bool :=
  (c.get key).any (·.agrees expected)

mutual

/-- Whether a config matches a pattern. -/
def matchesPattern (c : Config) : Config → Bool
  | node as cs => as.entries.all (fun e => c.showsAttribute e.1 e.2) && matchesChildren c cs

/-- Whether a config satisfies every child of a pattern. -/
def matchesChildren (c : Config) : List (String × Config) → Bool
  | [] => true
  | (tag, p) :: ps =>
    (if tag = "not" then !matchesPattern c p
      else (c.childrenAt tag).any fun d => matchesPattern d p) && matchesChildren c ps

end

end Config
end Muster
