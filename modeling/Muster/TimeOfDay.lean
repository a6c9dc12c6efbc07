/-
# Time of day

A time of day favours lawful troops by its bonus.  Its alignment is the sign of
the bonus: lawful above zero, chaotic below, neutral at zero.
-/

import Muster.Text.Blank

namespace Muster

/-- A time of day and its bonus for lawful troops. -/
structure TimeOfDay where
  id : String
  lawfulBonus : Int
deriving DecidableEq

namespace TimeOfDay

def dawn : TimeOfDay := ⟨"dawn", 0⟩

def morning : TimeOfDay := ⟨"morning", 25⟩

def firstWatch : TimeOfDay := ⟨"first_watch", -25⟩

instance : Inhabited TimeOfDay := ⟨dawn⟩

end TimeOfDay

/-- Whom a time of day favours. -/
inductive Alignment where
  | lawful
  | chaotic
  | neutral
deriving DecidableEq

namespace Alignment

/-- The written name. -/
def name : Alignment → String
  | lawful => "lawful"
  | chaotic => "chaotic"
  | neutral => "neutral"

/-- The alignment of a name. -/
def parse? (s : String) : Option Alignment :=
  [lawful, chaotic, neutral].find? (·.name == Text.trimmed s)

@[simp] theorem parse?_name (a : Alignment) : parse? a.name = some a := by cases a <;> decide

/-- The alignment of a bonus, by its sign. -/
def ofBonus (bonus : Int) : Alignment :=
  if 0 < bonus then lawful else if bonus < 0 then chaotic else neutral

end Alignment
end Muster
