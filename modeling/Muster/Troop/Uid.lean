/-
# Serial numbers of troops

Apart from its id, which a scenario chooses and may repeat, every troop has a
serial number of 64 bits.  A supply hands the numbers out one after the other,
from 1 on.
-/

namespace Muster

/-- A serial number. -/
structure Uid where
  number : UInt64
deriving DecidableEq

namespace Uid

/-- The number read as a signed one. -/
def signed (u : Uid) : Int64 := u.number.toInt64

/-- The next number to hand out. -/
structure Supply where
  next : UInt64 := 1

namespace Supply

/-- Hand out one number. -/
def take (s : Supply) : Uid × Supply := (⟨s.next⟩, ⟨s.next + 1⟩)

/-- Hand out several numbers, in order. -/
def takeMany : Nat → Supply → List Uid × Supply
  | 0, s => ([], s)
  | n + 1, s =>
    let (u, s) := s.take
    let (us, s) := takeMany n s
    (u :: us, s)

end Supply
end Uid
end Muster
