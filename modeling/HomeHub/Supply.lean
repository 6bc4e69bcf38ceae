import HomeHub.Timestamp
import HomeHub.Uuid

/-!
# Fresh identifiers and the clock

New records need an identifier that nothing else has and the current time. Both come from a
`Supply`: identifiers are numbered, and the clock is moved on from outside.
-/

namespace HomeHub

/-- The n-th generated identifier, of the form of a version 4 one. -/
def Uuid.generated (n : Nat) : Uuid := ⟨BitVec.ofNat 128 (0x9f6b1c3e52d74a08b1e4000000000000 + n)⟩

/-- How many identifiers were drawn, and the time. -/
structure Supply where
  drawn : Nat
  now : Timestamp
  deriving DecidableEq, Inhabited

/-- The next identifier. -/
def Supply.draw (s : Supply) : Uuid × Supply := (.generated s.drawn, { s with drawn := s.drawn + 1 })

/-- The clock a moment later. -/
def Supply.tick (s : Supply) : Supply := { s with now := { s.now with nanos := s.now.nanos + 1 } }

end HomeHub
