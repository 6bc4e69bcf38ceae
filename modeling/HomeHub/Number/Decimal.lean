/-!
# Decimal integers in texts
-/

namespace HomeHub.Decimal

/-- Ten to the n-th. -/
def tenTo (n : Nat) : Nat := Nat.pow 10 n

def digit? (c : Char) : Option Nat := if '0' ≤ c && c ≤ '9' then some (c.toNat - 48) else none

/-- The number of a non-empty run of digits. -/
def digits? (cs : List Char) : Option Nat :=
  if cs.isEmpty then none else cs.foldlM (fun n c => (digit? c).map (n * 10 + ·)) 0

/-- A number from zero up to a limit: digits, after a plus sign if there is one, and nothing
else. Leading zeros do no harm. -/
def natUpTo? (limit : Nat) (s : String) : Option Nat :=
  let n := match s.toList with
    | '+' :: r => digits? r
    | cs => digits? cs
  n.filter (· ≤ limit)

end HomeHub.Decimal
