/-!
# Hexadecimal text
-/

namespace HomeHub.Hex

/-- The lower-case digit of a value below sixteen. -/
def digit (n : Nat) : Char := if n < 10 then Char.ofNat (48 + n) else Char.ofNat (87 + n)

/-- The value of a digit in either case. -/
def value? (c : Char) : Option Nat :=
  if '0' ≤ c && c ≤ '9' then some (c.toNat - 48)
  else if 'a' ≤ c && c ≤ 'f' then some (c.toNat - 87)
  else if 'A' ≤ c && c ≤ 'F' then some (c.toNat - 55)
  else none

/-- The last `width` digits of a number, leading zeros included. -/
def fixed : Nat → Nat → List Char
  | 0, _ => []
  | width + 1, n => fixed width (n / 16) ++ [digit (n % 16)]

/-- As many digits as the number needs, at least one. -/
def minimal (n : Nat) : List Char :=
  fixed (Nat.log2 n / 4 + 1) n

/-- The number that a non-empty run of digits stands for. -/
def number? (cs : List Char) : Option Nat :=
  if cs.isEmpty then none else cs.foldlM (fun n c => (value? c).map (n * 16 + ·)) 0

def ofBytes (bytes : List UInt8) : String :=
  String.ofList (bytes.flatMap fun b => fixed 2 b.toNat)

/-- Reads pairs of digits. -/
def toBytes? : List Char → Option (List UInt8)
  | [] => some []
  | [_] => none
  | a :: b :: r => do
    let hi ← value? a
    let lo ← value? b
    let rest ← toBytes? r
    return (hi * 16 + lo).toUInt8 :: rest

end HomeHub.Hex
