import HomeHub.Number.Binary64
import HomeHub.Number.Decimal

/-!
# The nearest binary64 number

`ofRatio` rounds a quotient of natural numbers to the nearest binary64 number, ties to even, in
exact arithmetic. `Decimal.float?` reads decimal text with it.
-/

namespace HomeHub.Binary64

/-- The greatest `e` with `2 ^ e ≤ num / den`, both not zero. -/
def exponentOf (num den : Nat) : Int :=
  let e : Int := Nat.log2 num - Nat.log2 den
  if den <<< e.toNat ≤ num <<< (-e).toNat then e else e - 1

/-- A quotient to the nearest integer, a half to the even neighbour. -/
def nearestQuotient (num den : Nat) : Nat :=
  let q := num / den
  let r := num % den
  if 2 * r < den || (2 * r = den && q % 2 = 0) then q else q + 1

/-- The bits of infinity. -/
def infinityBits : Nat := 2047 * leadingBit

/-- The bits of the number nearest to `num / den`. -/
def bitsOfRatio (num den : Nat) : Nat :=
  if num = 0 then 0 else
    let q : Int := max (exponentOf num den - 52) (-1074)
    let significand := nearestQuotient (num <<< (-q).toNat) (den <<< q.toNat)
    min infinityBits ((q + 1074).toNat * leadingBit + significand)

/-- The number of these bits, or minus that. -/
def ofBits (negative : Bool) (bits : Nat) : Float :=
  Float.ofBits (UInt64.ofNat ((if negative then signBit else 0) + bits))

def infinity (negative : Bool) : Float := ofBits negative infinityBits

/-- The number nearest to `num / den`, or minus that. -/
def ofRatio (negative : Bool) (num den : Nat) : Float :=
  ofBits negative (bitsOfRatio num den)

end HomeHub.Binary64

namespace HomeHub.Decimal

/-- The text up to a sign, and whether the sign is a minus. -/
def splitSign (cs : List Char) : Bool × List Char :=
  match cs with
  | '-' :: r => (true, r)
  | '+' :: r => (false, r)
  | cs => (false, cs)

/-- The number nearest to `digits · 10 ^ exponent`. Beyond 400 places it is zero or infinite. -/
def scaled (negative : Bool) (digits : Nat) (exponent : Int) : Float :=
  let places : Int := (Nat.toDigits 10 digits).length + exponent
  if digits = 0 || places < -400 then Binary64.ofRatio negative 0 1
  else if 400 < places then Binary64.infinity negative
  else Binary64.ofRatio negative (digits * tenTo exponent.toNat) (tenTo (-exponent).toNat)

/-- An exponent, which may be left out. -/
def exponent? (cs : List Char) : Option Int :=
  match cs with
  | [] => some 0
  | c :: r =>
    if c = 'e' || c = 'E' then
      let (down, r) := splitSign r
      (digits? r).map fun n => if down then -(n : Int) else n
    else none

/-- Digits with at most one point among them, at least one digit, and an exponent. -/
def finite? (negative : Bool) (cs : List Char) : Option Float := do
  let isDigit (c : Char) : Bool := (digit? c).isSome
  let whole := cs.takeWhile isDigit
  let rest := cs.dropWhile isDigit
  let (fraction, rest) := match rest with
    | '.' :: r => (r.takeWhile isDigit, r.dropWhile isDigit)
    | r => ([], r)
  let digits ← digits? (whole ++ fraction)
  let exponent ← exponent? rest
  return scaled negative digits (exponent - fraction.length)

/-- A decimal number with an optional sign, or the name of infinity or of no number in letters of
either case. -/
def float? (s : String) : Option Float :=
  let (negative, cs) := splitSign s.toList
  let name := String.ofList (cs.map Char.toLower)
  if name = "inf" || name = "infinity" then some (Binary64.infinity negative)
  else if name = "nan" then some (0.0 / 0.0)
  else finite? negative cs

end HomeHub.Decimal
