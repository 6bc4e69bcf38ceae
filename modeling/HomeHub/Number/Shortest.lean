import HomeHub.Number.Binary64
import HomeHub.Number.Decimal

/-!
# Shortest decimal digits

`digits` finds the decimal `d · 10 ^ k` with the fewest digits that reads back as a given binary64
number, and of those the one nearest to it (of two equally near ones the even one). All comparisons
are made in exact integer arithmetic on the interval of reals that round to the number.
-/

namespace HomeHub.Shortest

/-- The reals that round to a positive number, all in units of one common power of two and one
common power of ten: `below / unit` up to `above / unit` around `centre / unit`. -/
structure Interval where
  below : Nat
  centre : Nat
  above : Nat
  unit : Nat
  /-- Whether the two ends round to the number as well. -/
  closed : Bool

/-- The interval around `significand · 2 ^ exponent`, the halves of the gaps on both sides; the
gap below a power of two is half as wide. -/
def interval (significand : Nat) (exponent : Int) : Interval :=
  let narrow := significand = Binary64.leadingBit && exponent ≠ -1074
  let scale := 1 <<< (exponent - 2).toNat
  { below := (4 * significand - if narrow then 1 else 2) * scale
    centre := 4 * significand * scale
    above := (4 * significand + 2) * scale
    unit := 1 <<< (2 - exponent).toNat
    closed := significand % 2 = 0 }

/-- Whether the decimal `d · 10 ^ k` lies in the interval. -/
def Interval.holds (i : Interval) (d : Nat) (k : Int) : Bool :=
  let x := d * Decimal.tenTo k.toNat * i.unit
  let y := Decimal.tenTo (-k).toNat
  if i.closed then i.below * y ≤ x && x ≤ i.above * y else i.below * y < x && x < i.above * y

/-- The multiple of `10 ^ k` at or below the centre. -/
def Interval.gridBelow (i : Interval) (k : Int) : Nat :=
  i.centre * Decimal.tenTo (-k).toNat / (Decimal.tenTo k.toNat * i.unit)

/-- Of the two multiples of `10 ^ k` around the centre, the nearer of those in the interval. -/
def Interval.nearest? (i : Interval) (k : Int) : Option Nat :=
  let d := i.gridBelow k
  let twice := 2 * i.centre * Decimal.tenTo (-k).toNat
  let middle := (2 * d + 1) * Decimal.tenTo k.toNat * i.unit
  let upper := middle < twice || (middle = twice && d % 2 = 1)
  match i.holds d k, i.holds (d + 1) k with
  | true, true => some (if upper then d + 1 else d)
  | true, false => some d
  | false, true => some (d + 1)
  | false, false => none

/-- Tries `10 ^ k`, then finer grids. -/
def search (i : Interval) (k : Int) : Nat → Nat × Int
  | 0 => (i.gridBelow k, k)
  | fuel + 1 =>
    match i.nearest? k with
    | some d => (d, k)
    | none => search i (k - 1) fuel

/-- Moves trailing zeros of the digits into the exponent. -/
def strip (d : Nat) (k : Int) : Nat → Nat × Int
  | 0 => (d, k)
  | fuel + 1 => if d % 10 = 0 && d ≠ 0 then strip (d / 10) (k + 1) fuel else (d, k)

/-- Digits `d` and exponent `k` of the shortest decimal `d · 10 ^ k` for
`significand · 2 ^ exponent`, without trailing zeros in `d`. The first grid lies above the
number's leading digit, the last one has seventeen digits. -/
def digits (significand : Nat) (exponent : Int) : Nat × Int :=
  if significand = 0 then (0, 0) else
  let i := interval significand exponent
  let top := (Int.ofNat (Nat.log2 significand) + exponent) * 30103 / 100000 + 1
  let (d, k) := search i top 20
  strip d k 20

end HomeHub.Shortest
