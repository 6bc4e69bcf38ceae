import HomeHub.Number.Shortest

/-!
# JSON numbers

A number is an integer of 64 bits (signed or unsigned) or a binary64 number. A `Numeral` is the
text of a number taken apart; `Numeral.value?` says which number it denotes. A numeral without
fraction and exponent denotes an integer where one fits. Otherwise its leading digits are gathered
into a 64-bit significand, which is scaled by powers of ten in binary64 arithmetic.
-/

namespace HomeHub.Json

/-- An integer or a binary64 number. -/
inductive Number where
  | int (n : Int)
  | float (x : Float)
  deriving DecidableEq, Inhabited

/-- The greatest signed 64-bit integer. -/
def maxInt : Int := 0x7FFFFFFFFFFFFFFF

/-- The least signed 64-bit integer. -/
def minInt : Int := -0x8000000000000000

/-- The greatest unsigned 64-bit integer. -/
def maxNat : Nat := 0xFFFFFFFFFFFFFFFF

namespace Number

/-- As a signed 64-bit integer. -/
def toInt? : Number → Option Int
  | .int n => if minInt ≤ n ∧ n ≤ maxInt then some n else none
  | .float _ => none

/-- As an unsigned 64-bit integer. -/
def toNat? : Number → Option Nat
  | .int n => if 0 ≤ n then some n.toNat else none
  | .float _ => none

/-- The nearest binary64 number. -/
def toFloat : Number → Float
  | .int n => Float.ofInt n
  | .float x => x

/-! ### Writing -/

/-- Digits with a decimal point before position `point`, zeros filled in on either side. -/
def positional (ds : List Char) (point : Int) : List Char :=
  if point ≤ 0 then
    '0' :: '.' :: (List.replicate (-point).toNat '0' ++ ds)
  else
    let n := point.toNat
    if ds.length ≤ n then ds ++ List.replicate (n - ds.length) '0' ++ ['.', '0']
    else ds.take n ++ '.' :: ds.drop n

/-- An exponent with its sign, which is never left out. -/
def exponentText (e : Int) : List Char :=
  'e' :: (if e < 0 then '-' else '+') :: Nat.toDigits 10 e.natAbs

/-- One digit before the point, the rest after it, and an exponent. -/
def scientific (ds : List Char) (point : Int) : List Char :=
  let mantissa := match ds with
    | [] => []
    | [d] => [d]
    | d :: r => d :: '.' :: r
  mantissa ++ exponentText (point - 1)

/-- The shortest digits that read back: positional while the point stands at most four zeros
before or sixteen places behind the first digit, with `.0` after an integer. -/
def floatText (x : Float) : String :=
  match Binary64.value x with
  | .nan => "NaN"
  | .infinite negative => if negative then "-inf" else "inf"
  | .finite negative m e =>
    let (d, k) := Shortest.digits m e
    let ds := Nat.toDigits 10 d
    let point := Int.ofNat ds.length + k
    let body :=
      if m = 0 then ['0', '.', '0']
      else if -5 < point ∧ point ≤ 16 then positional ds point
      else scientific ds point
    String.ofList (if negative then '-' :: body else body)

def text : Number → String
  | .int n => toString n
  | .float x => floatText x

end Number

/-! ### Reading -/

/-- The text of a number: digits as values, the exponent with its sign. -/
structure Numeral where
  negative : Bool
  whole : List Nat
  fraction : Option (List Nat)
  exponent : Option (Bool × List Nat)
  deriving DecidableEq, Repr

namespace Numeral

/-- Appends digits to a significand as long as it stays within `limit`; the rest is left over. -/
def gather (limit : Nat) : Nat → List Nat → Nat × List Nat
  | s, [] => (s, [])
  | s, d :: r => if s * 10 + d ≤ limit then gather limit (s * 10 + d) r else (s, d :: r)

def powerOfTen (n : Nat) : Float := Float.ofScientific 1 false n

/-- `x · 10 ^ e` in steps of at most `10 ^ 308`; none if it exceeds all finite numbers. -/
def scale (x : Float) (e : Int) : Option Float :=
  if e.natAbs ≤ 308 then
    if 0 ≤ e then
      let y := x * powerOfTen e.natAbs
      if Binary64.isFinite y then some y else none
    else some (x / powerOfTen e.natAbs)
  else if x == 0.0 then some x
  else if 0 ≤ e then none
  else scale (x / powerOfTen 308) (e + 308)
termination_by e.natAbs
decreasing_by omega

/-- The greatest exponent that is added up; a larger one overflows or gives zero. -/
def exponentLimit : Nat := 0x7FFFFFFF

def signed (negative : Bool) (x : Float) : Float := if negative then -x else x

/-- `± significand · 10 ^ e` with a written exponent added to `e`. -/
def scaled (n : Numeral) (significand : Nat) (e : Int) : Option Float :=
  match n.exponent with
  | none => (scale (Float.ofNat significand) e).map (signed n.negative)
  | some (down, ds) =>
    match gather exponentLimit 0 ds with
    | (x, []) =>
      let sum : Int := if down then e - x else e + x
      let sum := max (-0x80000000) (min 0x7FFFFFFF sum)
      (scale (Float.ofNat significand) sum).map (signed n.negative)
    | _ => if significand ≠ 0 ∧ !down then none else some (signed n.negative 0.0)

/-- The number denoted, none if it is out of range. Digits of the whole part that no longer fit
the significand count as zeros, those of the fraction are dropped. -/
def value? (n : Numeral) : Option Number :=
  let (s, left) := gather maxNat 0 n.whole
  match left, n.fraction, n.exponent with
  | [], none, none =>
    if !n.negative then some (.int s)
    else if s = 0 ∨ 0x8000000000000000 < s then some (.float (-(Float.ofNat s)))
    else some (.int (-s))
  | _, _, _ =>
    let ds := n.fraction.getD []
    let (s, dropped) := gather maxNat s ds
    let e := Int.ofNat left.length - Int.ofNat (ds.length - dropped.length)
    (n.scaled s e).map .float

end Numeral

end HomeHub.Json
