/-!
# The exact value of a binary64 number

`value` reads a number's bits as `± significand · 2 ^ exponent`. Rounding to an integer is done on
that form, in exact arithmetic, so the bounds of a rounded result are facts about natural numbers.
-/

namespace HomeHub.Binary64

/-- What the bits of a binary64 number stand for. -/
inductive Value where
  | nan
  | infinite (negative : Bool)
  /-- `± significand · 2 ^ exponent`. -/
  | finite (negative : Bool) (significand : Nat) (exponent : Int)
  deriving DecidableEq, Repr

/-- The bit in front of the fraction of a normal number. -/
def leadingBit : Nat := 1 <<< 52

/-- The bit that marks a negative number. -/
def signBit : Nat := 1 <<< 63

def value (x : Float) : Value :=
  let bits := x.toBits.toNat
  let negative := signBit ≤ bits
  let biased := bits / leadingBit % 2048
  let fraction := bits % leadingBit
  if biased = 2047 then
    if fraction = 0 then .infinite negative else .nan
  else if biased = 0 then .finite negative fraction (-1074)
  else .finite negative (leadingBit + fraction) (Int.ofNat biased - 1075)

/-- `significand · 2 ^ exponent` without its fractional part. -/
def floor (significand : Nat) : Int → Nat
  | .ofNat e => significand <<< e
  | .negSucc e => significand >>> (e + 1)

/-- `significand · 2 ^ exponent` to the nearest integer, a half to the even neighbour. -/
def nearestEven (significand : Nat) : Int → Nat
  | .ofNat e => significand <<< e
  | .negSucc e =>
    let unit := 1 <<< (e + 1)
    let q := significand / unit
    let r := significand % unit
    if 2 * r < unit || (2 * r = unit && q % 2 = 0) then q else q + 1

/-- Applies a rounding of magnitudes and limits the result to `low … high`; a number that is no
number counts as zero. -/
def toIntWithin (round : Nat → Int → Nat) (low high : Int) (x : Float) : Int :=
  match value x with
  | .nan => max low (min high 0)
  | .infinite negative => if negative then low else max low high
  | .finite negative m e =>
    max low (min high (if negative then -(round m e : Int) else (round m e : Int)))

/-- Drops the fraction and limits the result. -/
def truncateWithin (low high : Int) (x : Float) : Int := toIntWithin floor low high x

/-- Rounds to the nearest integer, halves to even, and limits the result. -/
def roundWithin (low high : Int) (x : Float) : Int := toIntWithin nearestEven low high x

/-- Neither infinite nor a failed computation. -/
def isFinite (x : Float) : Bool :=
  match value x with
  | .finite .. => true
  | _ => false

end HomeHub.Binary64
