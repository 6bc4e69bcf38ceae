/-!
# Varints

A number is written in groups of seven bits, lowest first, every byte but the last with its high
bit set. Reading takes at most ten bytes and keeps 64 bits of what they say. There are two readers:
`decode?` looks at a whole piece of bytes, `read` takes them from a stream one by one.
-/

namespace HomeHub.NativeApi.Varint

def encode (n : Nat) : List UInt8 :=
  if n < 128 then [n.toUInt8] else (n % 128 + 128).toUInt8 :: encode (n / 128)
termination_by n
decreasing_by omega

/-- The most bytes of one number. -/
def maxBytes : Nat := 10

/-- Numbers are kept below this. -/
def modulus : Nat := 0x10000000000000000

/-- The seven bits of a byte. -/
def group (b : UInt8) : Nat := b.toNat % 128

/-- Whether more bytes follow this one. -/
def continues (b : UInt8) : Bool := 128 ≤ b.toNat

/-- The number that the next few bytes hold, before it is cut to 64 bits, and how many bytes it
takes. -/
def scan? : Nat → List UInt8 → Option (Nat × Nat)
  | 0, _ => none
  | _, [] => none
  | limit + 1, b :: r =>
    if continues b then (scan? limit r).map fun (n, used) => (group b + 128 * n, used + 1)
    else some (group b, 1)

/-- The number at the start of the bytes, and how many bytes it takes. -/
def decode? (bytes : List UInt8) : Option (Nat × Nat) :=
  (scan? maxBytes bytes).map fun (n, used) => (n % modulus, used)

/-- Why a stream gives no number. -/
inductive StreamFault where
  /-- It ends. -/
  | ended
  /-- The number has too many bytes. -/
  | tooLong
  deriving DecidableEq, Repr

/-- Takes bytes while they continue a number whose groups so far are `value`. -/
def readFrom : Nat → Nat → Nat → List UInt8 → Except StreamFault (Nat × List UInt8)
  | 0, _, _, _ => .error .tooLong
  | _, _, _, [] => .error .ended
  | limit + 1, shift, value, b :: r =>
    let value := (value + group b <<< shift) % modulus
    if continues b then readFrom limit (shift + 7) value r else .ok (value, r)

/-- The number at the start of a stream, and the rest of the stream. -/
def read (bytes : List UInt8) : Except StreamFault (Nat × List UInt8) := readFrom maxBytes 0 0 bytes

end HomeHub.NativeApi.Varint
