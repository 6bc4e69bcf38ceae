import HomeHub.NativeApi.Failure
import HomeHub.NativeApi.Varint

/-!
# Frames

A frame is a zero byte, the length of the payload, the type of the message and the payload. Frames
are read one after another from a stream of bytes.
-/

namespace HomeHub.NativeApi

structure Frame where
  messageType : UInt32
  payload : List UInt8
  deriving DecidableEq, Repr

namespace Frame

/-- The longest payload that is read. -/
def maxPayload : Nat := 1024 * 1024

def encode (f : Frame) : List UInt8 :=
  0 :: (Varint.encode f.payload.length ++ Varint.encode f.messageType.toNat ++ f.payload)

/-- What reading from a stream that has ended fails with. -/
def ended : Failure := .io "unexpected end of file"

def readVarint (bytes : List UInt8) : Except Failure (Nat × List UInt8) :=
  (Varint.read bytes).mapError fun
    | .ended => ended
    | .tooLong => .malformed .longVarint

/-- Reads one frame and gives the rest of the stream. -/
def read : List UInt8 → Except Failure (Frame × List UInt8)
  | [] => .error ended
  | start :: r => do
    if start ≠ 0 then throw (.preamble start)
    let (length, r) ← readVarint r
    if maxPayload < length then throw (.frameTooLarge length)
    let (messageType, r) ← readVarint r
    if 0x100000000 ≤ messageType then throw (.malformed .messageType)
    if r.length < length then throw ended
    return (⟨UInt32.ofNat messageType, r.take length⟩, r.drop length)

/-- Reads at most this many frames, as far as there are any. -/
def readUpTo : Nat → List UInt8 → List Frame × Option Failure
  | 0, _ => ([], none)
  | _, [] => ([], none)
  | limit + 1, bytes =>
    match read bytes with
    | .error f => ([], some f)
    | .ok (frame, r) =>
      let (frames, failure) := readUpTo limit r
      (frame :: frames, failure)

/-- Reads frames until the stream ends or gives none. A frame has at least one byte. -/
def readAll (bytes : List UInt8) : List Frame × Option Failure := readUpTo bytes.length bytes

end Frame

end HomeHub.NativeApi
