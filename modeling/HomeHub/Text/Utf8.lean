/-!
# UTF-8

`encode` writes characters as bytes. `decode` reads any bytes: what forms no character becomes one
`stray` for each maximal piece of a character that breaks off, so a reader may refuse strays
(`strict?`), replace them (`lossy`) or skip them unread.
-/

namespace HomeHub.Utf8

/-- A character, or bytes that form none. -/
inductive Glyph where
  | char (c : Char)
  | stray
  deriving DecidableEq, Repr

/-- The bytes of one character. -/
def encodeChar (c : Char) : List UInt8 :=
  let n := c.toNat
  if n < 0x80 then [n.toUInt8]
  else if n < 0x800 then [(0xC0 + n / 64).toUInt8, (0x80 + n % 64).toUInt8]
  else if n < 0x10000 then
    [(0xE0 + n / 4096).toUInt8, (0x80 + n / 64 % 64).toUInt8, (0x80 + n % 64).toUInt8]
  else
    [(0xF0 + n / 262144).toUInt8, (0x80 + n / 4096 % 64).toUInt8, (0x80 + n / 64 % 64).toUInt8,
      (0x80 + n % 64).toUInt8]

def encode (cs : List Char) : List UInt8 := cs.flatMap encodeChar

/-- What a first byte announces: the number of bytes that follow and the range of the first of
them, which rules out overlong forms, surrogates and code points beyond the last. -/
def following? (b : Nat) : Option (Nat × Nat × Nat) :=
  if b < 0xC2 then none
  else if b < 0xE0 then some (1, 0x80, 0xBF)
  else if b = 0xE0 then some (2, 0xA0, 0xBF)
  else if b = 0xED then some (2, 0x80, 0x9F)
  else if b < 0xF0 then some (2, 0x80, 0xBF)
  else if b = 0xF0 then some (3, 0x90, 0xBF)
  else if b < 0xF4 then some (3, 0x80, 0xBF)
  else if b = 0xF4 then some (3, 0x80, 0x8F)
  else none

/-- Whether a byte continues a character. -/
def continues (b : UInt8) : Bool := 0x80 ≤ b.toNat && b.toNat ≤ 0xBF

def tail (b : UInt8) : Nat := b.toNat % 64

def decode : List UInt8 → List Glyph
  | [] => []
  | b :: r =>
    if b.toNat < 0x80 then .char (Char.ofNat b.toNat) :: decode r else
    match following? b.toNat with
    | none => .stray :: decode r
    | some (count, low, high) =>
      match r with
      | [] => [.stray]
      | c :: r1 =>
        if c.toNat < low || high < c.toNat then .stray :: decode (c :: r1) else
        if count = 1 then .char (Char.ofNat (b.toNat % 32 * 64 + tail c)) :: decode r1 else
        match r1 with
        | [] => [.stray]
        | d :: r2 =>
          if !continues d then .stray :: decode (d :: r2) else
          if count = 2 then
            .char (Char.ofNat (b.toNat % 16 * 4096 + tail c * 64 + tail d)) :: decode r2 else
          match r2 with
          | [] => [.stray]
          | e :: r3 =>
            if !continues e then .stray :: decode (e :: r3) else
            .char (Char.ofNat (b.toNat % 8 * 262144 + tail c * 4096 + tail d * 64 + tail e))
              :: decode r3

def Glyph.char? : Glyph → Option Char
  | .char c => some c
  | .stray => none

/-- The text, if all bytes form characters. -/
def strict? (bytes : List UInt8) : Option String :=
  ((decode bytes).mapM Glyph.char?).map String.ofList

/-- The text, with a replacement character for each stray. -/
def lossy (bytes : List UInt8) : String :=
  String.ofList ((decode bytes).map fun g => g.char?.getD '\ufffd')

/-- A text whose bytes are its own. -/
def glyphs (s : String) : List Glyph := s.toList.map .char

def bytes (s : String) : List UInt8 := encode s.toList

end HomeHub.Utf8
