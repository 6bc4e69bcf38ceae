import HomeHub.Text.Hex
import HomeHub.Text.Utf8

/-!
# Percent escapes

Inside a web address any byte may be written as a percent sign and two hexadecimal digits. A percent
sign without two digits stands for itself. In form fields a plus sign is a blank besides.
-/

namespace HomeHub.Percent

def digit? (b : UInt8) : Option Nat := Hex.value? (Char.ofNat b.toNat)

/-- The byte that two digits stand for. -/
def byte? (high low : UInt8) : Option UInt8 := do
  return ((← digit? high) * 16 + (← digit? low)).toUInt8

def decode : List UInt8 → List UInt8
  | b :: high :: low :: r =>
    match if b = 37 then byte? high low else none with
    | some x => x :: decode r
    | none => b :: decode (high :: low :: r)
  | b :: r => b :: decode r
  | [] => []

/-- The text behind the escapes, unless its bytes form none. -/
def text? (s : String) : Option String := Utf8.strict? (decode (Utf8.bytes s))

/-- The text of a form field. -/
def field (s : String) : String :=
  Utf8.lossy (decode ((Utf8.bytes s).map fun b => if b = 43 then 32 else b))

end HomeHub.Percent
