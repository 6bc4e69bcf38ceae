import HomeHub.Connection
import HomeHub.Text.Quoted

/-!
# Submitted forms

The input of a form is an object with the form's fields, or an array of them in order. `Fault` says
what is wrong with an input; the first fault in the order of the input is reported, missing fields
last.
-/

namespace HomeHub.Flow

/-- What is wrong with a submitted value. -/
inductive Fault where
  | missingField (name : String)
  | wrongType (value : Json) (expected : String)
  | outOfRange (n : Int) (expected : String)
  /-- An array that ends before the first required field. -/
  | tooShort (expected : String)
  /-- An array with more items than the form has fields. -/
  | tooLong (length : Nat)

namespace Fault

/-- A value as an error message names it. -/
def describe : Json → String
  | .null => "null"
  | .bool b => "boolean `" ++ (if b then "true" else "false") ++ "`"
  | .num (.int n) => "integer `" ++ toString n ++ "`"
  | .num (.float x) => "floating point `" ++ Json.Number.floatText x ++ "`"
  | .str s => "string " ++ quoted s
  | .arr _ => "sequence"
  | .obj _ => "map"

def message : Fault → String
  | .missingField name => "missing field `" ++ name ++ "`"
  | .wrongType value expected => "invalid type: " ++ describe value ++ ", expected " ++ expected
  | .outOfRange n expected =>
    "invalid value: integer `" ++ toString n ++ "`, expected " ++ expected
  | .tooShort expected => "invalid length 0, expected " ++ expected
  | .tooLong length =>
    "invalid length " ++ toString length ++ ", expected fewer elements in array"

end Fault

def textInput : Json → Except Fault String
  | .str s => .ok s
  | j => .error (.wrongType j "a string")

def portInput : Json → Except Fault UInt16
  | .num (.int n) =>
    if 0 ≤ n ∧ n ≤ 65535 then .ok (UInt16.ofNat n.toNat) else .error (.outOfRange n "u16")
  | j => .error (.wrongType j "u16")

/-- The submitted user form. -/
structure UserInput where
  host : String
  port : UInt16 := defaultPort
  deriving DecidableEq, Repr, Inhabited

namespace UserInput

/-- Takes over the members of an object one after the other. -/
def walk : List (String × Json) → Option String → Option UInt16 → Except Fault UserInput
  | [], host, port =>
    match host with
    | some host => .ok ⟨host, port.getD defaultPort⟩
    | none => .error (.missingField "host")
  | (key, value) :: r, host, port =>
    if key = "host" then do walk r (some (← textInput value)) port
    else if key = "port" then do walk r host (some (← portInput value))
    else walk r host port

def parse : Json → Except Fault UserInput
  | .obj members => walk members none none
  | .arr [] => .error (.tooShort "struct UserInput with 2 elements")
  | .arr [host] => do return ⟨← textInput host, defaultPort⟩
  | .arr (host :: port :: r) => do
    let host ← textInput host
    let port ← portInput port
    if r.isEmpty then return ⟨host, port⟩ else throw (.tooLong (r.length + 2))
  | j => .error (.wrongType j "struct UserInput")

end UserInput

/-- The submitted password form. -/
structure PasswordInput where
  password : String
  deriving DecidableEq, Repr, Inhabited

namespace PasswordInput

def walk : List (String × Json) → Option String → Except Fault PasswordInput
  | [], password =>
    match password with
    | some password => .ok ⟨password⟩
    | none => .error (.missingField "password")
  | (key, value) :: r, password =>
    if key = "password" then do walk r (some (← textInput value)) else walk r password

def parse : Json → Except Fault PasswordInput
  | .obj members => walk members none
  | .arr [] => .error (.tooShort "struct AuthenticateInput with 1 element")
  | .arr (password :: r) => do
    let password ← textInput password
    if r.isEmpty then return ⟨password⟩ else throw (.tooLong (r.length + 1))
  | j => .error (.wrongType j "struct AuthenticateInput")

end PasswordInput

end HomeHub.Flow
