import HomeHub.Json.Reader

/-!
# Entity attributes

An attribute is a scalar or an arbitrary JSON value. `ofJson` sorts a value by its kind; `reader`
tries the kinds in order and takes the first that reads the value.
-/

namespace HomeHub

inductive Attribute where
  | bool (b : Bool)
  /-- A signed integer of 64 bits. -/
  | int (n : Int)
  | float (x : Float)
  | text (s : String)
  | json (j : Json)
  deriving Inhabited

namespace Attribute

open Json (Number Fault Node Reader)

/-- Integers beyond 64 signed bits become floats. -/
def ofJson : Json → Attribute
  | .bool b => .bool b
  | .num n =>
    match n.toInt? with
    | some i => .int i
    | none => .float n.toFloat
  | .str s => .text s
  | j => .json j

def toJson : Attribute → Json
  | .bool b => .bool b
  | .int n => .int n
  | .float x => .float x
  | .text s => .str s
  | .json j => j

/-- The attribute as a number, if it is one. -/
def float? : Attribute → Option Float
  | .int n => some (Float.ofInt n)
  | .float x => some x
  | .json j => j.float?
  | _ => none

/-- The attribute as a text, if it is one. -/
def str? : Attribute → Option String
  | .text s => some s
  | .json j => j.str?
  | _ => none

/-- The name of the kind of an attribute. -/
def kind : Attribute → String
  | .bool _ => "Bool"
  | .int _ => "Int"
  | .float _ => "Float"
  | .text _ => "String"
  | .json _ => "Json"

/-- The ways to read a value as an attribute, in order of preference. -/
def attempts : List (Json → Option Attribute) :=
  [fun j => j.bool?.map .bool, fun j => j.int?.map .int, fun j => j.float?.map .float,
    fun j => j.str?.map .text, fun j => some (.json j)]

/-- The first reading that succeeds. -/
def firstReading (j : Json) : Option Attribute := attempts.findSome? (· j)

def reader : Reader Attribute := Reader.andThen Reader.value firstReading

end Attribute

end HomeHub
