import HomeHub.Json.Basic

/-!
# Characteristics

A characteristic is a typed value that a HomeKit service exposes. Numbers are kept within a range,
texts have none.
-/

namespace HomeHub.HomeKit

inductive Kind where
  | on
  | brightness
  | hue
  | saturation
  | colorTemperature
  | name
  | manufacturer
  | model
  | serialNumber
  | firmwareRevision
  deriving DecidableEq, Repr, Inhabited

/-- The least and the greatest number of a characteristic. -/
structure Range where
  least : Int
  most : Int
  deriving DecidableEq, Repr

/-- A range between two bounds; one that is upside down holds its lower bound only. -/
def Range.between (low high : Int) : Range := ⟨low, max high low⟩

/-- The number of the range that is nearest. -/
def Range.clamp (r : Range) (n : Int) : Int := min (max n r.least) r.most

namespace Kind

def all : List Kind :=
  [.on, .brightness, .hue, .saturation, .colorTemperature, .name, .manufacturer, .model,
    .serialNumber, .firmwareRevision]

/-- The short form of the type's UUID. -/
def typeId : Kind → String
  | .on => "25"
  | .brightness => "8"
  | .hue => "13"
  | .saturation => "2F"
  | .colorTemperature => "CE"
  | .name => "23"
  | .manufacturer => "20"
  | .model => "21"
  | .serialNumber => "30"
  | .firmwareRevision => "52"

def text : Kind → String
  | .on => "On"
  | .brightness => "Brightness"
  | .hue => "Hue"
  | .saturation => "Saturation"
  | .colorTemperature => "ColorTemperature"
  | .name => "Name"
  | .manufacturer => "Manufacturer"
  | .model => "Model"
  | .serialNumber => "SerialNumber"
  | .firmwareRevision => "FirmwareRevision"

def ofText? (s : String) : Option Kind := all.find? (·.text == s)

/-- Whether the value is a text and no number. -/
def isText : Kind → Bool
  | .name | .manufacturer | .model | .serialNumber | .firmwareRevision => true
  | _ => false

/-- Whether a controller may write the value. -/
def isWritable (k : Kind) : Bool := !k.isText

/-- The range that a number has unless it is given another one. -/
def range? : Kind → Option Range
  | .on => some ⟨0, 1⟩
  | .brightness | .saturation => some ⟨0, 100⟩
  | .hue => some ⟨0, 360⟩
  | .colorTemperature => some ⟨140, 500⟩
  | _ => none

end Kind

inductive Value where
  | number (n : Int)
  | text (s : String)
  deriving DecidableEq, Repr, Inhabited

namespace Value

def number? : Value → Option Int
  | .number n => some n
  | .text _ => none

def toJson : Value → Json
  | .number n => .int n
  | .text s => .str s

/-- The number that a controller means: booleans are 0 and 1, and fractions are dropped. -/
def numberOfJson? : Json → Option Int
  | .bool b => some b.toNat
  | .num n => some (n.toInt?.getD (Binary64.truncateWithin Json.minInt Json.maxInt n.toFloat))
  | _ => none

end Value

structure Characteristic where
  kind : Kind
  /-- Its number within the accessory. -/
  iid : Nat
  value : Value
  range : Option Range
  deriving DecidableEq, Repr, Inhabited

namespace Characteristic

/-- A new characteristic holds the least number of its range, or no text. -/
def create (kind : Kind) (iid : Nat) : Characteristic where
  kind := kind
  iid := iid
  value := if kind.isText then .text "" else .number ((kind.range?.map Range.least).getD 0)
  range := kind.range?

def number? (c : Characteristic) : Option Int := c.value.number?

/-- Stores a number, clamped to the range. -/
def setNumber (c : Characteristic) (n : Int) : Characteristic :=
  { c with value := .number ((c.range.map (·.clamp n)).getD n) }

def setText (c : Characteristic) (s : String) : Characteristic := { c with value := .text s }

/-- Changes the range, and clamps the number to it. -/
def setRange (c : Characteristic) (low high : Int) : Characteristic :=
  let c := { c with range := some (.between low high) }
  match c.value with
  | .number n => c.setNumber n
  | .text _ => c

def toJson (c : Characteristic) : Json :=
  let permissions := if c.kind.isWritable then ["pr", "pw", "ev"] else ["pr"]
  let limits := match c.range with
    | some r => [("minValue", .int r.least), ("maxValue", .int r.most)]
    | none => []
  .record ([
    ("iid", .nat c.iid),
    ("type", .str c.kind.typeId),
    ("perms", .arr (permissions.map .str)),
    ("value", c.value.toJson)] ++ limits)

instance : ToJson Characteristic := ⟨toJson⟩

end Characteristic

end HomeHub.HomeKit
