import HomeHub.Device
import HomeHub.Entity.Basic
import HomeHub.MySensors.Node
import HomeHub.Number.Nearest
import HomeHub.Text.Slug
import HomeHub.Text.Split

/-!
# Devices and entities of nodes

A node is a device, and each value of each of its children is an entity. The main value of a child
gets the plain entity id; the ids of the others end in what they measure.
-/

namespace HomeHub.MySensors

/-- Config entries of gateways belong to this domain. -/
def domain : String := "mysensors"

/-- What a value measures. -/
inductive ValueKind where
  | temperature
  | humidity
  | power
  | energy
  | position
  | other (type : UInt8)
  deriving DecidableEq, Repr

namespace ValueKind

def ofType (type : UInt8) : ValueKind :=
  if type = 0 then .temperature
  else if type = 1 then .humidity
  else if type = 17 then .power
  else if type = 18 then .energy
  else if type = 49 then .position
  else .other type

def unit? : ValueKind → Option String
  | .temperature => some "°C"
  | .humidity => some "%"
  | .power => some "W"
  | .energy => some "kWh"
  | _ => none

/-- The class that entities of this kind belong to. -/
def deviceClass? : ValueKind → Option String
  | .temperature => some "temperature"
  | .humidity => some "humidity"
  | .power => some "power"
  | .energy => some "energy"
  | _ => none

/-- What the id of an entity ends in. -/
def suffix : ValueKind → String
  | .temperature => "temperature"
  | .humidity => "humidity"
  | .power => "power"
  | .energy => "energy"
  | .position => "position"
  | .other type => "value_" ++ toString type.toNat

def text : ValueKind → String
  | .temperature => "Temperature"
  | .humidity => "Humidity"
  | .power => "Power"
  | .energy => "Energy"
  | .position => "Position"
  | .other type => "Other(" ++ toString type.toNat ++ ")"

instance : ToJson ValueKind :=
  ⟨fun k => .record [("kind", .str k.text), ("unit", .of k.unit?), ("device_class", .of k.deviceClass?)]⟩

end ValueKind

/-- The type of value that a child of this presentation reports first. -/
def firstType? (presentation : UInt8) : Option UInt8 :=
  if presentation = 6 then some 0
  else if presentation = 7 then some 1
  else if presentation = 13 then some 17
  else if presentation = 38 then some 49
  else none

/-- The type of a child's main value: the one that its presentation reports first, as soon as there
is such a value, or else the least. -/
def Child.mainType? (c : Child) : Option UInt8 :=
  (firstType? c.presentation).filter c.values.contains <|> c.values.keys.head?

/-- The attributes of a position; parts that are no numbers are left out. -/
def positionAttributes (payload : String) : List (String × Attribute) :=
  let parts := (pieces ',' payload).map fun part => Decimal.float? (trim part)
  (["latitude", "longitude", "altitude"].zip parts).filterMap fun (key, x) =>
    x.map fun x => (key, .float x)

/-- A device and its entities. -/
structure Discovered where
  device : Device
  entities : List Entity
  deriving Inhabited

instance : ToJson Discovered :=
  ⟨fun d => .record [("device", d.device.toJson), ("entities", .of d.entities)]⟩

namespace Node

/-- The name of a child's main entity. -/
def childName (n : Node) (c : Child) : String :=
  n.name ++ " " ++ toString n.sensorId.toNat ++ " " ++ toString c.id.toNat

/-- The entity id and the name of the entity of a value. -/
def entityNames (n : Node) (c : Child) (type : UInt8) : String × String :=
  let name := n.childName c
  if some type = c.mainType? then ("sensor." ++ slug name, name)
  else
    let suffix := (ValueKind.ofType type).suffix
    ("sensor." ++ slug name ++ "_" ++ suffix, name ++ " " ++ suffix)

def entityAttributes (n : Node) (c : Child) (type : UInt8) (payload : String) : Attributes :=
  let kind := ValueKind.ofType type
  let known := [
    ("node_id", Attribute.int n.sensorId.toNat),
    ("child_id", .int c.id.toNat),
    ("description", .text c.description),
    ("battery_level", .int n.batteryLevel.toNat),
    ("heartbeat", .int n.heartbeat.toNat)]
  let unit := kind.unit?.toList.map fun u => ("unit_of_measurement", Attribute.text u)
  let deviceClass := kind.deviceClass?.toList.map fun d => ("device_class", Attribute.text d)
  .ofList (known ++ unit ++ deviceClass ++ if kind = .position then positionAttributes payload else [])

/-- The entity of a value. -/
def entity (n : Node) (c : Child) (deviceId : Uuid) (type : UInt8) (payload : String)
    (s : Supply) : Except HubError (Entity × Supply) := do
  let (fresh, s) := s.draw
  let (entityId, name) := n.entityNames c type
  let e ← (Entity.Draft.build {
    deviceId := some deviceId
    entityId := entityId
    friendlyName := some name
    state := .value payload
    attributes := n.entityAttributes c type payload } fresh s.now).mapError .invalid
  return (e, s)

/-- All values with their children, in order. -/
def allValues (n : Node) : List (Child × UInt8 × String) :=
  n.children.values.flatMap fun c => c.values.pairs.map fun (type, payload) => (c, type, payload)

/-- The entities of some values. -/
def entities (n : Node) (deviceId : Uuid) :
    List (Child × UInt8 × String) → Supply → Except HubError (List Entity × Supply)
  | [], s => .ok ([], s)
  | (c, type, payload) :: r, s => do
    let (e, s) ← n.entity c deviceId type payload s
    let (es, s) ← n.entities deviceId r s
    return (e :: es, s)

/-- The device of a node and the entities of its values. -/
def discover (n : Node) (gatewayId : String) (s : Supply) : Except HubError (Discovered × Supply) :=
  do
  let (fresh, s) := s.draw
  let device ← (Device.Draft.build {
    name := n.name ++ " " ++ toString n.sensorId.toNat
    manufacturer := some "MySensors"
    model := n.sketchName
    integration := domain
    uniqueId := some (gatewayId ++ "-" ++ toString n.sensorId.toNat) } fresh).mapError .invalid
  let (entities, s) ← n.entities device.id n.allValues s
  return (⟨device, entities⟩, s)

end Node

/-- The devices of some nodes. -/
def discoverAll (gatewayId : String) :
    List Node → Supply → Except HubError (List Discovered × Supply)
  | [], s => .ok ([], s)
  | n :: r, s => do
    let (d, s) ← n.discover gatewayId s
    let (ds, s) ← discoverAll gatewayId r s
    return (d :: ds, s)

end HomeHub.MySensors
