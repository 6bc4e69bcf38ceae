import HomeHub.HomeKit.Characteristic

/-!
# Accessories

An accessory is a list of services, each a list of characteristics. Services and characteristics are
numbered from one in the order in which they are listed, each service before its characteristics.
The first service tells what the accessory is.
-/

namespace HomeHub.HomeKit

/-- What an accessory is advertised as. -/
inductive Category where
  | other
  | bridge
  | lightbulb
  | sensor
  deriving DecidableEq, Repr, Inhabited

def Category.number : Category → Nat
  | .other => 1
  | .bridge => 2
  | .lightbulb => 5
  | .sensor => 10

inductive ServiceKind where
  | accessoryInformation
  | lightbulb
  deriving DecidableEq, Repr, Inhabited

/-- The short form of the type's UUID. -/
def ServiceKind.typeId : ServiceKind → String
  | .accessoryInformation => "3E"
  | .lightbulb => "43"

structure Service where
  kind : ServiceKind
  iid : Nat
  primary : Bool := false
  /-- The numbers of the services that belong to this one. -/
  linked : List Nat := []
  characteristics : List Characteristic
  deriving DecidableEq, Repr, Inhabited

namespace Service

def characteristic? (s : Service) (kind : Kind) : Option Characteristic :=
  s.characteristics.find? (·.kind = kind)

def mapCharacteristics (s : Service) (f : Characteristic → Characteristic) : Service :=
  { s with characteristics := s.characteristics.map f }

def toJson (s : Service) : Json :=
  .record [
    ("iid", .nat s.iid),
    ("type", .str s.kind.typeId),
    ("primary", .bool s.primary),
    ("linked", .arr (s.linked.map .nat)),
    ("characteristics", .arr (s.characteristics.map Characteristic.toJson))]

instance : ToJson Service := ⟨toJson⟩

end Service

structure Accessory where
  aid : Nat
  category : Category
  displayName : String
  services : List Service
  deriving DecidableEq, Repr, Inhabited

/-- What a service is to consist of. -/
structure ServicePlan where
  kind : ServiceKind
  characteristics : List Kind
  deriving DecidableEq, Repr, Inhabited

namespace ServicePlan

/-- The first service of every accessory. -/
def information : ServicePlan where
  kind := .accessoryInformation
  characteristics := [.name, .manufacturer, .model, .serialNumber, .firmwareRevision]

/-- How many numbers the service takes. -/
def size (p : ServicePlan) : Nat := p.characteristics.length + 1

/-- The service, numbered from `iid` on. -/
def build (p : ServicePlan) (iid : Nat) : Service where
  kind := p.kind
  iid := iid
  characteristics := p.characteristics.mapIdx fun i kind => .create kind (iid + 1 + i)

/-- The services, one after the other. -/
def buildAll : Nat → List ServicePlan → List Service
  | _, [] => []
  | iid, p :: r => p.build iid :: buildAll (iid + p.size) r

end ServicePlan

namespace Accessory

/-- The version that accessories report. -/
def firmwareRevision : String := "0.1.0"

/-- Changes the service at an index, if there is one. -/
def modifyService (a : Accessory) (index : Nat) (f : Service → Service) : Accessory :=
  { a with services := a.services.modify index f }

/-- What the information service says from the start. -/
def describe (name : String) (c : Characteristic) : Characteristic :=
  match c.kind with
  | .name => c.setText name
  | .firmwareRevision => c.setText firmwareRevision
  | _ => c

/-- An accessory of the information service and these services. -/
def create (aid : Nat) (name : String) (category : Category) (plans : List ServicePlan) :
    Accessory :=
  let services := ServicePlan.buildAll 1 (.information :: plans)
  { aid, category, displayName := name, services : Accessory }.modifyService 0
    (·.mapCharacteristics (describe name))

def characteristics (a : Accessory) : List Characteristic := a.services.flatMap (·.characteristics)

def characteristic? (a : Accessory) (iid : Nat) : Option Characteristic :=
  a.characteristics.find? (·.iid = iid)

/-- Changes the characteristic of a number. -/
def modify (a : Accessory) (iid : Nat) (f : Characteristic → Characteristic) : Accessory :=
  { a with services := a.services.map (·.mapCharacteristics fun c => if c.iid = iid then f c else c) }

/-- The index of the service that owns a characteristic. -/
def serviceIndex? (a : Accessory) (iid : Nat) : Option Nat :=
  a.services.findIdx? fun s => s.characteristics.any (·.iid = iid)

/-- Fills in the information service. -/
def setInformation (a : Accessory) (manufacturer model serialNumber : String) : Accessory :=
  let fill (c : Characteristic) : Characteristic :=
    match c.kind with
    | .manufacturer => c.setText manufacturer
    | .model => c.setText model
    | .serialNumber => c.setText serialNumber
    | _ => c
  match a.services.findIdx? (·.kind = .accessoryInformation) with
  | some index => a.modifyService index (·.mapCharacteristics fill)
  | none => a

/-- Makes a service the primary one and links another one to it. -/
def link (a : Accessory) (index iid : Nat) : Accessory :=
  a.modifyService index fun s => { s with primary := true, linked := s.linked ++ [iid] }

def toJson (a : Accessory) : Json :=
  .record [("aid", .nat a.aid), ("services", .arr (a.services.map Service.toJson))]

instance : ToJson Accessory := ⟨toJson⟩

end Accessory

end HomeHub.HomeKit
