import HomeHub.Error
import HomeHub.Json.Basic
import HomeHub.Supply
import HomeHub.Text.Blank

/-!
# Devices

A physical thing that has one or more entities.
-/

namespace HomeHub

structure Device where
  id : Uuid
  name : String
  manufacturer : Option String
  model : Option String
  /-- The integration that provides the device. -/
  integration : String
  /-- Its identifier within the integration. -/
  uniqueId : String
  deriving DecidableEq, Inhabited

namespace Device

def validate (d : Device) : Except Invalid Unit :=
  if isAllBlank d.name then .error .emptyName
  else if isAllBlank d.integration then .error .emptyDomain
  else .ok ()

/-- What is given of a new device. -/
structure Draft where
  id : Option Uuid := none
  name : String := ""
  manufacturer : Option String := none
  model : Option String := none
  integration : String := ""
  uniqueId : Option String := none

/-- Fills in a fresh id, which is also the identifier within the integration by default. -/
def Draft.build (d : Draft) (fresh : Uuid) : Except Invalid Device := do
  let id := d.id.getD fresh
  let device : Device := {
    id := id
    name := d.name
    manufacturer := d.manufacturer
    model := d.model
    integration := d.integration
    uniqueId := d.uniqueId.getD id.text }
  device.validate
  return device

def toJson (d : Device) : Json :=
  .record [
    ("id", .str d.id.text),
    ("name", .str d.name),
    ("manufacturer", .ofOption .str d.manufacturer),
    ("model", .ofOption .str d.model),
    ("integration", .str d.integration),
    ("unique_id", .str d.uniqueId)]

instance : ToJson Device := ⟨toJson⟩

end Device

end HomeHub
