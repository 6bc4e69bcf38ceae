import HomeHub.HomeKit.Light
import HomeHub.Scenario

/-!
# Accessories in scenarios
-/

namespace HomeHub.Scenario

/-- The kind of a characteristic, by its name. -/
def characteristicKind (j : Json) : HomeKit.Kind := (j.str?.bind HomeKit.Kind.ofText?).getD default

def category (s : String) : HomeKit.Category :=
  match s with
  | "Other" => .other
  | "Bridge" => .bridge
  | "Sensor" => .sensor
  | _ => .lightbulb

def servicePlan (j : Json) : HomeKit.ServicePlan :=
  ⟨if j.string "kind" == "Lightbulb" then .lightbulb else .accessoryInformation,
    (j.items "characteristics").map characteristicKind⟩

/-- An accessory with its links and its information, if that is given. -/
def accessory (j : Json) : HomeKit.Accessory :=
  let a := HomeKit.Accessory.create (j.natural "aid") (j.string "display_name")
    (category (j.string "category")) ((j.items "services").map servicePlan)
  let a := (j.items "links").foldl (fun a l => a.link (l.natural "service") (l.natural "iid")) a
  ((j.given? "information").map fun i => a.setInformation (i.string "manufacturer")
    (i.string "model") (i.string "serial_number")).getD a

/-- A light, shown as its entity is in the beginning. -/
def light (j : Json) (s : Supply) : Except Invalid HomeKit.LightAccessory :=
  let create (e : Option Entity) :=
    HomeKit.LightAccessory.create (j.natural "aid") ((j.string? "display_name").getD "Light")
      ((j.string? "entity_id").getD "light.demo") e (j.get? "capabilities")
  match j.given? "state" with
  | some spec => (entity spec s).1.map fun e => create (some e)
  | none => .ok (create none)

end HomeHub.Scenario
