import HomeHub.HomeKit.Accessory
import HomeHub.Light
import HomeHub.Service

/-!
# Light accessories

A light is shown as a lightbulb service. A light that has both colour and colour temperature is
dual: it gets two linked services, one for each, of which only one is on at a time, as the colour
mode of the entity says. `update` follows the entity; `write` takes what a controller writes and
says which service calls carry it out.
-/

namespace HomeHub.HomeKit

/-- A lightbulb service of a light. -/
inductive Bulb where
  | primary
  /-- For the colour temperature of a dual light. -/
  | secondary
  deriving DecidableEq, Repr

/-- The index of the service, after the one with the information. -/
def Bulb.index : Bulb → Nat
  | .primary => 1
  | .secondary => 2

/-- A name that tells the services of a dual light apart. -/
def Bulb.name : Bulb → String
  | .primary => "RGB"
  | .secondary => "Temperature"

/-- A characteristic that a light may have. -/
inductive Feature where
  | onPrimary
  | onSecondary
  | brightnessPrimary
  | brightnessSecondary
  | hue
  | saturation
  | colorTemperature
  deriving DecidableEq, Repr

namespace Feature

def text : Feature → String
  | .onPrimary => "OnPrimary"
  | .onSecondary => "OnSecondary"
  | .brightnessPrimary => "BrightnessPrimary"
  | .brightnessSecondary => "BrightnessSecondary"
  | .hue => "Hue"
  | .saturation => "Saturation"
  | .colorTemperature => "ColorTemperature"

def all : List Feature :=
  [.onPrimary, .onSecondary, .brightnessPrimary, .brightnessSecondary, .hue, .saturation,
    .colorTemperature]

def ofText? (s : String) : Option Feature := all.find? (·.text == s)

end Feature

/-- Whether a light needs two services. -/
def isDual (c : Light.Capabilities) : Bool := c.hasColor && c.hasColorTemp

/-- What the services of a light show besides whether it is on. -/
def bulbKinds (c : Light.Capabilities) : Bulb → List Kind
  | .primary =>
    (if c.hasBrightness then [.brightness] else [])
      ++ (if c.hasColor then [.hue, .saturation] else [])
      ++ (if isDual c then [.name] else if c.hasColorTemp then [.colorTemperature] else [])
  | .secondary => if isDual c then [.name, .colorTemperature, .brightness] else []

def bulbs (c : Light.Capabilities) : List Bulb :=
  if isDual c then [.primary, .secondary] else [.primary]

structure LightAccessory where
  accessory : Accessory
  entityId : String
  capabilities : Light.Capabilities
  deriving DecidableEq, Inhabited

/-- A service call that carries out what a controller wrote, with a description. -/
structure LightCommand where
  call : ServiceCall
  description : String
  deriving Inhabited

instance : ToJson LightCommand :=
  ⟨fun c => .record [("call", c.call.toJson), ("description", .str c.description)]⟩

namespace LightAccessory

def aid (l : LightAccessory) : Nat := l.accessory.aid

def displayName (l : LightAccessory) : String := l.accessory.displayName

def isDual (l : LightAccessory) : Bool := HomeKit.isDual l.capabilities

/-! ### Making one -/

/-- What a characteristic of a service says before anything is known of the light. -/
def initial (c : Light.Capabilities) (bulb : Bulb) (x : Characteristic) : Characteristic :=
  match x.kind with
  | .brightness => x.setNumber 100
  | .hue => x.setNumber 0
  | .saturation => x.setNumber 75
  | .colorTemperature => (x.setRange c.minMireds c.maxMireds).setNumber c.minMireds
  | .name => x.setText bulb.name
  | _ => x

/-- The accessory of a light of which nothing but its capabilities is known. -/
def blank (aid : Nat) (name entityId : String) (c : Light.Capabilities) : LightAccessory :=
  let plan (bulb : Bulb) : ServicePlan := ⟨.lightbulb, .on :: bulbKinds c bulb⟩
  let a := (Accessory.create aid name .lightbulb ((bulbs c).map plan)).setInformation "homelink"
    "light" entityId
  let a := a.modifyService Bulb.primary.index fun s => { s with
    primary := true
    linked := (a.services[Bulb.secondary.index]?.map (·.iid)).toList }
  let accessory := (bulbs c).foldl (fun a bulb =>
    a.modifyService bulb.index (·.mapCharacteristics (initial c bulb))) a
  { accessory, entityId, capabilities := c }

/-! ### Characteristics -/

/-- Where a feature is found. -/
def place (l : LightAccessory) : Feature → Bulb × Kind
  | .onPrimary => (.primary, .on)
  | .onSecondary => (.secondary, .on)
  | .brightnessPrimary => (.primary, .brightness)
  | .brightnessSecondary => (.secondary, .brightness)
  | .hue => (.primary, .hue)
  | .saturation => (.primary, .saturation)
  | .colorTemperature => (if l.isDual then .secondary else .primary, .colorTemperature)

def feature? (l : LightAccessory) (f : Feature) : Option Characteristic :=
  let (bulb, kind) := l.place f
  (l.accessory.services[bulb.index]?).bind (·.characteristic? kind)

/-- The number of a characteristic, if the light has it. -/
def iid? (l : LightAccessory) (f : Feature) : Option Nat := (l.feature? f).map (·.iid)

/-- The current value of a characteristic, if the light has it. -/
def value? (l : LightAccessory) (f : Feature) : Option Int :=
  (l.feature? f).bind Characteristic.number?

def set (l : LightAccessory) (f : Feature) (n : Int) : LightAccessory :=
  match l.iid? f with
  | some iid => { l with accessory := l.accessory.modify iid (·.setNumber n) }
  | none => l

/-- Sets what there is a value for. -/
def setAll (l : LightAccessory) (values : List (Feature × Int)) : LightAccessory :=
  values.foldl (fun l p => l.set p.1 p.2) l

/-- The numbers of all characteristics that a light may have. -/
def iids (l : LightAccessory) : Json :=
  .record (Feature.all.map fun f => (f.text, .of (l.iid? f)))

/-- The values of all characteristics that a light may have. -/
def values (l : LightAccessory) : Json :=
  .record (Feature.all.map fun f => (f.text, .of (l.value? f)))

/-! ### Following the entity -/

/-- Which services are on. -/
def onValues (l : LightAccessory) (e : Option Entity) : List (Feature × Int) :=
  let on : Int := (e.any (·.state.isOn)).toNat
  if l.isDual then
    if e.bind Light.colorMode? = some .colorTemp then [(.onPrimary, 0), (.onSecondary, on)]
    else [(.onPrimary, on), (.onSecondary, 0)]
  else [(.onPrimary, on)]

def brightnessValues (l : LightAccessory) (e : Entity) : List (Feature × Int) :=
  match if l.capabilities.hasBrightness then Light.brightness? e else none with
  | some b =>
    let percent : Int := brightnessPercent b e.state.isOn
    [(.brightnessPrimary, percent), (.brightnessSecondary, percent)]
  | none => []

def temperatureValues (l : LightAccessory) (e : Entity) : List (Feature × Int) :=
  match if l.capabilities.hasColorTemp then Light.colorTemp? e else none with
  | some mireds => [(.colorTemperature, wholeMireds mireds)]
  | none => []

def colorValues (l : LightAccessory) (e : Entity) : List (Feature × Int) :=
  match if l.capabilities.hasColor then Light.hueSaturation? e else none with
  | some (hue, saturation) =>
    let (hue, saturation) := wholeHueSaturation hue saturation
    [(.hue, hue), (.saturation, saturation)]
  | none => []

/-- Shows the state of the entity; without one the light is off. -/
def update (l : LightAccessory) (e : Option Entity) : LightAccessory :=
  let l := l.setAll (l.onValues e)
  match e with
  | some e => l.setAll (l.brightnessValues e ++ l.temperatureValues e ++ l.colorValues e)
  | none => l

/-- The accessory of an entity. What the light can do comes from its current state, or else from
the registry; a light of which neither is known can only be switched. -/
def create (aid : Nat) (name entityId : String) (state : Option Entity) (registry : Option Json) :
    LightAccessory :=
  match state, registry with
  | some e, _ => (blank aid name entityId (.ofEntity e)).update (some e)
  | none, some j => blank aid name entityId (.ofJson j)
  | none, none => blank aid name entityId {}

/-! ### Writes -/

/-- The last value of a kind. -/
def lastOf (values : List (Kind × Int)) (kind : Kind) : Option Int := values.reverse.lookup kind

/-- Stores the values of the kinds that a service has. -/
def store (l : LightAccessory) (index : Nat) (values : List (Kind × Int)) : LightAccessory :=
  let put (c : Characteristic) : Characteristic :=
    match lastOf values c.kind with
    | some n => c.setNumber n
    | none => c
  { l with accessory := l.accessory.modifyService index (·.mapCharacteristics put) }

/-- What a service holds of a kind that was written. -/
def stored (l : LightAccessory) (index : Nat) (values : List (Kind × Int)) (kind : Kind) :
    Option Int :=
  if (lastOf values kind).isSome then
    ((l.accessory.services[index]?).bind (·.characteristic? kind)).bind Characteristic.number?
  else none

/-- The colour that goes with a command, as a field of its data, and how it is described. -/
def colorField (l : LightAccessory) (bulb : Bulb) (stored : Kind → Option Int) :
    Option (String × Json × String) :=
  let wroteTemperature := (stored .colorTemperature).isSome
  let wroteColor := (stored .hue).isSome || (stored .saturation).isSome
  if l.capabilities.hasColorTemp && (wroteTemperature || (l.isDual && bulb = .secondary)) then do
    let mireds ← stored .colorTemperature <|> l.value? .colorTemperature
    return ("color_temp", .int mireds, "color temperature at " ++ toString mireds)
  else if l.capabilities.hasColor && (wroteColor || (l.isDual && bulb = .primary)) then do
    let hue ← stored .hue <|> l.value? .hue
    let saturation ← stored .saturation <|> l.value? .saturation
    return ("hs_color", .arr [.int hue, .int saturation],
      "set color at (" ++ toString hue ++ ", " ++ toString saturation ++ ")")
  else none

/-- The command that carries out the values just stored. A brightness of zero switches off. -/
def command (l : LightAccessory) (bulb : Bulb) (stored : Kind → Option Int) : LightCommand :=
  let on := if stored .brightness = some 0 then some 0 else stored .on
  let described := (on.map fun n => "Set state to " ++ toString n).toList
    ++ ((stored .brightness).map fun n => "brightness at " ++ toString n ++ "%").toList
  if on = some 0 then
    ⟨.forEntity "light" "turn_off" l.entityId, ", ".intercalate described⟩
  else
    let call := ServiceCall.forEntity "light" "turn_on" l.entityId
    let call := match stored .brightness with
      | some n => call.withField "brightness_pct" (.int n)
      | none => call
    match l.colorField bulb stored with
    | some (key, value, color) =>
      ⟨call.withField key value, ", ".intercalate (described ++ [color])⟩
    | none => ⟨call, ", ".intercalate described⟩

/-- Stores values in a service and says which call carries them out. A light with one service has
them in that. -/
def setValues (l : LightAccessory) (bulb : Bulb) (values : List (Kind × Int)) :
    LightCommand × LightAccessory :=
  let index := if l.isDual then bulb.index else Bulb.primary.index
  let l := l.store index values
  (l.command bulb (l.stored index values), l)

/-- The writes that concern a service: those to characteristics of it that may be written. -/
def writesTo (l : LightAccessory) (bulb : Bulb) (writes : List (Nat × Int)) : List (Kind × Int) :=
  writes.filterMap fun (iid, n) => do
    let c ← l.accessory.characteristic? iid
    if c.kind.isWritable && l.accessory.serviceIndex? iid = some bulb.index then
      return (c.kind, n)
    else none

/-- Takes in writes for one service. -/
def writeTo (l : LightAccessory) (bulb : Bulb) (writes : List (Nat × Int)) :
    List LightCommand × LightAccessory :=
  match l.writesTo bulb writes with
  | [] => ([], l)
  | values =>
    let (command, l) := l.setValues bulb values
    ([command], l)

/-- Takes in writes, each a characteristic's number and a value. There is one command for each
service that is written to, the primary one first. -/
def write (l : LightAccessory) (writes : List (Nat × Int)) : List LightCommand × LightAccessory :=
  let (first, l) := l.writeTo .primary writes
  let (second, l) := l.writeTo .secondary writes
  (first ++ second, l)

end LightAccessory

end HomeHub.HomeKit
