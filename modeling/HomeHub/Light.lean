import HomeHub.Entity.Basic

/-!
# Lights

What a light can do and what it currently does, read from its attributes, and the conversions from
the hub's units (brightness 0 … 255, hue and saturation as floats, colour temperature in mireds) to
the whole numbers that accessories show.
-/

namespace HomeHub

/-- How a light is driven. -/
inductive ColorMode where
  | onOff
  | brightness
  | colorTemp
  | hs
  | xy
  | rgb
  | rgbw
  | rgbww
  | white
  | unknown
  deriving DecidableEq, Repr, Inhabited

namespace ColorMode

def text : ColorMode → String
  | .onOff => "onoff"
  | .brightness => "brightness"
  | .colorTemp => "color_temp"
  | .hs => "hs"
  | .xy => "xy"
  | .rgb => "rgb"
  | .rgbw => "rgbw"
  | .rgbww => "rgbww"
  | .white => "white"
  | .unknown => "unknown"

/-- Every mode that has a name of its own. -/
def named : List ColorMode :=
  [.onOff, .brightness, .colorTemp, .hs, .xy, .rgb, .rgbw, .rgbww, .white]

/-- A text that names no mode stands for an unknown one. -/
def ofText (s : String) : ColorMode := (named.find? (·.text == s)).getD .unknown

def reader : Json.Reader ColorMode := Json.Reader.choice fun s => some (ofText s)

def hasColor : ColorMode → Bool
  | .hs | .xy | .rgb | .rgbw | .rgbww => true
  | _ => false

/-- Every known mode but plain switching dims the light. -/
def hasBrightness : ColorMode → Bool
  | .onOff | .unknown => false
  | _ => true

end ColorMode

/-- A percentage of a light that may not show zero while it is on. -/
def shownPercent (percent : Nat) (isOn : Bool) : Nat := if percent = 0 && isOn then 1 else percent

theorem shownPercent_pos (percent : Nat) : 0 < shownPercent percent true := by
  unfold shownPercent
  split
  · omega
  · simp_all; omega

/-- Rounded to a percentage; a light that is on never shows zero, which would mean off. -/
def brightnessPercent (brightness : Float) (isOn : Bool) : Nat :=
  shownPercent (Binary64.roundWithin 0 100 (brightness / 255.0 * 100.0)).toNat isOn

/-- Hue in whole degrees, saturation in whole percent. -/
def wholeHueSaturation (hue saturation : Float) : Nat × Nat :=
  ((Binary64.truncateWithin 0 360 hue).toNat, (Binary64.truncateWithin 0 100 saturation).toNat)

/-- A colour temperature in whole mireds. -/
def wholeMireds (mireds : Float) : Nat := (Binary64.truncateWithin 0 65535 mireds).toNat

namespace Light

/-- What a light can do, as far as its attributes or the registry say. -/
structure Capabilities where
  modes : List ColorMode := []
  minMireds : Nat := 153
  maxMireds : Nat := 500
  deriving DecidableEq, Inhabited

namespace Capabilities

/-- Modes that are no texts are left out; without limits the usual ones hold. -/
def ofParts (modes : Option Json) (least most : Option Float) : Capabilities where
  modes := ((modes.bind Json.arr?).getD []).filterMap fun j => j.str?.map ColorMode.ofText
  minMireds := (least.map wholeMireds).getD 153
  maxMireds := (most.map wholeMireds).getD 500

/-- From the attributes of an entity. -/
def ofAttributes (attributes : Attributes) : Capabilities :=
  ofParts ((attributes.get? "supported_color_modes").map Attribute.toJson)
    ((attributes.get? "min_mireds").bind Attribute.float?)
    ((attributes.get? "max_mireds").bind Attribute.float?)

def ofEntity (e : Entity) : Capabilities := ofAttributes e.attributes

/-- From a registry object such as `{"supported_color_modes": ["brightness"]}`. -/
def ofJson (j : Json) : Capabilities :=
  ofParts (j.get? "supported_color_modes") ((j.get? "min_mireds").bind Json.float?)
    ((j.get? "max_mireds").bind Json.float?)

def hasBrightness (c : Capabilities) : Bool := c.modes.any ColorMode.hasBrightness

def hasColor (c : Capabilities) : Bool := c.modes.any ColorMode.hasColor

def hasColorTemp (c : Capabilities) : Bool := c.modes.contains .colorTemp

def toJson (c : Capabilities) : Json :=
  .record [
    ("modes", .of (c.modes.map ColorMode.text)),
    ("min_mireds", .nat c.minMireds),
    ("max_mireds", .nat c.maxMireds),
    ("brightness", .bool c.hasBrightness),
    ("color", .bool c.hasColor),
    ("color_temp", .bool c.hasColorTemp)]

instance : ToJson Capabilities := ⟨toJson⟩

end Capabilities

/-! ### Current values -/

def brightness? (e : Entity) : Option Float := (e.attribute? "brightness").bind Attribute.float?

def colorTemp? (e : Entity) : Option Float := (e.attribute? "color_temp").bind Attribute.float?

def colorMode? (e : Entity) : Option ColorMode :=
  ((e.attribute? "color_mode").bind Attribute.str?).map ColorMode.ofText

/-- Hue and saturation, if the attribute is a pair of numbers. -/
def hueSaturation? (e : Entity) : Option (Float × Float) := do
  let value ← e.attribute? "hs_color"
  match value.toJson with
  | .arr [hue, saturation] => return (← hue.float?, ← saturation.float?)
  | _ => none

end Light

end HomeHub
