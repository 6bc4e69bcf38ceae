/-!
# Entity states

A sensor's free-form reading is a state of its own; the other states have reserved names.
-/

namespace HomeHub

inductive EntityState where
  | on
  | off
  | unknown
  | unavailable
  /-- A reading. -/
  | value (text : String)
  deriving DecidableEq, Repr, Inhabited

namespace EntityState

/-- A reserved name stands for its state, any other text is a reading. -/
def ofText (s : String) : EntityState :=
  if s = "on" then .on
  else if s = "off" then .off
  else if s = "unknown" then .unknown
  else if s = "unavailable" then .unavailable
  else .value s

def text : EntityState → String
  | .on => "on"
  | .off => "off"
  | .unknown => "unknown"
  | .unavailable => "unavailable"
  | .value s => s

def isOn : EntityState → Bool
  | .on => true
  | _ => false

/-- Everything but `unavailable` is available. -/
def isAvailable : EntityState → Bool
  | .unavailable => false
  | _ => true

/-- The name of the kind of a state. -/
def kind : EntityState → String
  | .on => "On"
  | .off => "Off"
  | .unknown => "Unknown"
  | .unavailable => "Unavailable"
  | .value _ => "Value"

@[simp] theorem text_ofText (s : String) : (ofText s).text = s := by
  unfold ofText
  repeat' split
  all_goals simp_all [text]

end EntityState

end HomeHub
