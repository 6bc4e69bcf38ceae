import HomeHub.Text.Quoted

/-!
# Errors of the hub

`Invalid` are broken rules of the domain, `Missing` are look-ups without result. A `HubError` is
one of these, or a failure of a part outside the domain (storage, devices, event bus), of which only
the text of the cause is known.
-/

namespace HomeHub

/-- A rule of the domain that a value breaks. -/
inductive Invalid where
  | emptyName
  /-- Not of the form `<domain>.<object_id>`. -/
  | entityId (text : String)
  | emptyDomain
  | emptyHost
  | zeroPort
  /-- A text that is no identifier. -/
  | identifier (text : String)
  /-- Input that does not fit, with the reason. -/
  | input (reason : String)
  deriving DecidableEq, Repr

def Invalid.message : Invalid → String
  | .emptyName => "name must not be empty"
  | .entityId text => "invalid entity id " ++ quoted text
  | .emptyDomain => "domain must not be empty"
  | .emptyHost => "host must not be empty"
  | .zeroPort => "port must be non-zero"
  | .identifier text => "invalid identifier " ++ quoted text
  | .input reason => "invalid input: " ++ reason

/-- The name of the rule. -/
def Invalid.kind : Invalid → String
  | .emptyName => "EmptyName"
  | .entityId _ => "InvalidEntityId"
  | .emptyDomain => "EmptyDomain"
  | .emptyHost => "EmptyHost"
  | .zeroPort => "InvalidPort"
  | .identifier _ => "InvalidId"
  | .input _ => "InvalidInput"

/-- Something looked up by an identifier that is not there. -/
structure Missing where
  kind : String
  id : String
  deriving DecidableEq, Repr

def Missing.message (m : Missing) : String := m.kind ++ " " ++ m.id ++ " not found"

inductive HubError where
  | invalid (rule : Invalid)
  | notFound (missing : Missing)
  /-- A part outside the domain failed. -/
  | storage (cause : String)
  deriving DecidableEq, Repr

def HubError.message : HubError → String
  | .invalid rule => rule.message
  | .notFound missing => missing.message
  | .storage cause => cause

/-- The name of the kind of an error. -/
def HubError.kind : HubError → String
  | .invalid rule => "Validation." ++ rule.kind
  | .notFound _ => "NotFound"
  | .storage _ => "Storage"

instance : Coe Invalid HubError := ⟨.invalid⟩

end HomeHub
