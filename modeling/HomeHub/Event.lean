import HomeHub.Entity.Basic

/-!
# Events

An event records that something happened: what, to which entity, and with which data.
-/

namespace HomeHub

inductive EventType where
  | stateChanged
  | serviceCalled
  | accessoryStateChange
  | configEntryCreated
  | gatewayConnected
  deriving DecidableEq, Repr, Inhabited

namespace EventType

def text : EventType → String
  | .stateChanged => "state_changed"
  | .serviceCalled => "service_called"
  | .accessoryStateChange => "accessory_state_change"
  | .configEntryCreated => "config_entry_created"
  | .gatewayConnected => "gateway_connected"

def all : List EventType :=
  [.stateChanged, .serviceCalled, .accessoryStateChange, .configEntryCreated, .gatewayConnected]

def ofText? (s : String) : Option EventType := all.find? (·.text == s)

end EventType

structure Event where
  id : Uuid
  eventType : EventType
  /-- The entity that the event is about, if any. -/
  entityId : Option String
  data : Json
  timestamp : Timestamp
  deriving Inhabited

namespace Event

/-- A new event, stamped with the time. -/
def make (eventType : EventType) (entityId : Option String) (data : Json) (supply : Supply) :
    Event × Supply :=
  let (id, supply) := supply.draw
  (⟨id, eventType, entityId, data, supply.now⟩, supply)

def toJson (e : Event) : Json :=
  .record [
    ("id", .str e.id.text),
    ("event_type", .str e.eventType.text),
    ("entity_id", .ofOption .str e.entityId),
    ("data", e.data),
    ("timestamp", .str e.timestamp.text)]

instance : ToJson Event := ⟨toJson⟩

/-- What the event says, without its id and its time. -/
def said (e : Event) : EventType × Option String × Json := (e.eventType, e.entityId, e.data)

/-- What the event says, as JSON. -/
def content (e : Event) : Json :=
  .record [
    ("event_type", .str e.eventType.text),
    ("entity_id", .ofOption .str e.entityId),
    ("data", e.data)]

open Json (Reader Shape)

def shape : Shape Event :=
  Event.mk <$> .required "id" Entity.uuidReader
    <*> .required "event_type" (Reader.choice EventType.ofText?)
    <*> .optional "entity_id" Reader.text
    <*> .required "data" Reader.value
    <*> .required "timestamp" Entity.timestampReader

end Event

end HomeHub
