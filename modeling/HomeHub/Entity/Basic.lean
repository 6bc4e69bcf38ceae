import HomeHub.Entity.Attribute
import HomeHub.Entity.State
import HomeHub.Error
import HomeHub.Supply

/-!
# Entities

An entity is one observable or controllable aspect of a device, addressed by an id of the form
`<domain>.<object_id>`. `Entity.Draft` collects what is known of a new entity; `Draft.build` fills
in the rest and refuses malformed ids.
-/

namespace HomeHub

/-- A part of an entity id: small letters, digits and underscores, at least one of them. -/
def isIdPart (part : List Char) : Bool :=
  !part.isEmpty && part.all fun c => ('a' ≤ c && c ≤ 'z') || ('0' ≤ c && c ≤ '9') || c == '_'

/-- The two parts around the first point of a well-formed id. -/
def splitEntityId? (id : String) : Option (String × String) :=
  let cs := id.toList
  match cs.dropWhile (· != '.') with
  | [] => none
  | _ :: object =>
    let domain := cs.takeWhile (· != '.')
    if isIdPart domain && isIdPart object then some (String.ofList domain, String.ofList object)
    else none

abbrev Attributes := Table String Attribute

structure Entity where
  id : Uuid
  deviceId : Option Uuid
  entityId : String
  friendlyName : String
  state : EntityState
  attributes : Attributes
  lastChanged : Timestamp
  lastUpdated : Timestamp
  deriving Inhabited

namespace Entity

/-- The domain part of the entity id, empty if that is malformed. -/
def domain (e : Entity) : String :=
  match splitEntityId? e.entityId with
  | some (domain, _) => domain
  | none => ""

def attribute? (e : Entity) (key : String) : Option Attribute := e.attributes.get? key

def setAttribute (e : Entity) (key : String) (value : Attribute) : Entity :=
  { e with attributes := e.attributes.insert key value }

/-- Stores a state; the time of the last change moves only if the state is another one. -/
def updateState (e : Entity) (state : EntityState) (now : Timestamp) : Entity :=
  { e with
    state := state
    lastChanged := if e.state = state then e.lastChanged else now
    lastUpdated := now }

def validate (e : Entity) : Except Invalid Unit :=
  if (splitEntityId? e.entityId).isSome then .ok () else .error (.entityId e.entityId)

/-- What is given of a new entity. -/
structure Draft where
  id : Option Uuid := none
  deviceId : Option Uuid := none
  entityId : String := ""
  friendlyName : Option String := none
  state : EntityState := .unknown
  attributes : Attributes := .empty

/-- The object part of an id with blanks for underscores. -/
def defaultName (entityId : String) : String :=
  match splitEntityId? entityId with
  | some (_, object) => String.ofList (object.toList.map fun c => if c = '_' then ' ' else c)
  | none => ""

/-- Fills in a fresh id, the time and a name made from the object id. -/
def Draft.build (d : Draft) (fresh : Uuid) (now : Timestamp) : Except Invalid Entity := do
  let entity : Entity := {
    id := d.id.getD fresh
    deviceId := d.deviceId
    entityId := d.entityId
    friendlyName := d.friendlyName.getD (defaultName d.entityId)
    state := d.state
    attributes := d.attributes
    lastChanged := now
    lastUpdated := now }
  entity.validate
  return entity

/-! ### JSON -/

instance : ToJson Uuid := ⟨fun u => .str u.text⟩
instance : ToJson EntityState := ⟨fun s => .str s.text⟩

def toJson (e : Entity) : Json :=
  .record [
    ("id", .str e.id.text),
    ("device_id", .ofOption (fun d => .str d.text) e.deviceId),
    ("entity_id", .str e.entityId),
    ("friendly_name", .str e.friendlyName),
    ("state", .str e.state.text),
    ("attributes", .obj (e.attributes.map Attribute.toJson).pairs),
    ("last_changed", .str e.lastChanged.text),
    ("last_updated", .str e.lastUpdated.text)]

instance : ToJson Entity := ⟨toJson⟩

open Json (Reader Shape)

def uuidReader : Reader Uuid := Reader.andThen Reader.text Uuid.parse?

def timestampReader : Reader Timestamp := Reader.andThen Reader.text Timestamp.parse?

def stateReader : Reader EntityState := fun depth node =>
  (Reader.text depth node).map EntityState.ofText

def shape : Shape Entity :=
  Entity.mk <$> .required "id" uuidReader
    <*> .optional "device_id" uuidReader
    <*> .required "entity_id" Reader.text
    <*> .required "friendly_name" Reader.text
    <*> .required "state" stateReader
    <*> .required "attributes" (Reader.table Attribute.reader)
    <*> .required "last_changed" timestampReader
    <*> .required "last_updated" timestampReader

end Entity

end HomeHub
