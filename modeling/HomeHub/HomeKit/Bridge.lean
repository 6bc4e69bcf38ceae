import HomeHub.EventBus
import HomeHub.HomeKit.Light

/-!
# The accessory bridge

The bridge keeps the accessories that controllers see. What a controller writes becomes service
calls, each followed by an event; changes of entities are shown by their accessories.
-/

namespace HomeHub.HomeKit

inductive BridgeError where
  /-- A request or an event that cannot be read. -/
  | malformed
  | duplicate (aid : Nat)
  /-- A service call or an event was refused. -/
  | hub (e : HubError)
  deriving DecidableEq, Repr

namespace BridgeError

def message : BridgeError → String
  | .malformed => "malformed payload"
  | .duplicate aid => "accessory " ++ toString aid ++ " already registered"
  | .hub _ => "domain error"

/-- The name of the kind of an error. -/
def kind : BridgeError → String
  | .malformed => "Decode"
  | .duplicate _ => "DuplicateAccessory"
  | .hub e => "Domain." ++ e.kind

/-- The error as the hub sees it. -/
def hubError : BridgeError → HubError
  | .hub e => e
  | e => .storage e.message

end BridgeError

/-- Takes service calls, and can be made to refuse any of them. -/
structure Caller where
  /-- The calls that were accepted, oldest first. -/
  accepted : List ServiceCall := []
  /-- How many calls were offered. -/
  offered : Nat := 0
  /-- What the n-th call fails with, if it does. -/
  refuses : Nat → Option HubError := fun _ => none
  deriving Inhabited

def Caller.call (c : Caller) (call : ServiceCall) : Except HubError Unit × Caller :=
  let offered := c.offered + 1
  match c.refuses c.offered with
  | some e => (.error e, { c with offered })
  | none => (.ok (), { c with accepted := c.accepted ++ [call], offered })

structure Bridge where
  /-- The accessories by their aids. -/
  lights : Table Nat LightAccessory := .empty
  caller : Caller := {}
  publisher : Publisher
  supply : Supply
  deriving Inhabited

/-! ### Requests -/

/-- A write of one characteristic; one without a value only asks for events. -/
structure CharacteristicWrite where
  aid : Nat
  iid : Nat
  value : Option Json

open Json (Reader Shape)

def CharacteristicWrite.shape : Shape CharacteristicWrite :=
  CharacteristicWrite.mk <$> .required "aid" (Reader.natUpTo Json.maxNat)
    <*> .required "iid" (Reader.natUpTo Json.maxNat)
    <*> .defaulted "value" (.option Reader.value) none

def writesShape : Shape (List CharacteristicWrite) :=
  .required "characteristics" (Reader.list CharacteristicWrite.shape.read)

namespace Bridge

/-- Registers an accessory. -/
def add (b : Bridge) (l : LightAccessory) : Except BridgeError Unit × Bridge :=
  if b.lights.contains l.aid then (.error (.duplicate l.aid), b)
  else (.ok (), { b with lights := b.lights.insert l.aid l })

def toJson (b : Bridge) : Json :=
  .record [("accessories", .arr (b.lights.values.map fun l => l.accessory.toJson))]

/-- The numbers that are written to an accessory, in order. -/
def numbersFor (writes : List CharacteristicWrite) (aid : Nat) : List (Nat × Int) :=
  writes.filterMap fun w =>
    if w.aid = aid then ((w.value.bind Value.numberOfJson?).map fun n => (w.iid, n)) else none

/-- Stores all writes. Gives the commands with their accessories, by ascending aid. -/
def applyWrites (b : Bridge) (writes : List CharacteristicWrite) :
    List (LightAccessory × LightCommand) × Bridge :=
  let write (l : LightAccessory) := l.write (numbersFor writes l.aid)
  let commands := b.lights.values.flatMap fun l => (write l).1.map fun c => (l, c)
  (commands, { b with lights := b.lights.map fun l => (write l).2 })

/-- Makes a service call and tells of it. -/
def dispatch (b : Bridge) (l : LightAccessory) (c : LightCommand) : Except HubError Unit × Bridge :=
  match b.caller.call c.call with
  | (.error e, caller) => (.error e, { b with caller })
  | (.ok (), caller) =>
    let data := .record [
      ("entity_id", .str l.entityId),
      ("display_name", .str l.displayName),
      ("service", .str c.call.service),
      ("value", .str c.description)]
    let (event, supply) := Event.make .accessoryStateChange (some l.entityId) data b.supply
    let (r, publisher) := b.publisher.publish event
    (r, { b with caller, publisher, supply })

/-- Dispatches commands up to the first that fails. -/
def dispatchAll (b : Bridge) : List (LightAccessory × LightCommand) → Except HubError Unit × Bridge
  | [] => (.ok (), b)
  | (l, c) :: r =>
    match b.dispatch l c with
    | (.error e, b) => (.error e, b)
    | (.ok (), b) => b.dispatchAll r

/-- Takes in writes and counts the service calls. -/
def setCharacteristics (b : Bridge) (writes : List CharacteristicWrite) :
    Except BridgeError Nat × Bridge :=
  let (commands, b) := b.applyWrites writes
  let (r, b) := b.dispatchAll commands
  ((r.mapError .hub).map fun () => commands.length, b)

/-- Takes in the body of a write request. -/
def put (b : Bridge) (body : List UInt8) : Except BridgeError Nat × Bridge :=
  match Json.decodeBytes writesShape.read body with
  | .error _ => (.error .malformed, b)
  | .ok writes => b.setCharacteristics writes

/-! ### Events -/

/-- The entity that an event of a state change is about. -/
def subject? (e : Event) : Option String :=
  e.entityId <|> (e.data.get? "entity_id").bind Json.str?

/-- The new state in an event, none if the entity is gone. -/
def newState (e : Event) : Except BridgeError (Option Entity) :=
  match e.data.get? "new_state" with
  | some j => (Json.decode (Reader.option Entity.shape.read) j).mapError fun _ => .malformed
  | none => .ok none

/-- Lets the accessories of an entity show a changed state. Other events are ignored. -/
def handle (b : Bridge) (e : Event) : Except BridgeError Unit × Bridge :=
  if e.eventType ≠ .stateChanged then (.ok (), b) else
  match subject? e with
  | none => (.ok (), b)
  | some entityId =>
    match newState e with
    | .error err => (.error err, b)
    | .ok state =>
      let shown (l : LightAccessory) : LightAccessory :=
        if l.entityId = entityId then l.update state else l
      (.ok (), { b with lights := b.lights.map shown })

/-- Handles one event after another, whatever becomes of each. -/
def follow (b : Bridge) (events : List Event) : Bridge := events.foldl (fun b e => (b.handle e).2) b

end Bridge

end HomeHub.HomeKit
