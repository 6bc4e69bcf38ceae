import HomeHub.Contact
import HomeHub.Entry.Store
import HomeHub.EventBus
import HomeHub.FlowManager.Table
import HomeHub.States

/-!
# The hub

Everything that the parts of the hub share: the clock and fresh identifiers, the event bus, entity
states, config entries, what loaded entries know of their nodes, the nodes themselves, and the flows
in progress.
-/

namespace HomeHub

structure Hub where
  supply : Supply
  publisher : Publisher
  states : States := .empty
  repository : Repository := {}
  /-- What the nodes of loaded entries reported. -/
  loaded : Table Uuid DeviceInfo := .empty
  network : Network
  /-- The calls made to nodes, oldest first. -/
  contacts : List Contact := []
  flows : FlowTable := {}
  deriving Inhabited

namespace Hub

def draw (h : Hub) : Uuid × Hub :=
  let (id, supply) := h.supply.draw
  (id, { h with supply })

/-- Makes an event of now and publishes it. -/
def publish (h : Hub) (eventType : EventType) (entityId : Option String) (data : Json) :
    Except HubError Unit × Hub :=
  let (event, supply) := Event.make eventType entityId data h.supply
  let (r, publisher) := h.publisher.publish event
  (r, { h with supply, publisher })

/-! ### Nodes -/

/-- Asks a node to describe itself. -/
def describe (h : Hub) (t : Target) : Except ContactError DeviceInfo × Hub :=
  (h.network.describe t, { h with contacts := h.contacts ++ [⟨.deviceInfo, t⟩] })

def login (h : Hub) (t : Target) : Except ContactError Unit × Hub :=
  (h.network.login t, { h with contacts := h.contacts ++ [⟨.login, t⟩] })

/-! ### Config entries -/

def createEntry (h : Hub) (e : Entry) : Except HubError Entry × Hub :=
  let (r, repository, supply) := h.repository.createEntry e h.supply
  (r, { h with repository, supply })

def updateEntry (h : Hub) (e : Entry) : Except HubError Entry × Hub :=
  let (r, repository) := h.repository.updateEntry e
  (r, { h with repository })

def deleteEntry (h : Hub) (id : Uuid) : Except HubError Unit × Hub :=
  let (r, repository) := h.repository.deleteEntry id
  (r, { h with repository })

/-! ### Entity states -/

/-- Tells of a change of an entity. -/
def announce (h : Hub) (c : Change) : Except HubError Unit × Hub :=
  h.publish .stateChanged (some c.entityId) c.data

/-- Sets the state and attributes of an entity and tells of it. The change stays even if the event
is refused. -/
def setState (h : Hub) (entityId : String) (state : EntityState) (attributes : Attributes) :
    Except HubError Entity × Hub :=
  let (fresh, h) := h.draw
  match h.states.set entityId state attributes fresh h.supply.now with
  | .error rule => (.error (.invalid rule), h)
  | .ok (e, change, states) =>
    let (r, h) := { h with states }.announce change
    (r.map fun _ => e, h)

/-- Stores a whole entity and tells of it. -/
def insertState (h : Hub) (e : Entity) : Except HubError Entity × Hub :=
  match h.states.insertEntity e with
  | .error rule => (.error (.invalid rule), h)
  | .ok (change, states) =>
    let (r, h) := { h with states }.announce change
    (r.map fun _ => e, h)

/-- Removes an entity and tells of it, if it exists. -/
def removeState (h : Hub) (entityId : String) : Except HubError (Option Entity) × Hub :=
  match h.states.removeEntity entityId with
  | none => (.ok none, h)
  | some (change, states) =>
    let (r, h) := { h with states }.announce change
    (r.map fun _ => change.old, h)

end Hub

end HomeHub
