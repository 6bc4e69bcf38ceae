import HomeHub.Hub
import HomeHub.Text.Slug

/-!
# Loading nodes at startup

Every stored entry of a node is contacted once, in listing order. An entry whose node answers is
loaded, and each node gets an entity that tells whether it answered. An entry with unreadable data
is skipped, and whatever else fails for one entry does not concern the others.
-/

namespace HomeHub

/-- The entity of a node, named after its unique id or else its title. -/
def statusEntity (e : Entry) (data : EntryData) (info : Option DeviceInfo) (fresh : Uuid)
    (now : Timestamp) : Except Invalid Entity :=
  let version := match info with
    | some info => [("version", Attribute.text info.version), ("model", .text info.model)]
    | none => []
  Entity.Draft.build {
    entityId := "binary_sensor." ++ slug (e.uniqueId.getD e.title) ++ "_status"
    friendlyName := some (e.title ++ " status")
    state := if info.isSome then .on else .unavailable
    attributes :=
      .ofList ([("host", .text data.host), ("port", .int data.port.toNat)] ++ version) } fresh now

namespace Hub

/-- Stores and tells the state of a node's entity, as far as that succeeds. -/
def setStatus (h : Hub) (e : Entry) (data : EntryData) (info : Option DeviceInfo) : Hub :=
  let (fresh, h) := h.draw
  match statusEntity e data info fresh h.supply.now with
  | .error _ => h
  | .ok entity => (h.insertState entity).2

/-- Contacts the node of one entry and tells whether it answered. -/
def loadEntry (h : Hub) (e : Entry) : Bool × Hub :=
  match Json.decode EntryData.shape.read e.data with
  | .error _ => (false, h)
  | .ok data =>
    let (r, h) := h.describe data.target
    match r with
    | .ok info => (true, { h with loaded := h.loaded.insert e.id info }.setStatus e data (some info))
    | .error _ => (false, h.setStatus e data none)

/-- Loads entries and counts those whose nodes answered. -/
def loadAll (h : Hub) : List Entry → Nat × Hub
  | [] => (0, h)
  | e :: r =>
    let (answered, h) := h.loadEntry e
    let (n, h) := h.loadAll r
    (n + answered.toNat, h)

/-- Loads the entries of all nodes. -/
def loadEntries (h : Hub) : Except HubError Nat × Hub :=
  match h.repository.ofDomain nativeApiDomain with
  | .error err => (.error err, h)
  | .ok entries =>
    let (n, h) := h.loadAll entries
    (.ok n, h)

end Hub

end HomeHub
