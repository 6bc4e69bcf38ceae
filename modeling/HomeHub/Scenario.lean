import HomeHub.Device
import HomeHub.Hub
import HomeHub.Light

/-!
# Scenarios

A scenario is a JSON description of a hub before anything happens: how the nodes answer, which
entries are stored and what is known of those that are loaded. The parts of it, entities, entries
and devices, are given by what is known of them; the rest is filled in as for any new one.
-/

namespace HomeHub

namespace Json

/-- A member that holds an identifier. -/
def uuid? (j : Json) (key : String) : Option Uuid := (j.string? key).bind Uuid.parse?

/-- A member that holds a time. -/
def time? (j : Json) (key : String) : Option Timestamp := (j.string? key).bind Timestamp.parse?

/-- The members as attributes. -/
def attributes (j : Json) : Attributes :=
  .ofList (j.members.map fun (key, value) => (key, .ofJson value))

end Json

namespace Scenario

def entity (j : Json) (s : Supply) : Except Invalid Entity × Supply :=
  let (fresh, s) := s.draw
  let draft : Entity.Draft := {
    id := j.uuid? "id"
    deviceId := j.uuid? "device_id"
    entityId := j.string "entity_id"
    friendlyName := j.string? "friendly_name"
    state := ((j.string? "state").map EntityState.ofText).getD .unknown
    attributes := (j.field "attributes").attributes }
  let e := (draft.build fresh s.now).map fun e => { e with
    lastChanged := (j.time? "last_changed").getD e.lastChanged
    lastUpdated := (j.time? "last_updated").getD e.lastUpdated }
  (e, s)

def entry (j : Json) (s : Supply) : Except Invalid Entry × Supply :=
  let (fresh, s) := s.draw
  let entry : Except Invalid Entry := do
    let source ← ((j.string? "source").map Source.parse).getD (.ok .user)
    let draft : Entry.Draft := {
      id := j.uuid? "id"
      domain := j.string "domain"
      title := j.string "title"
      uniqueId := j.string? "unique_id"
      source := source
      data := j.get? "data" }
    let e ← draft.build fresh s.now
    return { e with createdAt := (j.time? "created_at").getD e.createdAt }
  (entry, s)

def device (j : Json) (s : Supply) : Except Invalid Device × Supply :=
  let (fresh, s) := s.draw
  let draft : Device.Draft := {
    id := j.uuid? "id"
    name := j.string "name"
    manufacturer := j.string? "manufacturer"
    model := j.string? "model"
    integration := j.string "integration"
    uniqueId := j.string? "unique_id" }
  (draft.build fresh, s)

/-! ### Nodes -/

def contactError (j : Json) : ContactError :=
  let reason := j.string "reason"
  match j.string "kind" with
  | "Resolve" => .resolve (j.string "host") reason
  | "Connect" => .connect (j.string "address") reason
  | "InvalidPassword" => .invalidPassword
  | "Protocol" => .protocol reason
  | "Io" => .io reason
  | _ => .timeout

def deviceInfo? (j : Json) : Option DeviceInfo := (Json.decode DeviceInfo.shape.read j).toOption

def behaviour (j : Json) : Behaviour where
  info := (j.given? "info").bind deviceInfo?
  error := (j.given? "error").map contactError
  password := j.string "password"
  loginError := (j.given? "login_error").map contactError

/-- How the nodes answer, by host; `*` stands for all others. -/
def network (j : Json) : Network :=
  let hosts := j.members.map fun (host, b) => (host, behaviour b)
  { hosts := .ofList (hosts.filter (·.1 != "*"))
    others := (hosts.lookup "*").getD {} }

/-! ### The hub -/

/-- Stores entries, each a moment after the one before, and takes those as loaded of whose nodes
something is known. Gives the ids of the entries. -/
def storeEntries : List Json → List Json → Hub → Except HubError (List Uuid × Hub)
  | [], _, h => .ok ([], h)
  | spec :: specs, known, h => do
    let (e, supply) := entry spec h.supply.tick
    let e ← e.mapError .invalid
    let (r, repository, supply) := h.repository.create e supply
    let e ← r
    let h := { h with repository, supply }
    let h := match known.head?.bind deviceInfo? with
      | some info => { h with loaded := h.loaded.insert e.id info }
      | none => h
    let (ids, h) ← storeEntries specs known.tail h
    return (e.id :: ids, h)

/-- Why a hub cannot be set up. -/
inductive SetupError where
  | entry (e : HubError)
  /-- The bus is to hold no events. -/
  | noCapacity

/-- The hub, with the ids of its entries. The entries are stored before the bus is opened. -/
def hub (j : Json) (supply : Supply) : Except SetupError (List Uuid × Hub) := do
  let start : Hub := { supply, network := network (j.field "device"), publisher := default }
  let (ids, h) ← (storeEntries (j.items "entries") (j.items "loaded") start).mapError .entry
  match EventBus.open? (((j.field "capacity").nat?).getD 64) with
  | some bus => return (ids, { h with publisher := { bus } })
  | none => throw .noCapacity

end Scenario

end HomeHub
