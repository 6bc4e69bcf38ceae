import HomeHub.FlowManager.Calls
import HomeHub.Http.Request
import HomeHub.Http.Route
import HomeHub.Json.Printer

/-!
# The web interface

Clients list and delete config entries, drive flows, look at entity states and follow events.
`Hub.serve` answers a request: first the path is looked up, then the method; then the path, the
query and the body are read; only then is the hub asked.
-/

namespace HomeHub.Http

/-- What the body of a request for a new flow holds. -/
structure NewFlow where
  source : Source
  announcement : Option Announcement

def NewFlow.shape : Json.Shape NewFlow :=
  NewFlow.mk <$> .defaulted "source" Source.reader .user
    <*> .optional "discovery" Announcement.shape.read

/-- An event in a stream. -/
structure Frame where
  name : String
  data : String
  deriving DecidableEq, Repr, Inhabited

def Frame.ofEvent (e : Event) : Frame := ⟨e.eventType.text, e.toJson.text⟩

end HomeHub.Http

namespace HomeHub.Hub

open Http

/-! ### Config entries -/

/-- All entries, or those of the domain that the query names. -/
def serveEntries (h : Hub) (r : Request) : Except Response Response := do
  match ← r.field "domain" with
  | some domain => return .ofResult (h.repository.ofDomain domain)
  | none => return .ofResult h.repository.all

def serveEntry (h : Hub) (id : String) : Except Response Response := do
  return .ofResult (h.repository.getEntry (← identifier (← pathText id)))

def serveDeleteEntry (h : Hub) (id : String) : Except Response (Response × Hub) := do
  let (r, h) := h.deleteEntry (← identifier (← pathText id))
  return (.ofDone r, h)

/-! ### Flows -/

def serveNewFlow (h : Hub) (r : Request) : Except Response (Response × Hub) := do
  let new ← r.decode NewFlow.shape.read
  let (r, h) := h.initFlow new.source new.announcement
  return (.ofResult r, h)

def serveFlow (h : Hub) (id : String) : Except Response Response := do
  return .ofResult (h.getFlow (← identifier (← pathText id)))

/-- Submits the form of a flow. The body is read before the identifier is. -/
def serveForm (h : Hub) (id : String) (r : Request) : Except Response (Response × Hub) := do
  let id ← pathText id
  let input ← r.decode Json.Reader.value
  let (r, h) := h.configureFlow (← identifier id) input
  return (.ofResult r, h)

def serveAbort (h : Hub) (id : String) : Except Response (Response × Hub) := do
  let (r, h) := h.abortFlow (← identifier (← pathText id))
  return (.ofDone r, h)

/-! ### Entity states -/

def serveState (h : Hub) (entityId : String) : Except Response Response := do
  let entityId ← pathText entityId
  match h.states.get? entityId with
  | some e => return .ofValue e
  | none => return .ofError (.notFound ⟨"Entity", entityId⟩)

/-! ### Events -/

/-- Opens a stream of the events from now on. -/
def serveEvents (h : Hub) : Response × Hub :=
  let (subscription, bus) := h.publisher.bus.subscribe
  ({ status := 200, body := .stream subscription },
    { h with publisher := { h.publisher with bus } })

/-- The events that wait in a stream. Of those that were missed nothing is told. -/
def readStream (h : Hub) (subscription : Nat) : List Frame × Hub :=
  let (events, bus) := h.publisher.bus.drain subscription
  (events.map .ofEvent, { h with publisher := { h.publisher with bus } })

/-! ### All requests -/

/-- A response that leaves the hub as it is. -/
def unchanged (h : Hub) : Except Response Response → Response × Hub
  | .ok r => (r, h)
  | .error r => (r, h)

/-- A response together with the hub afterwards; a refused request leaves it as it is. -/
def orUnchanged (h : Hub) : Except Response (Response × Hub) → Response × Hub
  | .ok r => r
  | .error r => (r, h)

/-- Answers a request on a route, by any method but `head`. -/
def respond (h : Hub) (r : Request) : Method → Route → Response × Hub
  | .get, .health => ({ status := 200, body := .text "OK" }, h)
  | .get, .entries => h.unchanged (h.serveEntries r)
  | .get, .entry id => h.unchanged (h.serveEntry id)
  | .delete, .entry id => h.orUnchanged (h.serveDeleteEntry id)
  | .get, .flows => (.ofValue h.listFlows, h)
  | .post, .flows => h.orUnchanged (h.serveNewFlow r)
  | .get, .flow id => h.unchanged (h.serveFlow id)
  | .post, .flow id => h.orUnchanged (h.serveForm id r)
  | .delete, .flow id => h.orUnchanged (h.serveAbort id)
  | .get, .states => (.ofValue h.states.all, h)
  | .get, .state entityId => h.unchanged (h.serveState entityId)
  | .get, .events => h.serveEvents
  | _, _ => (.refusal 405, h)

def serve (h : Hub) (r : Request) : Response × Hub :=
  match Route.ofPath? r.path with
  | none => (.refusal 404, h)
  | some route =>
    match r.method with
    | .head => ((h.respond r .get route).1.withoutBody, h)
    | method => h.respond r method route

end HomeHub.Hub
