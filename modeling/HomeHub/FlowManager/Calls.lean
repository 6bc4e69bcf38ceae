import HomeHub.FlowManager.Job

/-!
# What a front end asks of the flow manager

Starting a flow, submitting its form, showing it, listing all flows and dropping one.
-/

namespace HomeHub

namespace FlowResponse

def toJson (r : FlowResponse) : Json :=
  .record ([
    ("flow_id", .str r.flowId.text),
    ("handler", .str nativeApiDomain),
    ("result", r.result.toJson)] ++
    match r.entry with
    | some e => [("entry", e.toJson)]
    | none => [])

instance : ToJson FlowResponse := ⟨toJson⟩

end FlowResponse

/-- A registered flow as a list shows it. -/
structure FlowProgress where
  flowId : Uuid
  source : Source
  step : Flow.Step
  name : Option String
  deriving DecidableEq, Inhabited

def FlowProgress.toJson (p : FlowProgress) : Json :=
  .record ([
    ("flow_id", .str p.flowId.text),
    ("handler", .str nativeApiDomain),
    ("source", .str p.source.text),
    ("step_id", .str p.step.text)] ++
    match p.name with
    | some name => [("name", .str name)]
    | none => [])

instance : ToJson FlowProgress := ⟨FlowProgress.toJson⟩

namespace Hub

/-- The call that starts a flow. A user flow shows its form at once; a zeroconf flow needs the
announcement. -/
def initJob (h : Hub) (source : Source) (announcement : Option Announcement) : Job × Hub :=
  let (id, h) := h.draw
  match source, announcement with
  | .user, _ =>
    let (f, form) := Flow.showUser { source := .user } none
    ({ flowId := id, stage := .register f form }, h)
  | .zeroconf, some a => ({ flowId := id, stage := .claim a }, h)
  | .zeroconf, none =>
    ({ flowId := id
       stage := .done (.error (.invalid (.input "zeroconf flow needs discovery info"))) }, h)

/-- The call that submits a form. -/
def configureJob (id : Uuid) (input : Json) : Job := { flowId := id, stage := .begin input }

def initFlow (h : Hub) (source : Source) (announcement : Option Announcement) :
    Except HubError FlowResponse × Hub :=
  let (j, h) := h.initJob source announcement
  j.run h

def configureFlow (h : Hub) (id : Uuid) (input : Json) : Except HubError FlowResponse × Hub :=
  (configureJob id input).run h

/-- The form that a flow shows. -/
def getFlow (h : Hub) (id : Uuid) : Except HubError FlowResponse :=
  match h.flows.flows.get? id with
  | some p => .ok ⟨id, p.last, none⟩
  | none => .error (Job.flowNotFound id)

def abortFlow (h : Hub) (id : Uuid) : Except HubError Unit × Hub :=
  match h.flows.flows.get? id with
  | some _ => (.ok (), { h with flows := h.flows.remove id })
  | none => (.error (Job.flowNotFound id), h)

/-- All flows. A front end may not rely on their order, which is the one that `FlowTable` has chosen. -/
def listFlows (h : Hub) : List FlowProgress :=
  h.flows.flows.pairs.map fun (id, p) => ⟨id, p.flow.source, p.flow.step, p.flow.name⟩

end Hub

end HomeHub
