import HomeHub.Flow.Basic

/-!
# The table of flows in progress

A flow stays registered while one of its steps runs; it is then busy. A discovery whose first step
runs has no flow yet, so its node name is claimed instead.
-/

namespace HomeHub

/-- A registered flow. -/
structure InProgress where
  flow : Flow
  /-- The form it shows. -/
  last : Flow.Result
  /-- Whether a step of it runs. -/
  busy : Bool
  deriving DecidableEq, Inhabited

/-- The flows by their ids. A table has to keep them in some order and this one goes by the ids, which
is a choice: nobody is promised an order, and only `Hub.listFlows` shows one. -/
structure FlowTable where
  flows : Table Uuid InProgress := .empty
  /-- The node names of discoveries whose first step runs. -/
  claimed : List String := []
  deriving DecidableEq, Inhabited

namespace FlowTable

/-- Whether a discovery or a registered flow is about the node of this name. -/
def inProgress (t : FlowTable) (name : String) : Bool :=
  t.claimed.contains name || t.flows.values.any (·.flow.uniqueId == some name)

def claim (t : FlowTable) (name : String) : FlowTable := { t with claimed := name :: t.claimed }

def unclaim (t : FlowTable) (name : String) : FlowTable :=
  { t with claimed := t.claimed.filter (· != name) }

/-- Registers a flow with the form it shows, idle. -/
def register (t : FlowTable) (id : Uuid) (flow : Flow) (last : Flow.Result) : FlowTable :=
  { t with flows := t.flows.insert id ⟨flow, last, false⟩ }

def setBusy (t : FlowTable) (id : Uuid) (busy : Bool) : FlowTable :=
  { t with flows := t.flows.modify id fun p => { p with busy } }

def remove (t : FlowTable) (id : Uuid) : FlowTable := { t with flows := t.flows.erase id }

end FlowTable

end HomeHub
