import HomeHub.Flow.Form

/-!
# Config flows of nodes

A flow leads from the address of a node to its config entry:

    user ───────────────┐
                        ├─> ask the node ─┬─> authenticate ─> entry
    zeroconf ─> confirm ┘                 └─────────────────> entry

A `Flow` is what one such flow has learned so far, and the step it waits on.
-/

namespace HomeHub

structure Flow where
  source : Source
  step : Flow.Step := .user
  host : Option String := none
  port : Option UInt16 := none
  password : Option String := none
  /-- The name of the node. -/
  name : Option String := none
  uniqueId : Option String := none
  deriving DecidableEq, Repr, Inhabited

namespace Flow

def portOrDefault (f : Flow) : UInt16 := f.port.getD defaultPort

/-- The flow waits on the user form, filled in with what is known. -/
def showUser (f : Flow) (error : Option FormError) : Flow × Result :=
  let f := { f with step := .user }
  (f, .form (.user f.host f.portOrDefault error))

def showConfirm (f : Flow) : Flow × Result :=
  let f := { f with step := .discoveryConfirm }
  (f, .form (.discoveryConfirm f.name))

def showAuthenticate (f : Flow) (error : Option FormError) : Flow × Result :=
  let f := { f with step := .authenticate }
  (f, .form (.authenticate f.name error))

/-- Where the node is asked to describe itself; that needs no password. -/
def describeTarget (f : Flow) : Target := ⟨f.host.getD "", f.portOrDefault, ""⟩

/-- Where the flow logs in, which needs a host. -/
def target (f : Flow) : Except Invalid Target :=
  match f.host with
  | some host => .ok ⟨host, f.portOrDefault, f.password.getD ""⟩
  | none => .error .emptyHost

/-- The entry that the flow leads to, which needs a name and a host. -/
def newEntry (f : Flow) : Except Invalid NewEntry :=
  match f.name with
  | none => .error .emptyName
  | some title => do
    let t ← f.target
    return ⟨title, ⟨t.host, t.port, t.password⟩, f.uniqueId, f.source⟩

end Flow

end HomeHub
