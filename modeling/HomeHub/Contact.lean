import HomeHub.Connection

/-!
# Contacting nodes

A node can be asked to describe itself and to accept a password. `Network` is how the nodes
currently behave, by host; `Contact` is the record of one such call.
-/

namespace HomeHub

/-- Why talking to a node failed. -/
inductive ContactError where
  /-- The host name leads to no address. -/
  | resolve (host reason : String)
  /-- No connection was made. -/
  | connect (address reason : String)
  /-- The node did not answer in time. -/
  | timeout
  | invalidPassword
  /-- The node answered something unexpected. -/
  | protocol (reason : String)
  /-- The connection broke. -/
  | io (reason : String)
  deriving DecidableEq, Repr, Inhabited

namespace ContactError

def message : ContactError → String
  | .resolve host reason => "error resolving " ++ host ++ ": " ++ reason
  | .connect address reason => "error connecting to " ++ address ++ ": " ++ reason
  | .timeout => "timeout while talking to the device"
  | .invalidPassword => "invalid password"
  | .protocol reason => "protocol error: " ++ reason
  | .io reason => "io error: " ++ reason

def isResolve : ContactError → Bool
  | .resolve .. => true
  | _ => false

/-- The name of the kind of an error. -/
def kind : ContactError → String
  | .resolve .. => "Resolve"
  | .connect .. => "Connect"
  | .timeout => "Timeout"
  | .invalidPassword => "InvalidPassword"
  | .protocol _ => "Protocol"
  | .io _ => "Io"

def toJson (e : ContactError) : Json :=
  .record [
    ("error", .str e.kind),
    ("message", .str e.message),
    ("is_resolve", .bool e.isResolve)]

instance : ToJson ContactError := ⟨toJson⟩

end ContactError

/-- How a node answers. -/
structure Behaviour where
  info : Option DeviceInfo := none
  /-- What a request for a description fails with. -/
  error : Option ContactError := none
  /-- The password that the node accepts. -/
  password : String := ""
  /-- What a login fails with. -/
  loginError : Option ContactError := none
  deriving DecidableEq, Inhabited

/-- How the nodes answer, by host, and how all other hosts do. -/
structure Network where
  hosts : Table String Behaviour
  others : Behaviour := {}
  deriving DecidableEq, Inhabited

namespace Network

def behaviour (n : Network) (host : String) : Behaviour := (n.hosts.get? host).getD n.others

/-- Asks a node to describe itself. -/
def describe (n : Network) (t : Target) : Except ContactError DeviceInfo :=
  let b := n.behaviour t.host
  match b.error, b.info with
  | some e, _ => .error e
  | none, some info => .ok info
  | none, none => .error .timeout

/-- Logs in with the password of the target. -/
def login (n : Network) (t : Target) : Except ContactError Unit :=
  let b := n.behaviour t.host
  match b.loginError with
  | some e => .error e
  | none => if t.password = b.password then .ok () else .error .invalidPassword

end Network

inductive ContactKind where
  | deviceInfo
  | login
  deriving DecidableEq, Repr, Inhabited

def ContactKind.text : ContactKind → String
  | .deviceInfo => "device_info"
  | .login => "login"

/-- A call that was made to a node. -/
structure Contact where
  kind : ContactKind
  target : Target
  deriving DecidableEq, Repr, Inhabited

instance : ToJson Contact := ⟨fun c => .insert c.target.toJson "call" (.str c.kind.text)⟩

end HomeHub
