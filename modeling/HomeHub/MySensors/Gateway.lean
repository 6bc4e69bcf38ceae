import HomeHub.EventBus
import HomeHub.MySensors.Config
import HomeHub.MySensors.Discovery
import HomeHub.Service

/-!
# Gateways

A gateway keeps the nodes that presented themselves and talks to them over a link. Lines that come
in update the nodes; a service call sends a value to a child.
-/

namespace HomeHub.MySensors

/-! ### The link -/

/-- What is done with a link. -/
inductive LinkAction where
  | connect
  | disconnect
  | send (line : String)
  deriving DecidableEq, Repr

/-- The name of the kind of an action. -/
def LinkAction.kind : LinkAction → String
  | .connect => "connect"
  | .disconnect => "disconnect"
  | .send _ => "send"

def LinkAction.text : LinkAction → String
  | .send line => "send " ++ line
  | a => a.kind

/-- A link, which can be made to fail. -/
structure Link where
  /-- What succeeded, oldest first. -/
  done : List LinkAction := []
  /-- How many actions were tried. -/
  tried : Nat := 0
  /-- The reason for which the n-th action fails, if it does. -/
  fails : Nat → LinkAction → Option String := fun _ _ => none
  deriving Inhabited

def Link.perform (l : Link) (a : LinkAction) : Except GatewayError Unit × Link :=
  let tried := l.tried + 1
  match l.fails l.tried a with
  | some reason => (.error (.transport reason), { l with tried })
  | none => (.ok (), { l with done := l.done ++ [a], tried })

/-! ### Lines -/

/-- A node that presents itself, or a child of its, for the first time. -/
def Node.new (id : UInt8) : Node := { sensorId := id, type := 17 }

/-- A presentation of a child, whose values are kept. -/
def Node.presentChild (n : Node) (childId type : UInt8) (description : String) : Node :=
  let child := (n.children.get? childId).getD { id := childId, presentation := type }
  { n with
    children := n.children.insert childId { child with presentation := type, description } }

/-- What a node reports about itself. -/
def Node.report (n : Node) (type : UInt8) (payload : String) : Node :=
  if type = 0 then
    match Decimal.natUpTo? 255 payload with
    | some level => { n with batteryLevel := UInt8.ofNat level }
    | none => n
  else if type = 11 then { n with sketchName := some payload }
  else if type = 12 then { n with sketchVersion := some payload }
  else n

namespace Nodes

/-- A child that must be known. -/
def child (t : Nodes) (nodeId childId : UInt8) : Except GatewayError (Node × Child) :=
  match t.get? nodeId with
  | none => .error (.unknownNode nodeId)
  | some n =>
    match n.children.get? childId with
    | none => .error (.unknownChild nodeId childId)
    | some c => .ok (n, c)

/-- Stores a value of a child that must be known. -/
def setValue (t : Nodes) (nodeId childId type : UInt8) (payload : String) :
    Except GatewayError Nodes := do
  let (n, c) ← t.child nodeId childId
  let c := { c with values := c.values.insert type payload }
  return t.insert nodeId { n with children := n.children.insert childId c }

/-- Takes in a presentation; one by the node's own child is of the node itself. -/
def present (t : Nodes) (m : Message) : Nodes :=
  let n := (t.get? m.nodeId).getD (Node.new m.nodeId)
  t.insert m.nodeId <|
    if m.childId = Message.selfId then
      { n with type := m.type, protocolVersion := some m.payload }
    else n.presentChild m.childId m.type m.payload

/-- Takes in a message. Gives the child whose value it sets, if any. -/
def receive (t : Nodes) (m : Message) : Except GatewayError (Option (UInt8 × UInt8) × Nodes) :=
  match m.command with
  | .set => (t.setValue m.nodeId m.childId m.type m.payload).map fun t =>
      (some (m.nodeId, m.childId), t)
  | .presentation => .ok (none, t.present m)
  | .internal => .ok (none, t.modify m.nodeId (·.report m.type m.payload))
  | .req | .stream => .ok (none, t)

/-- Takes in a line. -/
def receiveLine (t : Nodes) (line : String) :
    Except GatewayError (Option (UInt8 × UInt8) × Nodes) := do
  t.receive (← (Message.parse line).mapError fun f => .protocol f.text)

end Nodes

/-! ### The gateway -/

structure Gateway where
  config : Config
  nodes : Nodes := .empty
  connected : Bool := false
  link : Link := {}
  /-- The file with the nodes of earlier runs. -/
  file : NodeFile := .missing
  /-- Tells which devices are serial ports. -/
  isPort : String → Bool := fun _ => true
  publisher : Publisher
  supply : Supply
  deriving Inhabited

namespace Gateway

/-- Adds the nodes of earlier runs. -/
def loadNodes (g : Gateway) : Except GatewayError Unit × Gateway :=
  match g.file.load with
  | .error e => (.error e, g)
  | .ok nodes => (.ok (), { g with nodes := g.nodes.merge nodes })

/-- Takes the gateway as connected and tells of it. -/
def announce (g : Gateway) : Except GatewayError Unit × Gateway :=
  let data := .record [
    ("device", .str g.config.device),
    ("gateway_type", .str g.config.gatewayType.text),
    ("version", .str g.config.version)]
  let (event, supply) := Event.make .gatewayConnected none data g.supply
  let (r, publisher) := g.publisher.publish event
  (r.mapError .hub, { g with connected := true, publisher, supply })

def connect (g : Gateway) : Except GatewayError Unit × Gateway :=
  match g.link.perform .connect with
  | (.error e, link) => (.error e, { g with link })
  | (.ok (), link) => { g with link }.announce

/-- Gives up the link, if there is one. The gateway counts as disconnected even if that fails. -/
def disconnect (g : Gateway) : Except GatewayError Unit × Gateway :=
  if g.connected then
    let (r, link) := g.link.perform .disconnect
    (r, { g with connected := false, link })
  else (.ok (), g)

/-- Sends a value to a child, and stores it once it is sent. -/
def setChildValue (g : Gateway) (nodeId childId type : UInt8) (value : String) :
    Except GatewayError Unit × Gateway :=
  match g.nodes.setValue nodeId childId type value with
  | .error e => (.error e, g)
  | .ok nodes =>
    if !g.connected then (.error .notConnected, g) else
    match g.link.perform (.send (Message.set nodeId childId type value).encode) with
    | (.error e, link) => (.error e, { g with link })
    | (.ok (), link) => (.ok (), { g with link, nodes })

/-- Takes in a line that came over the link. -/
def receiveLine (g : Gateway) (line : String) :
    Except GatewayError (Option (UInt8 × UInt8)) × Gateway :=
  match g.nodes.receiveLine line with
  | .error e => (.error e, g)
  | .ok (changed, nodes) => (.ok changed, { g with nodes })

/-! ### The integration -/

/-- The devices of all nodes. -/
def discover (g : Gateway) : Except HubError (List Discovered) × Gateway :=
  match discoverAll g.config.device g.nodes.values g.supply with
  | .error e => (.error e, g)
  | .ok (devices, supply) => (.ok devices, { g with supply })

/-- Checks the settings, loads the nodes and connects, up to the first step that fails. -/
def start (g : Gateway) : Except GatewayError Unit × Gateway :=
  match g.config.validate g.isPort with
  | .error e => (.error e, g)
  | .ok () =>
    match g.loadNodes with
    | (.error e, g) => (.error e, g)
    | (.ok (), g) => g.connect

def setup (g : Gateway) : Except HubError (List Discovered) × Gateway :=
  match g.start with
  | (.error e, g) => (.error e.hubError, g)
  | (.ok (), g) => g.discover

def teardown (g : Gateway) : Except HubError Unit × Gateway :=
  let (r, g) := g.disconnect
  (r.mapError GatewayError.hubError, g)

/-- A field of a service call that must be a byte. -/
def byteField (call : ServiceCall) (key : String) : Except HubError UInt8 :=
  match ((call.get? key).bind Json.nat?).filter (· ≤ 255) with
  | some n => .ok (UInt8.ofNat n)
  | none => .error (.invalid (.input (key ++ " must be an integer in 0..=255")))

/-- The value of a service call, as it is sent. -/
def valueField (call : ServiceCall) : Except HubError String :=
  match call.get? "value" with
  | some (.str s) => .ok s
  | some (.num n) => .ok n.text
  | some (.bool b) => .ok (toString b.toNat)
  | _ => .error (.invalid (.input "value must be a string or a number"))

/-- The child, type and value that a service call is about. -/
def request (call : ServiceCall) : Except HubError (UInt8 × UInt8 × UInt8 × String) := do
  if call.domain ≠ domain || call.service ≠ "set_child_value" then
    throw (.invalid (.input ("unsupported service " ++ call.text)))
  let nodeId ← byteField call "node_id"
  let childId ← byteField call "child_id"
  let type ← byteField call "value_type"
  let value ← valueField call
  return (nodeId, childId, type, value)

def handleCall (g : Gateway) (call : ServiceCall) : Except HubError Unit × Gateway :=
  match request call with
  | .error e => (.error e, g)
  | .ok (nodeId, childId, type, value) =>
    let (r, g) := g.setChildValue nodeId childId type value
    (r.mapError GatewayError.hubError, g)

end Gateway

end HomeHub.MySensors
