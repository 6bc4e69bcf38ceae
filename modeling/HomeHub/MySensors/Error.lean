import HomeHub.Error
import HomeHub.MySensors.Message

/-!
# Errors of a gateway
-/

namespace HomeHub.MySensors

inductive GatewayError where
  /-- The device does not suit the type of the gateway. -/
  | device (text : String)
  /-- The protocol version is not of the form `major.minor`. -/
  | version (text : String)
  | zeroBaudRate
  /-- The file with the nodes cannot be read. -/
  | nodeFile (path : String)
  /-- Node data or settings that are malformed. -/
  | malformed
  /-- The link to the gateway failed. -/
  | transport (reason : String)
  | notConnected
  /-- A line that is no message. -/
  | protocol (reason : String)
  | unknownNode (nodeId : UInt8)
  | unknownChild (nodeId childId : UInt8)
  | hub (e : HubError)
  deriving DecidableEq, Repr

namespace GatewayError

def message : GatewayError → String
  | .device text => "invalid device " ++ quoted text
  | .version text => "invalid protocol version " ++ quoted text
  | .zeroBaudRate => "baud rate must be non-zero"
  | .nodeFile path => "unable to read persistence file " ++ path
  | .malformed => "malformed node data"
  | .transport reason => "transport error: " ++ reason
  | .notConnected => "gateway not connected"
  | .protocol reason => "protocol error: " ++ reason
  | .unknownNode nodeId => "unknown node " ++ toString nodeId.toNat
  | .unknownChild nodeId childId =>
    "unknown child " ++ toString childId.toNat ++ " on node " ++ toString nodeId.toNat
  | .hub _ => "domain error"

/-- The name of the kind of an error. -/
def kind : GatewayError → String
  | .device _ => "InvalidDevice"
  | .version _ => "InvalidVersion"
  | .zeroBaudRate => "InvalidBaudRate"
  | .nodeFile _ => "Persistence"
  | .malformed => "Decode"
  | .transport _ => "Transport"
  | .notConnected => "NotConnected"
  | .protocol _ => "Protocol"
  | .unknownNode _ => "UnknownNode"
  | .unknownChild .. => "UnknownChild"
  | .hub _ => "Domain"

/-- The error as the hub sees it. -/
def hubError (e : GatewayError) : HubError :=
  match e with
  | .hub e => e
  | .unknownNode nodeId => .notFound ⟨"Node", toString nodeId.toNat⟩
  | .unknownChild nodeId childId =>
    .notFound ⟨"ChildSensor", toString nodeId.toNat ++ "/" ++ toString childId.toNat⟩
  | e => .storage e.message

end GatewayError

end HomeHub.MySensors
