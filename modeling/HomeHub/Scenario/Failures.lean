import HomeHub.MySensors.Error
import HomeHub.NativeApi.Failure
import HomeHub.Scenario

/-!
# Failures in scenarios

Failures of nodes and gateways, given by their kinds and what belongs to them.
-/

namespace HomeHub.Scenario

/-- A member that holds a byte. -/
def byte (j : Json) (key : String) : UInt8 := (j.natural key).toUInt8

def nativeFailure (j : Json) : NativeApi.Failure :=
  let reason := j.string "reason"
  match j.string "kind" with
  | "Resolve" => .resolve (j.string "host") reason
  | "NoAddress" => .noAddress (j.string "host")
  | "Connect" => .connect (j.string "address") reason
  | "Timeout" => .timeout .connecting
  | "InvalidPassword" => .invalidPassword
  | "Preamble" => .preamble (byte j "byte")
  | "FrameTooLarge" => .frameTooLarge (j.natural "len")
  | "Decode" => .malformed .wireType
  | _ => .io reason

def gatewayError (j : Json) : MySensors.GatewayError :=
  let text := j.string "text"
  match j.string "kind" with
  | "InvalidDevice" => .device text
  | "InvalidVersion" => .version text
  | "InvalidBaudRate" => .zeroBaudRate
  | "Persistence" => .nodeFile text
  | "Decode" => .malformed
  | "Transport" => .transport text
  | "NotConnected" => .notConnected
  | "Protocol" => .protocol text
  | "UnknownNode" => .unknownNode (byte j "node_id")
  | "UnknownChild" => .unknownChild (byte j "node_id") (byte j "child_id")
  | _ => .hub (.invalid .emptyHost)

end HomeHub.Scenario
