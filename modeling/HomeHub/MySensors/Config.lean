import HomeHub.Json.Reader
import HomeHub.MySensors.Error
import HomeHub.Text.Blank

/-!
# Settings of a gateway

They are the data of its config entry. `Config.validate` says which settings can be used.
-/

namespace HomeHub.MySensors

open Json (Reader Shape)

/-- How a gateway is attached. -/
inductive GatewayType where
  | serial
  | tcp
  | mqtt
  deriving DecidableEq, Repr, Inhabited

namespace GatewayType

def text : GatewayType → String
  | .serial => "serial"
  | .tcp => "tcp"
  | .mqtt => "mqtt"

def ofText? (s : String) : Option GatewayType := [.serial, .tcp, .mqtt].find? (·.text == s)

end GatewayType

structure Config where
  gatewayType : GatewayType := .serial
  /-- A serial port, a host or a topic, as the type has it. -/
  device : String := ""
  baudRate : UInt32 := 115200
  tcpPort : UInt16 := 5003
  /-- The version of the protocol. -/
  version : String := "2.3"
  /-- Where nodes are kept between runs. -/
  nodeFile : Option String := none
  deriving DecidableEq, Repr, Inhabited

/-- Tells whether a device is a serial port: it must have a name and be present. -/
def isSerialPort (present : String → Bool) (device : String) : Bool := device ≠ "" && present device

namespace Config

def shape : Shape Config :=
  Config.mk <$> .defaulted "gateway_type" (Reader.choice GatewayType.ofText?) .serial
    <*> .defaulted "device" Reader.text ""
    <*> .defaulted "baud_rate" (fun depth node =>
      (Reader.natUpTo 0xFFFFFFFF depth node).map UInt32.ofNat) 115200
    <*> .defaulted "tcp_port" (fun depth node =>
      (Reader.natUpTo 65535 depth node).map UInt16.ofNat) 5003
    <*> .defaulted "version" Reader.text "2.3"
    <*> .defaulted "persistence_file" (.option Reader.text) none

def ofJson (j : Json) : Except GatewayError Config :=
  (Json.decode shape.read j).mapError fun _ => .malformed

def toJson (c : Config) : Json :=
  .record [
    ("gateway_type", .str c.gatewayType.text),
    ("device", .str c.device),
    ("baud_rate", .of c.baudRate),
    ("tcp_port", .of c.tcpPort),
    ("version", .str c.version),
    ("persistence_file", .of c.nodeFile)]

instance : ToJson Config := ⟨toJson⟩

/-- Two bytes around the first point. -/
def isVersion (s : String) : Bool :=
  let isByte (cs : List Char) : Bool := (Decimal.natUpTo? 255 (String.ofList cs)).isSome
  let cs := s.toList
  match cs.dropWhile (· != '.') with
  | [] => false
  | _ :: minor => isByte (cs.takeWhile (· != '.')) && isByte minor

/-- A serial gateway needs a serial port and a baud rate, any other one a device. -/
def validate (c : Config) (isPort : String → Bool) : Except GatewayError Unit :=
  let deviceFits := match c.gatewayType with
    | .serial => isPort c.device
    | .tcp | .mqtt => !isAllBlank c.device
  if !deviceFits then .error (.device c.device)
  else if c.gatewayType = .serial && c.baudRate = 0 then .error .zeroBaudRate
  else if !isVersion c.version then .error (.version c.version)
  else .ok ()

end Config

end HomeHub.MySensors
