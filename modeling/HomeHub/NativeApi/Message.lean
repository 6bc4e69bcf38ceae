import HomeHub.NativeApi.Frame
import HomeHub.NativeApi.Wire

/-!
# Messages

The messages that a session consists of. `Message.payload` writes one; `MessageKind.decode` reads
one, by starting with an empty message and taking in the fields of the payload one after another.
Fields that a message does not know are passed over.
-/

namespace HomeHub.NativeApi

open Wire (Field Value)

inductive MessageKind where
  | helloRequest
  | helloResponse
  | connectRequest
  | connectResponse
  | disconnectRequest
  | disconnectResponse
  | pingRequest
  | pingResponse
  | deviceInfoRequest
  | deviceInfoResponse
  deriving DecidableEq, Repr

namespace MessageKind

def all : List MessageKind :=
  [.helloRequest, .helloResponse, .connectRequest, .connectResponse, .disconnectRequest,
    .disconnectResponse, .pingRequest, .pingResponse, .deviceInfoRequest, .deviceInfoResponse]

def text : MessageKind → String
  | .helloRequest => "HelloRequest"
  | .helloResponse => "HelloResponse"
  | .connectRequest => "ConnectRequest"
  | .connectResponse => "ConnectResponse"
  | .disconnectRequest => "DisconnectRequest"
  | .disconnectResponse => "DisconnectResponse"
  | .pingRequest => "PingRequest"
  | .pingResponse => "PingResponse"
  | .deviceInfoRequest => "DeviceInfoRequest"
  | .deviceInfoResponse => "DeviceInfoResponse"

def ofText? (s : String) : Option MessageKind := all.find? (·.text == s)

end MessageKind

/-- How a node greets the client. -/
structure Hello where
  major : UInt32 := 0
  minor : UInt32 := 0
  serverInfo : String := ""
  name : String := ""
  deriving DecidableEq, Repr

inductive Message where
  | helloRequest (clientInfo : String)
  | helloResponse (hello : Hello)
  | connectRequest (password : String)
  | connectResponse (invalidPassword : Bool)
  | disconnectRequest
  | disconnectResponse
  | pingRequest
  | pingResponse
  | deviceInfoRequest
  | deviceInfoResponse (info : DeviceInfo)
  deriving DecidableEq, Repr

/-- The number of a kind in the header of a frame. -/
def MessageKind.number : MessageKind → UInt32
  | .helloRequest => 1
  | .helloResponse => 2
  | .connectRequest => 3
  | .connectResponse => 4
  | .disconnectRequest => 5
  | .disconnectResponse => 6
  | .pingRequest => 7
  | .pingResponse => 8
  | .deviceInfoRequest => 9
  | .deviceInfoResponse => 10

/-- The message whose fields are all empty, zero or false. -/
def MessageKind.empty : MessageKind → Message
  | .helloRequest => .helloRequest ""
  | .helloResponse => .helloResponse {}
  | .connectRequest => .connectRequest ""
  | .connectResponse => .connectResponse false
  | .disconnectRequest => .disconnectRequest
  | .disconnectResponse => .disconnectResponse
  | .pingRequest => .pingRequest
  | .pingResponse => .pingResponse
  | .deviceInfoRequest => .deviceInfoRequest
  | .deviceInfoResponse => .deviceInfoResponse { name := "", usesPassword := false }

namespace Message

def kind : Message → MessageKind
  | .helloRequest _ => .helloRequest
  | .helloResponse _ => .helloResponse
  | .connectRequest _ => .connectRequest
  | .connectResponse _ => .connectResponse
  | .disconnectRequest => .disconnectRequest
  | .disconnectResponse => .disconnectResponse
  | .pingRequest => .pingRequest
  | .pingResponse => .pingResponse
  | .deviceInfoRequest => .deviceInfoRequest
  | .deviceInfoResponse _ => .deviceInfoResponse

def payload : Message → List UInt8
  | .helloRequest clientInfo => Wire.text 1 clientInfo
  | .helloResponse h =>
    Wire.uint32 1 h.major ++ Wire.uint32 2 h.minor ++ Wire.text 3 h.serverInfo ++ Wire.text 4 h.name
  | .connectRequest password => Wire.text 1 password
  | .connectResponse invalidPassword => Wire.bool 1 invalidPassword
  | .deviceInfoResponse d =>
    Wire.bool 1 d.usesPassword ++ Wire.text 2 d.name ++ Wire.text 3 d.macAddress
      ++ Wire.text 4 d.version ++ Wire.text 6 d.model
  | .disconnectRequest | .disconnectResponse | .pingRequest | .pingResponse
  | .deviceInfoRequest => []

def frame (m : Message) : Frame := ⟨m.kind.number, m.payload⟩

end Message

/-! ### JSON -/

/-- The message of a kind with these fields; those that are left out are empty, zero or false. -/
def MessageKind.withFields (k : MessageKind) (j : Json) : Message :=
  match k with
  | .helloRequest => .helloRequest (j.string "client_info")
  | .helloResponse => .helloResponse {
      major := UInt32.ofNat (j.natural "api_version_major")
      minor := UInt32.ofNat (j.natural "api_version_minor")
      serverInfo := j.string "server_info"
      name := j.string "name" }
  | .connectRequest => .connectRequest (j.string "password")
  | .connectResponse => .connectResponse (j.flag "invalid_password")
  | .deviceInfoResponse => .deviceInfoResponse {
      name := j.string "name"
      usesPassword := j.flag "uses_password"
      macAddress := j.string "mac_address"
      version := j.string "version"
      model := j.string "model" }
  | k => k.empty

/-- The fields of a message. -/
def Message.toJson : Message → Json
  | .helloRequest clientInfo => .record [("client_info", .str clientInfo)]
  | .helloResponse h => .record [
      ("api_version_major", .of h.major),
      ("api_version_minor", .of h.minor),
      ("server_info", .str h.serverInfo),
      ("name", .str h.name)]
  | .connectRequest password => .record [("password", .str password)]
  | .connectResponse invalidPassword => .record [("invalid_password", .bool invalidPassword)]
  | .deviceInfoResponse info => info.toJson
  | _ => .record []

instance : ToJson Message := ⟨Message.toJson⟩

/-! ### Reading -/

namespace Message

/-- Takes in one field. -/
def absorb (m : Message) (f : Field) : Except Malformed Message :=
  match m, f.number with
  | .helloRequest _, 1 => f.value.text.map .helloRequest
  | .helloResponse h, 1 => .ok (.helloResponse { h with major := f.value.uint32 })
  | .helloResponse h, 2 => .ok (.helloResponse { h with minor := f.value.uint32 })
  | .helloResponse h, 3 => f.value.text.map fun s => .helloResponse { h with serverInfo := s }
  | .helloResponse h, 4 => f.value.text.map fun s => .helloResponse { h with name := s }
  | .connectRequest _, 1 => f.value.text.map .connectRequest
  | .connectResponse _, 1 => .ok (.connectResponse f.value.bool)
  | .deviceInfoResponse d, 1 => .ok (.deviceInfoResponse { d with usesPassword := f.value.bool })
  | .deviceInfoResponse d, 2 => f.value.text.map fun s => .deviceInfoResponse { d with name := s }
  | .deviceInfoResponse d, 3 =>
    f.value.text.map fun s => .deviceInfoResponse { d with macAddress := s }
  | .deviceInfoResponse d, 4 => f.value.text.map fun s => .deviceInfoResponse { d with version := s }
  | .deviceInfoResponse d, 6 => f.value.text.map fun s => .deviceInfoResponse { d with model := s }
  | m, _ => .ok m

end Message

namespace MessageKind

/-- Whether messages of this kind have any fields. The payload of one that has none is not looked
at. -/
def hasFields : MessageKind → Bool
  | .helloRequest | .helloResponse | .connectRequest | .connectResponse | .deviceInfoResponse =>
    true
  | _ => false

def decode (k : MessageKind) (payload : List UInt8) : Except Malformed Message :=
  if k.hasFields then do (← Wire.fields payload).foldlM Message.absorb k.empty
  else .ok k.empty

end MessageKind

end HomeHub.NativeApi
