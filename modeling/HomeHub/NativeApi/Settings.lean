import HomeHub.Json.Reader

/-!
# Settings of the native API client
-/

namespace HomeHub.NativeApi

open Json (Reader Shape)

structure Settings where
  /-- What the client calls itself in the hello message. -/
  clientInfo : String := "homelink"
  /-- The limit for resolving and for connecting, in seconds. -/
  connectTimeout : Nat := 10
  /-- The limit for one request and its answer, in seconds. -/
  requestTimeout : Nat := 10
  deriving DecidableEq, Repr, Inhabited

def Settings.shape : Shape Settings :=
  Settings.mk <$> .defaulted "client_info" Reader.text "homelink"
    <*> .defaulted "connect_timeout_secs" (Reader.natUpTo Json.maxNat) 10
    <*> .defaulted "request_timeout_secs" (Reader.natUpTo Json.maxNat) 10

def Settings.toJson (s : Settings) : Json :=
  .record [
    ("client_info", .str s.clientInfo),
    ("connect_timeout", .nat s.connectTimeout),
    ("request_timeout", .nat s.requestTimeout)]

instance : ToJson Settings := ⟨Settings.toJson⟩

end HomeHub.NativeApi
