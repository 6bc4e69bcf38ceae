import HomeHub.Error
import HomeHub.Json.Reader
import HomeHub.Text.Blank

/-!
# Reaching a node

How a node of the native API is reached, what it reports about itself, what its config entry
stores, and how it announces itself on the local network.
-/

namespace HomeHub

open Json (Reader Shape)

/-- Config entries of nodes belong to this domain. -/
def nativeApiDomain : String := "native_api"

/-- The port that nodes listen on unless told otherwise. -/
def defaultPort : UInt16 := 6053

def portReader : Reader UInt16 := fun depth node =>
  (Reader.natUpTo 65535 depth node).map UInt16.ofNat

/-- Where and with which password to open a session; an empty password is none. -/
structure Target where
  host : String
  port : UInt16
  password : String := ""
  deriving DecidableEq, Repr, Inhabited

/-- A target is addressable when its host is not blank and its port is not zero. -/
def Target.validate (t : Target) : Except Invalid Unit :=
  if isAllBlank t.host then .error .emptyHost
  else if t.port = 0 then .error .zeroPort
  else .ok ()

def Target.toJson (t : Target) : Json :=
  .record [("host", .str t.host), ("port", .nat t.port.toNat), ("password", .str t.password)]

instance : ToJson Target := ⟨Target.toJson⟩

/-- What a node reports about itself. -/
structure DeviceInfo where
  /-- Unique on the local network. -/
  name : String
  usesPassword : Bool
  macAddress : String := ""
  version : String := ""
  model : String := ""
  deriving DecidableEq, Repr, Inhabited

namespace DeviceInfo

def shape : Shape DeviceInfo :=
  DeviceInfo.mk <$> .required "name" Reader.text
    <*> .required "uses_password" Reader.bool
    <*> .defaulted "mac_address" Reader.text ""
    <*> .defaulted "version" Reader.text ""
    <*> .defaulted "model" Reader.text ""

def toJson (d : DeviceInfo) : Json :=
  .record [
    ("name", .str d.name),
    ("uses_password", .bool d.usesPassword),
    ("mac_address", .str d.macAddress),
    ("version", .str d.version),
    ("model", .str d.model)]

instance : ToJson DeviceInfo := ⟨toJson⟩

end DeviceInfo

/-- The data of a node's config entry. -/
structure EntryData where
  host : String
  port : UInt16
  password : String := ""
  deriving DecidableEq, Repr, Inhabited

namespace EntryData

def shape : Shape EntryData :=
  EntryData.mk <$> .required "host" Reader.text
    <*> .required "port" portReader
    <*> .defaulted "password" Reader.text ""

def toJson (d : EntryData) : Json :=
  .record [("host", .str d.host), ("port", .nat d.port.toNat), ("password", .str d.password)]

instance : ToJson EntryData := ⟨toJson⟩

def target (d : EntryData) : Target := ⟨d.host, d.port, d.password⟩

end EntryData

/-- A node announced on the local network. -/
structure Announcement where
  /-- The address that the announcement came with. -/
  host : String
  port : UInt16
  /-- The full host name, such as `livingroom.local.`. -/
  hostname : String
  properties : Table String String
  deriving DecidableEq, Inhabited

/-- The text before a given ending, or the whole text. -/
def withoutEnding (s ending : String) : String :=
  let cs := s.toList
  let es := ending.toList
  if es.isSuffixOf cs then String.ofList (cs.take (cs.length - es.length)) else s

namespace Announcement

/-- The host name without its final point. -/
def localName (a : Announcement) : String := withoutEnding a.hostname "."

/-- The name of the node without the domain. -/
def nodeName (a : Announcement) : String := withoutEnding a.localName ".local"

/-- The address that the node claims, or else its local name. -/
def address (a : Announcement) : String := (a.properties.get? "address").getD a.localName

def shape : Shape Announcement :=
  Announcement.mk <$> .required "host" Reader.text
    <*> .required "port" portReader
    <*> .required "hostname" Reader.text
    <*> .defaulted "properties" (Reader.table Reader.text) .empty

def toJson (a : Announcement) : Json :=
  .record [
    ("host", .str a.host),
    ("port", .nat a.port.toNat),
    ("hostname", .str a.hostname),
    ("properties", .obj (a.properties.map .str).pairs)]

instance : ToJson Announcement := ⟨toJson⟩

end Announcement

end HomeHub
