import HomeHub.Connection
import HomeHub.NativeApi.Settings
import HomeHub.Number.Decimal
import HomeHub.Text.Utf8
import HomeHub.Toml

/-!
# Settings of the hub

Settings come from a TOML file, in which every field may be left out, and then from environment
variables, which win over the file. The result must make sense: see `Settings.validate`.
-/

namespace HomeHub

open Json (Reader Shape)

structure Settings where
  host : String := "0.0.0.0"
  port : UInt16 := 8123
  /-- How many events the event bus keeps. -/
  eventCapacity : Nat := 256
  databaseUrl : String := "sqlite:homelink.db?mode=rwc"
  /-- Which log lines are written. -/
  logFilter : String := "homelinkd=info,homelink=info,tower_http=debug"
  nativeApi : NativeApi.Settings := {}
  deriving DecidableEq, Repr, Inhabited

/-- What the settings must not say. -/
inductive SettingsRule where
  | zeroPort
  | zeroCapacity
  | zeroTimeout
  deriving DecidableEq, Repr

inductive SettingsError where
  /-- The file is no TOML document, or a field has a wrong type. -/
  | malformed
  /-- The file is there but is no text. -/
  | unreadable
  | broken (rule : SettingsRule)
  deriving DecidableEq, Repr

def SettingsRule.text : SettingsRule → String
  | .zeroPort => "port must be non-zero"
  | .zeroCapacity => "event capacity must be non-zero"
  | .zeroTimeout => "native api timeouts must be non-zero"

def SettingsError.message : SettingsError → String
  | .malformed => "failed to parse config file"
  | .unreadable => "failed to read config file"
  | .broken rule => "invalid configuration: " ++ rule.text

/-- The name of the kind of an error. -/
def SettingsError.kind : SettingsError → String
  | .malformed => "Parse"
  | .unreadable => "Io"
  | .broken _ => "Validation"

/-- What stands in the place of the settings file. -/
inductive SettingsFile where
  | missing
  | directory
  | bytes (content : List UInt8)

namespace Settings

/-- The address to listen on. -/
def bindAddress (s : Settings) : String := s.host ++ ":" ++ toString s.port.toNat

/-! ### The file -/

/-- A section of the file. One written as an array may have more items than the section has
fields; the surplus is skipped. -/
def sectionReader {α : Type} (shape : Shape α) : Reader α
  | depth, .arr items closed => shape.read depth (.arr (items.take shape.fields.length) closed)
  | depth, node => shape.read depth node

structure Server where
  host : String := "0.0.0.0"
  port : UInt16 := 8123
  eventCapacity : Nat := 256

def Server.shape : Shape Server :=
  Server.mk <$> .defaulted "host" Reader.text "0.0.0.0"
    <*> .defaulted "port" portReader 8123
    <*> .defaulted "event_capacity" (Reader.natUpTo Json.maxNat) 256

/-- A section of one text. -/
def textSection (key default : String) : Shape String := .defaulted key Reader.text default

def fileShape : Shape Settings :=
  (fun (server : Server) url filter nativeApi =>
      { host := server.host, port := server.port, eventCapacity := server.eventCapacity,
        databaseUrl := url, logFilter := filter, nativeApi := nativeApi : Settings })
    <$> .defaulted "server" (sectionReader Server.shape) {}
    <*> .defaulted "database" (sectionReader (textSection "url" ({} : Settings).databaseUrl))
      ({} : Settings).databaseUrl
    <*> .defaulted "logging" (sectionReader (textSection "filter" ({} : Settings).logFilter))
      ({} : Settings).logFilter
    <*> .defaulted "native_api" (sectionReader NativeApi.Settings.shape) {}

def ofFile : SettingsFile → Except SettingsError Settings
  | .missing => .ok {}
  | .directory => .error .unreadable
  | .bytes content =>
    match Utf8.strict? content with
    | none => .error .unreadable
    | some text =>
      match Toml.parse? text with
      | none => .error .malformed
      | some j => (Json.decode fileShape.read j).mapError fun _ => .malformed

/-! ### The environment -/

/-- A port number in an environment variable. -/
def port? (s : String) : Option UInt16 := (Decimal.natUpTo? 65535 s).map UInt16.ofNat

/-- The parts before and after the last colon. -/
def splitAddress? (s : String) : Option (String × String) :=
  let back := s.toList.reverse
  match back.dropWhile (· != ':') with
  | [] => none
  | _ :: host => some (String.ofList host.reverse, String.ofList (back.takeWhile (· != ':')).reverse)

/-- Later variables win over earlier ones. A port that is no number changes nothing. -/
def withEnvironment (s : Settings) (var : String → Option String) : Settings :=
  let (host, port) := match (var "HOMELINK_BIND").bind splitAddress? with
    | some (host, port) => (some host, port? port)
    | none => (none, none)
  { s with
    host := (host <|> var "HOMELINK_HOST").getD s.host
    port := (port <|> (var "HOMELINK_PORT").bind port?).getD s.port
    databaseUrl := (var "HOMELINK_DATABASE_URL").getD s.databaseUrl
    logFilter := (var "RUST_LOG" <|> var "HOMELINK_LOG").getD s.logFilter }

def toJson (s : Settings) : Json :=
  .record [
    ("host", .str s.host),
    ("port", .nat s.port.toNat),
    ("event_capacity", .nat s.eventCapacity),
    ("bind_addr", .str s.bindAddress),
    ("database_url", .str s.databaseUrl),
    ("filter", .str s.logFilter),
    ("client_info", .str s.nativeApi.clientInfo),
    ("connect_timeout", .nat s.nativeApi.connectTimeout),
    ("request_timeout", .nat s.nativeApi.requestTimeout)]

/-! ### Rules -/

def validate (s : Settings) : Except SettingsRule Unit :=
  if s.port = 0 then .error .zeroPort
  else if s.eventCapacity = 0 then .error .zeroCapacity
  else if s.nativeApi.connectTimeout = 0 || s.nativeApi.requestTimeout = 0 then .error .zeroTimeout
  else .ok ()

def load (file : SettingsFile) (var : String → Option String) : Except SettingsError Settings := do
  let s := (← ofFile file).withEnvironment var
  s.validate.mapError .broken
  return s

end Settings

end HomeHub
