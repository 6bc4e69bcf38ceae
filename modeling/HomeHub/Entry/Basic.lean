import HomeHub.Connection
import HomeHub.Entity.Basic

/-!
# Config entries

The persisted set-up of one instance of an integration, such as one node.
-/

namespace HomeHub

/-- How an entry, or a flow that may create one, was started. -/
inductive Source where
  | user
  | zeroconf
  deriving DecidableEq, Repr, Inhabited

namespace Source

def text : Source → String
  | .user => "user"
  | .zeroconf => "zeroconf"

def ofText? (s : String) : Option Source :=
  if s = "user" then some .user else if s = "zeroconf" then some .zeroconf else none

def parse (s : String) : Except Invalid Source :=
  match ofText? s with
  | some source => .ok source
  | none => .error (.identifier s)

def reader : Json.Reader Source := Json.Reader.choice ofText?

end Source

structure Entry where
  id : Uuid
  /-- The integration that the entry belongs to. -/
  domain : String
  title : String
  /-- The identifier of the device, if it is known. -/
  uniqueId : Option String
  source : Source
  /-- What the integration stores. -/
  data : Json
  createdAt : Timestamp
  deriving Inhabited

namespace Entry

/-- The host in the data, if there is one. -/
def host? (e : Entry) : Option String := (e.data.get? "host").bind Json.str?

/-- Overwrites fields of the data. -/
def mergeData (e : Entry) (updates : List (String × Json)) : Entry :=
  { e with data := e.data.merge updates }

def validate (e : Entry) : Except Invalid Unit :=
  if isAllBlank e.domain then .error .emptyDomain
  else if isAllBlank e.title then .error .emptyName
  else .ok ()

/-- What is given of a new entry. -/
structure Draft where
  id : Option Uuid := none
  domain : String := ""
  title : String := ""
  uniqueId : Option String := none
  source : Source := .user
  data : Option Json := none

/-- Fills in a fresh id, the time and empty data. -/
def Draft.build (d : Draft) (fresh : Uuid) (now : Timestamp) : Except Invalid Entry := do
  let entry : Entry := {
    id := d.id.getD fresh
    domain := d.domain
    title := d.title
    uniqueId := d.uniqueId
    source := d.source
    data := d.data.getD (.obj [])
    createdAt := now }
  entry.validate
  return entry

def toJson (e : Entry) : Json :=
  .record [
    ("id", .str e.id.text),
    ("domain", .str e.domain),
    ("title", .str e.title),
    ("unique_id", .ofOption .str e.uniqueId),
    ("source", .str e.source.text),
    ("data", e.data),
    ("created_at", .str e.createdAt.text)]

instance : ToJson Entry := ⟨toJson⟩

open Json (Reader Shape)

def shape : Shape Entry :=
  Entry.mk <$> .required "id" Entity.uuidReader
    <*> .required "domain" Reader.text
    <*> .required "title" Reader.text
    <*> .optional "unique_id" Reader.text
    <*> .required "source" Source.reader
    <*> .required "data" Reader.value
    <*> .required "created_at" Entity.timestampReader

end Entry

end HomeHub
