import HomeHub.Json.Reader

/-!
# Service calls

A command to an integration, such as `light.turn_on`, with its data.
-/

namespace HomeHub

structure ServiceCall where
  domain : String
  service : String
  data : Json
  deriving Inhabited

namespace ServiceCall

/-- A call whose data names one entity. -/
def forEntity (domain service entityId : String) : ServiceCall :=
  ⟨domain, service, .obj [("entity_id", .str entityId)]⟩

/-- Sets a field of the data, which becomes an object if it is none. -/
def withField (c : ServiceCall) (key : String) (value : Json) : ServiceCall :=
  { c with data := c.data.insert key value }

def get? (c : ServiceCall) (key : String) : Option Json := c.data.get? key

/-- The entity that the call addresses, if any. -/
def entityId? (c : ServiceCall) : Option String := (c.get? "entity_id").bind Json.str?

def text (c : ServiceCall) : String := c.domain ++ "." ++ c.service

def toJson (c : ServiceCall) : Json :=
  .record [("domain", .str c.domain), ("service", .str c.service), ("data", c.data)]

instance : ToJson ServiceCall := ⟨toJson⟩

open Json (Reader Shape)

def shape : Shape ServiceCall :=
  ServiceCall.mk <$> .required "domain" Reader.text
    <*> .required "service" Reader.text
    <*> .required "data" Reader.value

end ServiceCall

end HomeHub
