import HomeHub.Json.Reader
import HomeHub.MySensors.Error
import HomeHub.Text.Blank

/-!
# Nodes and their children

A node is a radio board; its children are the sensors that it presented, each with its latest values
by their types. Nodes are kept in a file between runs, as a JSON object.
-/

namespace HomeHub.MySensors

open Json (Reader Shape)

structure Child where
  id : UInt8
  /-- As what the child presented itself. -/
  presentation : UInt8
  description : String := ""
  values : Table UInt8 String := .empty
  deriving DecidableEq, Inhabited

structure Node where
  sensorId : UInt8
  children : Table UInt8 Child := .empty
  /-- Whether the node is a plain one or a repeater. -/
  type : UInt8
  sketchName : Option String := none
  sketchVersion : Option String := none
  batteryLevel : UInt8 := 0
  protocolVersion : Option String := none
  heartbeat : UInt32 := 0
  deriving DecidableEq, Inhabited

abbrev Nodes := Table UInt8 Node

/-- The name of the sketch, or one made from the id as long as that is blank or unknown. -/
def Node.name (n : Node) : String :=
  match n.sketchName.filter fun name => !isAllBlank name with
  | some name => name
  | none => "Node " ++ toString n.sensorId.toNat

/-! ### JSON -/

def byteReader : Reader UInt8 := fun depth node =>
  (Reader.natUpTo 255 depth node).map UInt8.ofNat

def wordReader : Reader UInt32 := fun depth node =>
  (Reader.natUpTo 0xFFFFFFFF depth node).map UInt32.ofNat

/-- A table as an object whose keys are decimal numbers. -/
def tableJson {α : Type} (f : α → Json) (t : Table UInt8 α) : Json :=
  .record (t.pairs.map fun (key, x) => (toString key.toNat, f x))

namespace Child

def shape : Shape Child :=
  Child.mk <$> .required "id" byteReader
    <*> .required "type" byteReader
    <*> .defaulted "description" Reader.text ""
    <*> .defaulted "values" (Reader.byteTable Reader.text) .empty

def toJson (c : Child) : Json :=
  .record [
    ("id", .of c.id),
    ("type", .of c.presentation),
    ("description", .str c.description),
    ("values", tableJson .str c.values)]

end Child

namespace Node

def shape : Shape Node :=
  Node.mk <$> .required "sensor_id" byteReader
    <*> .defaulted "children" (Reader.byteTable Child.shape.read) .empty
    <*> .required "type" byteReader
    <*> .defaulted "sketch_name" (.option Reader.text) none
    <*> .defaulted "sketch_version" (.option Reader.text) none
    <*> .defaulted "battery_level" byteReader 0
    <*> .defaulted "protocol_version" (.option Reader.text) none
    <*> .defaulted "heartbeat" wordReader 0

def toJson (n : Node) : Json :=
  .record [
    ("sensor_id", .of n.sensorId),
    ("children", tableJson Child.toJson n.children),
    ("type", .of n.type),
    ("sketch_name", .of n.sketchName),
    ("sketch_version", .of n.sketchVersion),
    ("battery_level", .of n.batteryLevel),
    ("protocol_version", .of n.protocolVersion),
    ("heartbeat", .of n.heartbeat)]

instance : ToJson Node := ⟨toJson⟩

end Node

namespace Nodes

def toJson (t : Nodes) : Json := tableJson Node.toJson t

instance : ToJson Nodes := ⟨toJson⟩

/-- Reads the text of a node file. -/
def parse (s : String) : Except GatewayError Nodes :=
  (Json.decodeText (Reader.byteTable Node.shape.read) s).mapError fun _ => .malformed

/-- Puts in the nodes of another table, which win. -/
def merge (t other : Nodes) : Nodes := other.pairs.foldl (fun t p => t.insert p.1 p.2) t

end Nodes

/-- What stands in the place of a node file. -/
inductive NodeFile where
  | missing
  | directory (path : String)
  | bytes (path : String) (content : List UInt8)
  deriving Inhabited

/-- The nodes of a file. As long as there is none, no node was ever seen. -/
def NodeFile.load : NodeFile → Except GatewayError Nodes
  | .missing => .ok .empty
  | .directory path => .error (.nodeFile path)
  | .bytes path content =>
    match Utf8.strict? content with
    | some text => Nodes.parse text
    | none => .error (.nodeFile path)

end HomeHub.MySensors
