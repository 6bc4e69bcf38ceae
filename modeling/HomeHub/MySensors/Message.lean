import HomeHub.Json.Basic
import HomeHub.Number.Decimal
import HomeHub.Text.Quoted

/-!
# The serial line protocol

A message is a line of six fields with semicolons between them: node, child, command, whether an
acknowledgement is wanted, type and payload. The payload may hold semicolons of its own.
-/

namespace HomeHub.MySensors

inductive Command where
  /-- A node presents a child, or itself. -/
  | presentation
  | set
  | req
  | internal
  | stream
  deriving DecidableEq, Repr, Inhabited

/-- Why a line is no message. -/
inductive LineFault where
  /-- A field that is no number, and the line. -/
  | field (name line : String)
  | command (number : UInt8)
  deriving DecidableEq, Repr

def LineFault.text : LineFault → String
  | .field name line => "invalid " ++ name ++ " in " ++ quoted line
  | .command number => "unknown command " ++ toString number.toNat

namespace Command

def number : Command → UInt8
  | .presentation => 0
  | .set => 1
  | .req => 2
  | .internal => 3
  | .stream => 4

def all : List Command := [.presentation, .set, .req, .internal, .stream]

def ofNumber (n : UInt8) : Except LineFault Command :=
  match all.find? (·.number == n) with
  | some c => .ok c
  | none => .error (.command n)

def text : Command → String
  | .presentation => "Presentation"
  | .set => "Set"
  | .req => "Req"
  | .internal => "Internal"
  | .stream => "Stream"

end Command

structure Message where
  nodeId : UInt8
  childId : UInt8
  command : Command
  ack : Bool
  /-- What is presented, set or reported. -/
  type : UInt8
  payload : String
  deriving DecidableEq, Repr, Inhabited

namespace Message

/-- The child by which a node presents itself. -/
def selfId : UInt8 := 255

/-- A value for a child. -/
def set (nodeId childId type : UInt8) (payload : String) : Message :=
  ⟨nodeId, childId, .set, false, type, payload⟩

/-- The line without its break. -/
def text (m : Message) : String :=
  ";".intercalate [toString m.nodeId.toNat, toString m.childId.toNat, toString m.command.number.toNat,
    toString m.ack.toNat, toString m.type.toNat, m.payload]

/-- The line as it is sent. -/
def encode (m : Message) : String := m.text ++ "\n"

def toJson (m : Message) : Json :=
  .record [
    ("node_id", .nat m.nodeId.toNat),
    ("child_id", .nat m.childId.toNat),
    ("command", .nat m.command.number.toNat),
    ("ack", .bool m.ack),
    ("value_type", .nat m.type.toNat),
    ("payload", .str m.payload),
    ("encoded", .str m.encode)]

instance : ToJson Message := ⟨toJson⟩

/-! ### Reading -/

/-- What is left of a line: its fields that were not read yet, if there are any. -/
abbrev Rest := Option (List Char)

/-- The line without the breaks at its end. -/
def withoutBreaks (cs : List Char) : List Char :=
  (cs.reverse.dropWhile fun c => c == '\r' || c == '\n').reverse

/-- The first field, and the fields after it. -/
def splitField (cs : List Char) : List Char × Rest :=
  (cs.takeWhile (· != ';'), (cs.dropWhile (· != ';')).tail?)

/-- A field that holds a byte in decimal digits. -/
def byte? (rest : Rest) : Option (UInt8 × Rest) := do
  let (field, rest) := splitField (← rest)
  let n ← Decimal.natUpTo? 255 (String.ofList field)
  return (UInt8.ofNat n, rest)

def parse (s : String) : Except LineFault Message := do
  let line := withoutBreaks s.toList
  let number (name : String) (rest : Rest) : Except LineFault (UInt8 × Rest) :=
    match byte? rest with
    | some r => .ok r
    | none => .error (.field name (String.ofList line))
  let (nodeId, rest) ← number "node id" (some line)
  let (childId, rest) ← number "child id" rest
  let (command, rest) ← number "command" rest
  let command ← Command.ofNumber command
  let (ack, rest) ← number "ack" rest
  let (type, rest) ← number "type" rest
  return ⟨nodeId, childId, command, ack ≠ 0, type, String.ofList (rest.getD [])⟩

end Message

end HomeHub.MySensors
