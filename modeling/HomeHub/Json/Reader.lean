import HomeHub.Json.Document
import HomeHub.Number.Decimal

/-!
# Reading typed values

A `Reader` takes a typed value from a node; its first argument is the number of containers that may
still be opened. A `Shape` describes a record by its fields, in order. A record is written as an
object, whose unknown members are skipped and whose known ones may appear once, or as an array of
its fields in order.
-/

namespace HomeHub.Json

abbrev Reader (α : Type) := Nat → Node → Except Fault α

/-- The fault met where a node of another kind was wanted. -/
def Node.unexpected : Node → Fault
  | .broken => .malformed
  | .num none => .malformed
  | .str none => .malformed
  | _ => .mismatch

/-- A byte as a JSON integer, without leading zeros. -/
def byteKey? (s : String) : Option UInt8 :=
  match s.toList with
  | [] => none
  | '0' :: _ :: _ => none
  | cs => ((Decimal.digits? cs).filter (· ≤ 255)).map UInt8.ofNat

namespace Reader

def value : Reader Json := Node.value

def text : Reader String
  | _, .str (some s) => .ok s
  | _, node => .error node.unexpected

def bool : Reader Bool
  | _, .bool b => .ok b
  | _, node => .error node.unexpected

/-- An integer from zero up to the limit; floats are refused even if integral. -/
def natUpTo (limit : Nat) : Reader Nat
  | _, .num (some n) =>
    match n.toNat? with
    | some n => if n ≤ limit then .ok n else .error .mismatch
    | none => .error .mismatch
  | _, node => .error node.unexpected

/-- Any number. -/
def float : Reader Float
  | _, .num (some n) => .ok n.toFloat
  | _, node => .error node.unexpected

/-- Null stands for the absent value. -/
def option {α : Type} (read : Reader α) : Reader (Option α)
  | _, .null => .ok none
  | depth, node => (read depth node).map some

/-- Reads all items, then demands the end of the array. -/
def list {α : Type} (read : Reader α) : Reader (List α)
  | 0, .arr _ _ => .error .malformed
  | depth + 1, .arr items closed => do
    let xs ← items.mapM (read depth)
    if closed then return xs else throw .malformed
  | _, node => .error node.unexpected

/-- Reads all members, then demands the end of the object. -/
def members {α : Type} (read : Reader α) : Reader (List (String × α))
  | 0, .obj _ _ => .error .malformed
  | depth + 1, .obj ms closed => do
    let xs ← ms.mapM fun (key, node) =>
      match key.text with
      | some key => (read depth node).map (key, ·)
      | none => .error .malformed
    if closed then return xs else throw .malformed
  | _, node => .error node.unexpected

/-- Of members with equal keys the last counts. -/
def table {α : Type} (read : Reader α) : Reader (Table String α) :=
  fun depth node => (members read depth node).map Table.ofList

/-- Reads all members, whose keys are bytes as JSON integers, then demands the end of the object.
Of members with equal keys the last counts. -/
def byteTable {α : Type} (read : Reader α) : Reader (Table UInt8 α)
  | 0, .obj _ _ => .error .malformed
  | depth + 1, .obj ms closed => do
    let xs ← ms.mapM fun (key, node) => do
      match if key.escaped then none else key.text.bind byteKey? with
      | some key => (read depth node).map (key, ·)
      | none => throw .mismatch
    if closed then return .ofList xs else throw .malformed
  | _, node => .error node.unexpected

/-- Makes something of a value read, or refuses it. -/
def andThen {α β : Type} (read : Reader α) (f : α → Option β) : Reader β := fun depth node => do
  match f (← read depth node) with
  | some y => return y
  | none => throw .mismatch

/-- One of the names of a choice, as a string or as the only key of an object whose value is
null. -/
def choice {α : Type} (ofName : String → Option α) : Reader α
  | _, .str (some s) =>
    match ofName s with
    | some x => .ok x
    | none => .error .mismatch
  | _ + 1, .obj ((⟨some key, _⟩, node) :: more) closed =>
    match ofName key with
    | none => .error .mismatch
    | some x =>
      match node with
      | .null => if more.isEmpty && closed then .ok x else .error .malformed
      | node => .error node.unexpected
  | _, _ => .error .malformed

end Reader

/-- How a field may be left out. -/
inductive Presence where
  /-- It may not. -/
  | required
  /-- As a member, but not from an array. -/
  | optional
  /-- As a member, and at the end of an array. -/
  | defaulted
  deriving DecidableEq

/-- What the walk over a record needs to know of a field. -/
structure Field where
  name : String
  presence : Presence
  check : Nat → Node → Except Fault Unit

/-- The fields of a record, and how the record is built from those found. -/
structure Shape (α : Type) where
  fields : List Field
  build : Nat → (String → Option Node) → Except Fault α

namespace Shape

variable {α β : Type}

def field (name : String) (presence : Presence) (read : Reader α) (absent : Except Fault α) :
    Shape α where
  fields := [⟨name, presence, fun depth node => (read depth node).map fun _ => ()⟩]
  build depth found :=
    match found name with
    | some node => read depth node
    | none => absent

def required (name : String) (read : Reader α) : Shape α :=
  field name .required read (.error .mismatch)

/-- Absent and null are the same. -/
def optional (name : String) (read : Reader α) : Shape (Option α) :=
  field name .optional (.option read) (.ok none)

def defaulted (name : String) (read : Reader α) (x : α) : Shape α :=
  field name .defaulted read (.ok x)

instance : Applicative Shape where
  pure x := ⟨[], fun _ _ => .ok x⟩
  seq f x := {
    fields := f.fields ++ (x ()).fields
    build depth found := do
      let g ← f.build depth found
      let y ← (x ()).build depth found
      return g y }

/-- Meets the members in order: a known one must be new and readable, an unknown one is skipped. -/
def walkMembers (fields : List Field) (depth : Nat) :
    List (Key × Node) → List (String × Node) → Except Fault (List (String × Node))
  | [], found => .ok found
  | (⟨none, _⟩, _) :: _, _ => .error .malformed
  | (⟨some key, _⟩, node) :: r, found =>
    match fields.find? (·.name == key) with
    | none => walkMembers fields depth r found
    | some field =>
      if found.any (·.1 == key) then .error .mismatch else do
        field.check depth node
        walkMembers fields depth r ((key, node) :: found)

/-- Meets the items in order, one for each field. -/
def walkItems (depth : Nat) (closed : Bool) :
    List Field → List Node → List (String × Node) → Except Fault (List (String × Node))
  | [], items, found => if items.isEmpty && closed then .ok found else .error .malformed
  | field :: fields, [], found =>
    if !closed then .error .malformed
    else if field.presence = .defaulted then walkItems depth closed fields [] found
    else .error .mismatch
  | field :: fields, node :: items, found => do
    field.check depth node
    walkItems depth closed fields items ((field.name, node) :: found)

def read (s : Shape α) : Reader α
  | 0, .arr _ _ => .error .malformed
  | 0, .obj _ _ => .error .malformed
  | depth + 1, .arr items closed => do
    let found ← walkItems depth closed s.fields items []
    s.build depth fun name => (found.find? (·.1 == name)).map (·.2)
  | depth + 1, .obj members closed => do
    let found ← walkMembers s.fields depth members []
    if !closed then throw .malformed
    s.build depth fun name => (found.find? (·.1 == name)).map (·.2)
  | _, node => .error node.unexpected

end Shape

/-- Reads a typed value from a whole text. -/
def decodeText {α : Type} (read : Reader α) (s : String) : Except Fault α :=
  (Document.ofText s).finish (read maxDepth)

/-- Reads a typed value from the bytes of a whole text. -/
def decodeBytes {α : Type} (read : Reader α) (bytes : List UInt8) : Except Fault α :=
  (Document.ofBytes bytes).finish (read maxDepth)

mutual

/-- The number of containers around the innermost part. -/
def depth : Json → Nat
  | .arr items => depths items + 1
  | .obj members => memberDepths members + 1
  | _ => 0

def depths : List Json → Nat
  | [] => 0
  | j :: r => max j.depth (depths r)

def memberDepths : List (String × Json) → Nat
  | [] => 0
  | m :: r => max (memberDepth m) (memberDepths r)

def memberDepth : String × Json → Nat
  | (_, j) => j.depth

end

/-- Reads a typed value from a value, however deep it is. -/
def decode {α : Type} (read : Reader α) (j : Json) : Except Fault α :=
  read (j.depth + 1) j.toNode

end HomeHub.Json
