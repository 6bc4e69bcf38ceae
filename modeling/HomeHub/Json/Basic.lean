import HomeHub.Table
import HomeHub.Json.Number

/-!
# JSON values

An object is a list of members. Values made by this library list them in ascending key order and
without repetition (`record`, `insert`), which is also the form a read text is brought into.
-/

namespace HomeHub

inductive Json where
  | null
  | bool (b : Bool)
  | num (n : Json.Number)
  | str (s : String)
  | arr (items : List Json)
  | obj (members : List (String × Json))
  deriving Inhabited

namespace Json

/-- An object of the given members, in ascending order, the last of equal keys kept. -/
def record (members : List (String × Json)) : Json := .obj (Pairs.ofList members)

def int (n : Int) : Json := .num (.int n)

def nat (n : Nat) : Json := .num (.int n)

/-- No JSON number is infinite or undefined; such floats are written as null. -/
def float (x : Float) : Json := if Binary64.isFinite x then .num (.float x) else .null

def ofOption {α : Type} (f : α → Json) : Option α → Json
  | some x => f x
  | none => .null

/-- The value of a member, if this is an object that has it. -/
def get? (j : Json) (key : String) : Option Json :=
  match j with
  | .obj members => Pairs.get? key members
  | _ => none

def str? : Json → Option String
  | .str s => some s
  | _ => none

def bool? : Json → Option Bool
  | .bool b => some b
  | _ => none

def arr? : Json → Option (List Json)
  | .arr items => some items
  | _ => none

def obj? : Json → Option (List (String × Json))
  | .obj members => some members
  | _ => none

def nat? : Json → Option Nat
  | .num n => n.toNat?
  | _ => none

def int? : Json → Option Int
  | .num n => n.toInt?
  | _ => none

def float? : Json → Option Float
  | .num n => some n.toFloat
  | _ => none

/-- Sets members of an object; any other value is replaced by an object of these members. -/
def merge (j : Json) (updates : List (String × Json)) : Json :=
  match j with
  | .obj members => .obj (updates.foldl (fun acc p => Pairs.insert p.1 p.2 acc) members)
  | _ => .obj updates

/-- Sets one member; any other value is replaced by an object of this member. -/
def insert (j : Json) (key : String) (value : Json) : Json := j.merge [(key, value)]

/-! ### Members with a default -/

/-- A member, null if there is none. -/
def field (j : Json) (key : String) : Json := (j.get? key).getD .null

/-- A member that is not null. -/
def given? (j : Json) (key : String) : Option Json :=
  match j.get? key with
  | some .null => none
  | other => other

def string? (j : Json) (key : String) : Option String := (j.field key).str?

def string (j : Json) (key : String) : String := (j.string? key).getD ""

def natural (j : Json) (key : String) : Nat := (j.field key).nat?.getD 0

def integer (j : Json) (key : String) : Int := (j.field key).int?.getD 0

def flag (j : Json) (key : String) : Bool := (j.field key).bool?.getD false

/-- The items of an array, none of anything else. -/
def items (j : Json) (key : String) : List Json := (j.field key).arr?.getD []

/-- The members of an object, none of anything else. -/
def members (j : Json) : List (String × Json) := j.obj?.getD []

end Json

/-! ### Values as JSON -/

class ToJson (α : Type) where
  toJson : α → Json

namespace Json

def of {α : Type} [ToJson α] (x : α) : Json := ToJson.toJson x

instance : ToJson Json := ⟨id⟩
instance : ToJson String := ⟨.str⟩
instance : ToJson Nat := ⟨.nat⟩
instance : ToJson Int := ⟨.int⟩
instance : ToJson Bool := ⟨.bool⟩
instance : ToJson UInt8 := ⟨fun n => .nat n.toNat⟩
instance : ToJson UInt16 := ⟨fun n => .nat n.toNat⟩
instance : ToJson UInt32 := ⟨fun n => .nat n.toNat⟩
instance : ToJson Unit := ⟨fun _ => .null⟩
instance {α : Type} [ToJson α] : ToJson (Option α) := ⟨.ofOption of⟩
instance {α : Type} [ToJson α] : ToJson (List α) := ⟨fun l => .arr (l.map of)⟩
instance {α β : Type} [ToJson α] [ToJson β] : ToJson (α × β) := ⟨fun (x, y) => .arr [of x, of y]⟩

end Json

end HomeHub
