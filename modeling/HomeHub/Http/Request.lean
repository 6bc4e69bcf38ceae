import HomeHub.Http.Response
import HomeHub.Json.Reader
import HomeHub.Text.Percent
import HomeHub.Text.Split

/-!
# Requests

What a client asks. Reading the parts of a request may lead to a response at once, which refuses it.
-/

namespace HomeHub.Http

inductive Method where
  | get
  /-- Like `get`, but the body is left out of the response. -/
  | head
  | post
  | delete
  | other (name : String)
  deriving DecidableEq, Repr, Inhabited

def Method.ofText (s : String) : Method :=
  match s with
  | "GET" => .get
  | "HEAD" => .head
  | "POST" => .post
  | "DELETE" => .delete
  | s => .other s

structure Request where
  method : Method
  /-- The location asked for and the query, and a fragment, which does not count. -/
  target : String
  body : String := ""
  /-- Whether the body is declared to be JSON. -/
  isJson : Bool := false
  deriving DecidableEq, Repr, Inhabited

namespace Request

/-- The location and the query, as written. -/
def parts (r : Request) : String × String := cut '?' (cut '#' r.target).1

/-- What stands behind the scheme of an absolute location. -/
def afterScheme? : List Char → Option (List Char)
  | ':' :: '/' :: '/' :: r => some r
  | _ :: r => afterScheme? r
  | [] => none

/-- The path within a location. An absolute location begins with a scheme and an authority, which do
not count; if nothing follows them, the path is the root. -/
def pathWithin (location : List Char) : List Char :=
  if location.head? = some '/' then location
  else match afterScheme? location with
    | none => location
    | some r =>
      match r.dropWhile (· != '/') with
      | [] => ['/']
      | path => path

def path (r : Request) : String := String.ofList (pathWithin r.parts.1.toList)

/-- The fields of the query, in order. -/
def fields (r : Request) : List (String × String) :=
  let written := (pieces '&' r.parts.2).filter (· != "")
  written.map fun field =>
    let (name, value) := cut '=' field
    (Percent.field name, Percent.field value)

/-- A field of the query, which may be given once. -/
def field (r : Request) (name : String) : Except Response (Option String) :=
  match r.fields.filter (·.1 == name) with
  | [] => .ok none
  | [(_, value)] => .ok (some value)
  | _ => .error (.refusal 400)

/-- Reads the body. -/
def decode {α : Type} (r : Request) (read : Json.Reader α) : Except Response α :=
  if !r.isJson then .error (.refusal 415)
  else match Json.decodeText read r.body with
    | .ok x => .ok x
    | .error .malformed => .error (.refusal 400)
    | .error .mismatch => .error (.refusal 422)

end Request

/-- The text of a piece of a path. -/
def pathText (piece : String) : Except Response String :=
  match Percent.text? piece with
  | some s => .ok s
  | none => .error (.refusal 400)

/-- An identifier given as text. -/
def identifier (s : String) : Except Response Uuid :=
  match Uuid.parse? s with
  | some id => .ok id
  | none => .error (.ofError (.invalid (.identifier s)))

end HomeHub.Http
