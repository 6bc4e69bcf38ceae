import HomeHub.Error
import HomeHub.Json.Basic
import HomeHub.Uuid

/-!
# Responses

A request that fails in the hub is answered with the message of the error. Of a failure outside the
domain no detail is told.
-/

namespace HomeHub.Http

/-- What a body is declared to be. -/
inductive MediaType where
  | text
  | json
  | events
  deriving DecidableEq, Repr, Inhabited

inductive Body where
  | empty
  | text (s : String)
  | json (j : Json)
  /-- The events that a subscription of the bus receives. -/
  | stream (subscription : Nat)
  /-- A body that is declared but not sent. -/
  | omitted (media : MediaType)
  deriving Inhabited

/-- What the body is declared to be, if there is one. -/
def Body.mediaType? : Body → Option MediaType
  | .empty => none
  | .text _ => some .text
  | .json _ => some .json
  | .stream _ => some .events
  | .omitted media => some media

structure Response where
  status : Nat
  body : Body := .empty
  deriving Inhabited

namespace Response

/-- A request that does not get as far as the hub. -/
def refusal (status : Nat) : Response := { status }

def ofError (e : HubError) : Response :=
  let (status, message) := match e with
    | .invalid rule => (400, rule.message)
    | .notFound missing => (404, missing.message)
    | .storage _ => (500, "internal server error")
  { status, body := .json (.record [("error", .str message)]) }

def ofValue {α : Type} [ToJson α] (x : α) : Response := { status := 200, body := .json (.of x) }

def ofResult {α : Type} [ToJson α] : Except HubError α → Response
  | .ok x => .ofValue x
  | .error e => .ofError e

/-- The response to something done, of which there is nothing to tell. -/
def ofDone : Except HubError Unit → Response
  | .ok () => { status := 204 }
  | .error e => .ofError e

/-- The same without the body, but with what it is declared to be. -/
def withoutBody (r : Response) : Response :=
  { r with body := match r.body.mediaType? with
      | none => .empty
      | some media => .omitted media }

end Response

end HomeHub.Http
