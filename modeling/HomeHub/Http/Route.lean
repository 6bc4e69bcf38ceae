import HomeHub.Text.Split

/-!
# Routes

The paths that are served, each with the piece of it that varies, as written.
-/

namespace HomeHub.Http

inductive Route where
  | health
  | entries
  | entry (id : String)
  | flows
  | flow (id : String)
  | states
  | state (entityId : String)
  | events
  deriving DecidableEq, Repr

/-- The route of a path. A piece that varies is not empty. -/
def Route.ofPath? (path : String) : Option Route :=
  match pieces '/' path with
  | ["", "health"] => some .health
  | ["", "api", "config_entries"] => some .entries
  | ["", "api", "config_entries", id] => if id = "" then none else some (.entry id)
  | ["", "api", "flows"] => some .flows
  | ["", "api", "flows", id] => if id = "" then none else some (.flow id)
  | ["", "api", "states"] => some .states
  | ["", "api", "states", entityId] => if entityId = "" then none else some (.state entityId)
  | ["", "api", "events", "stream"] => some .events
  | _ => none

end HomeHub.Http
