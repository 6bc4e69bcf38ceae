import HomeHub.Entity.Basic

/-!
# Entity states

The current state of every entity. A write changes the states and yields a `Change`: the entity
before and after it. The changes are what the hub tells others.
-/

namespace HomeHub

abbrev States := Table String Entity

/-- An entity before and after a write; none where it did not exist. -/
structure Change where
  entityId : String
  old : Option Entity
  new : Option Entity
  deriving Inhabited

/-- What the event of a change says. -/
def Change.data (c : Change) : Json :=
  .record [
    ("entity_id", .str c.entityId),
    ("old_state", .ofOption Entity.toJson c.old),
    ("new_state", .ofOption Entity.toJson c.new)]

namespace States

/-- Stores an entity under its id. -/
def put (s : States) (e : Entity) : Change × States :=
  (⟨e.entityId, s.get? e.entityId, some e⟩, s.insert e.entityId e)

/-- Sets the state and the attributes of an entity, which is made if it does not exist. -/
def set (s : States) (entityId : String) (state : EntityState) (attributes : Attributes)
    (fresh : Uuid) (now : Timestamp) : Except Invalid (Entity × Change × States) :=
  match s.get? entityId with
  | some old =>
    let e := { old.updateState state now with attributes }
    .ok (e, s.put e)
  | none => do
    let e ← Entity.Draft.build { entityId, state, attributes } fresh now
    return (e, s.put e)

/-- Stores a whole entity, which must be valid. -/
def insertEntity (s : States) (e : Entity) : Except Invalid (Change × States) := do
  e.validate
  return s.put e

/-- Removes an entity; no change if it does not exist. -/
def removeEntity (s : States) (entityId : String) : Option (Change × States) :=
  (s.get? entityId).map fun old => (⟨entityId, some old, none⟩, s.erase entityId)

/-- All entities in the order of the keys. Where each is kept under its own id, as every write does,
this sorts them by their ids (`Keyed.mergeSort_eq_all`). -/
def all (s : States) : List Entity := s.values

end States

end HomeHub
