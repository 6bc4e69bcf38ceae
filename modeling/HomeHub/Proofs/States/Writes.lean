import HomeHub.Hub
import HomeHub.Proofs.Json.Record

/-!
# Writes of entity states

A `Write` is a call that writes the states. `change?` is the change that it makes of them and `event?`
the event that it hands to the publisher; that these are all it does is `apply_eq`. A run is one call
after another, the clock set before each.
-/

namespace HomeHub

/-! ### What a write of the states can be -/

/-- The states with a change made. -/
def Change.commit (c : Change) (s : States) : States :=
  match c.new with
  | some e => s.insert c.entityId e
  | none => s.erase c.entityId

theorem Change.get?_commit (c : Change) (s : States) (id : String) :
    (c.commit s).get? id = if id = c.entityId then c.new else s.get? id := by
  unfold commit
  split
  · next e he =>
    rw [Table.get?_insert, he]
    simp only [Std.LawfulEqCmp.compare_eq_iff_eq]
  · next hnone =>
    rw [Table.get?_erase, hnone]
    simp only [Std.LawfulEqCmp.compare_eq_iff_eq]

/-- What is written of a change. -/
def Change.members (c : Change) : List (String × Json) := [
  ("entity_id", .str c.entityId),
  ("old_state", .ofOption Entity.toJson c.old),
  ("new_state", .ofOption Entity.toJson c.new)]

theorem Change.members_once (c : Change) : (c.members.map Prod.fst).Nodup :=
  show ["entity_id", "old_state", "new_state"].Nodup by decide

theorem Change.get?_data (c : Change) {key : String} {j : Json} (h : (key, j) ∈ c.members) :
    c.data.get? key = some j :=
  (Json.get?_record c.members_once key).trans (Pairs.get?_of_mem c.members_once h)

theorem Entity.Draft.eq_of_build {d : Entity.Draft} {fresh : Uuid} {now : Timestamp} {e : Entity}
    (h : d.build fresh now = .ok e) :
    (splitEntityId? e.entityId).isSome ∧ e = {
      id := d.id.getD fresh
      deviceId := d.deviceId
      entityId := d.entityId
      friendlyName := d.friendlyName.getD (Entity.defaultName d.entityId)
      state := d.state
      attributes := d.attributes
      lastChanged := now
      lastUpdated := now } := by
  simp only [build, Entity.validate] at h
  split at h
  · next hvalid =>
    cases h
    exact ⟨hvalid, rfl⟩
  · cases h

namespace States

variable {s : States} {id : String} {e : Entity}

/-- An entity that a set call stores: the old one updated, or a new one. -/
inductive Sets (s : States) (id : String) (state : EntityState) (attributes : Attributes)
    (fresh : Uuid) (now : Timestamp) : Entity → Prop where
  | update {old : Entity} : s.get? id = some old →
    Sets s id state attributes fresh now { old.updateState state now with attributes }
  | create {e : Entity} : s.get? id = none →
    Entity.Draft.build { entityId := id, state, attributes } fresh now = .ok e →
    Sets s id state attributes fresh now e

theorem exists_of_set {state : EntityState} {attributes : Attributes} {fresh : Uuid}
    {now : Timestamp} {r : Entity × Change × States}
    (h : s.set id state attributes fresh now = .ok r) :
    ∃ e, Sets s id state attributes fresh now e ∧ r = (e, s.put e) := by
  unfold set at h
  split at h
  · next old hold =>
    cases h
    exact ⟨_, .update hold, rfl⟩
  · next hnone =>
    cases hbuild : Entity.Draft.build { entityId := id, state, attributes } fresh now with
    | error rule =>
      rw [hbuild] at h
      cases h
    | ok e =>
      rw [hbuild] at h
      cases h
      exact ⟨e, .create hnone hbuild, rfl⟩

theorem eq_of_insertEntity {r : Change × States} (h : s.insertEntity e = .ok r) :
    (splitEntityId? e.entityId).isSome ∧ r = s.put e := by
  unfold insertEntity Entity.validate at h
  split at h
  · next hvalid =>
    cases h
    exact ⟨hvalid, rfl⟩
  · cases h

theorem exists_of_removeEntity {r : Change × States} (h : s.removeEntity id = some r) :
    ∃ old, s.get? id = some old ∧ r = (⟨id, some old, none⟩, s.erase id) := by
  obtain ⟨old, hold, rfl⟩ := Option.map_eq_some_iff.1 h
  exact ⟨old, hold, rfl⟩

end States

/-! ### Calls -/

/-- A call that writes entity states. -/
inductive Write where
  | set (entityId : String) (state : EntityState) (attributes : Attributes)
  | insert (e : Entity)
  | remove (entityId : String)

namespace Write

variable {w : Write} {h : Hub} {c : Change}

/-- The hub after the call, whatever it answers. -/
def apply (w : Write) (h : Hub) : Hub :=
  match w with
  | set entityId state attributes => (h.setState entityId state attributes).2
  | insert e => (h.insertState e).2
  | remove entityId => (h.removeState entityId).2

/-- The change that the call makes, none if it is refused or finds nothing to remove. -/
def change? (w : Write) (h : Hub) : Option Change :=
  match w with
  | set entityId state attributes =>
    (h.states.set entityId state attributes h.draw.1 h.supply.now).toOption.map (·.2.1)
  | insert e => (h.states.insertEntity e).toOption.map (·.1)
  | remove entityId => (h.states.removeEntity entityId).map (·.1)

/-- A change that a call makes. -/
inductive Makes (h : Hub) : Write → Change → Prop where
  | set {id : String} {state : EntityState} {attributes : Attributes} {e : Entity} :
    States.Sets h.states id state attributes h.draw.1 h.supply.now e →
    Makes h (.set id state attributes) (h.states.put e).1
  | insert {e : Entity} : (splitEntityId? e.entityId).isSome → Makes h (.insert e) (h.states.put e).1
  | remove {id : String} {old : Entity} : h.states.get? id = some old →
    Makes h (.remove id) ⟨id, some old, none⟩

theorem makes_of_change (hc : w.change? h = some c) : Makes h w c := by
  cases w with
  | set id state attributes =>
    rw [change?] at hc
    cases hset : h.states.set id state attributes h.draw.1 h.supply.now with
    | error rule => rw [hset] at hc; cases hc
    | ok r =>
      obtain ⟨e, he, rfl⟩ := States.exists_of_set hset
      rw [hset] at hc
      cases hc
      exact .set he
  | insert e =>
    rw [change?] at hc
    cases hinsert : h.states.insertEntity e with
    | error rule => rw [hinsert] at hc; cases hc
    | ok r =>
      obtain ⟨hvalid, rfl⟩ := States.eq_of_insertEntity hinsert
      rw [hinsert] at hc
      cases hc
      exact .insert hvalid
  | remove id =>
    obtain ⟨r, hr, rfl⟩ := Option.map_eq_some_iff.1 hc
    obtain ⟨old, hold, rfl⟩ := States.exists_of_removeEntity hr
    exact .remove hold

/-- What the states hold of an entity after the call, if the call changes it. -/
def stored (w : Write) (id : String) (h : Hub) : List (Option Entity) :=
  match w.change? h with
  | some c => if id = c.entityId then [(w.apply h).states.get? id] else []
  | none => []

/-- The hub once the call has drawn the identifier that a new entity would get. -/
def drawn (w : Write) (h : Hub) : Hub :=
  match w with
  | set .. => h.draw.2
  | _ => h

/-- The event that the call hands to the publisher. -/
def event? (w : Write) (h : Hub) : Option Event :=
  (w.change? h).map fun c =>
    (Event.make .stateChanged (some c.entityId) c.data (w.drawn h).supply).1

@[simp] theorem drawn_states (w : Write) (h : Hub) : (w.drawn h).states = h.states := by
  cases w <;> rfl

@[simp] theorem drawn_publisher (w : Write) (h : Hub) : (w.drawn h).publisher = h.publisher := by
  cases w <;> rfl

/-- What a call does: it draws an identifier, and if it has a change makes it and tells of it. -/
theorem apply_eq (w : Write) (h : Hub) : w.apply h =
    match w.change? h with
    | some c => ({ w.drawn h with states := c.commit h.states }.announce c).2
    | none => w.drawn h := by
  cases w with
  | set id state attributes =>
    show (h.setState id state attributes).2 = _
    rw [Hub.setState, change?]
    cases hset : h.states.set id state attributes h.draw.1 h.supply.now with
    | error rule =>
      have hset' : h.draw.2.states.set id state attributes h.draw.1 h.draw.2.supply.now =
        .error rule := hset
      simp only [hset']
      rfl
    | ok r =>
      obtain ⟨e, -, rfl⟩ := States.exists_of_set hset
      have hset' : h.draw.2.states.set id state attributes h.draw.1 h.draw.2.supply.now =
        .ok (e, h.states.put e) := hset
      simp only [hset']
      rfl
  | insert e =>
    show (h.insertState e).2 = _
    rw [Hub.insertState, change?]
    cases hinsert : h.states.insertEntity e with
    | error rule => rfl
    | ok r =>
      obtain ⟨-, rfl⟩ := States.eq_of_insertEntity hinsert
      rfl
  | remove id =>
    show (h.removeState id).2 = _
    rw [Hub.removeState, change?]
    cases hremove : h.states.removeEntity id with
    | none => rfl
    | some r =>
      obtain ⟨old, -, rfl⟩ := States.exists_of_removeEntity hremove
      rfl

theorem apply_states (w : Write) (h : Hub) : (w.apply h).states =
    match w.change? h with
    | some c => c.commit h.states
    | none => h.states := by
  rw [apply_eq]
  cases w.change? h with
  | none => exact drawn_states w h
  | some c => rfl

theorem stored_of_change (hc : w.change? h = some c) (id : String) :
    w.stored id h = if id = c.entityId then [c.new] else [] := by
  simp only [stored, hc]
  split
  · next hid => simp only [apply_states, hc, Change.get?_commit, hid, ↓reduceIte]
  · rfl

theorem stored_of_no_change (hc : w.change? h = none) (id : String) : w.stored id h = [] := by
  simp only [stored, hc]

/-- Whatever the publisher makes of the event, it is offered nothing else. -/
theorem apply_publisher (w : Write) (h : Hub) : (w.apply h).publisher =
    match w.event? h with
    | some e => (h.publisher.publish e).2
    | none => h.publisher := by
  rw [apply_eq, event?]
  cases w.change? h with
  | none => exact drawn_publisher w h
  | some c => rw [← drawn_publisher w h]; rfl

end Write

/-! ### Runs -/

/-- The hub at another time. -/
def Hub.atTime (h : Hub) (now : Timestamp) : Hub := { h with supply := { h.supply with now } }

/-- Calls one after another, each with the time at which it is made. -/
abbrev Writes := List (Timestamp × Write)

namespace Writes

/-- The hub after all calls. -/
def run : Writes → Hub → Hub
  | [], h => h
  | (now, w) :: r, h => run r (w.apply (h.atTime now))

/-- The events that the calls hand to the publisher, in order. -/
def events : Writes → Hub → List Event
  | [], _ => []
  | (now, w) :: r, h => (w.event? (h.atTime now)).toList ++ events r (w.apply (h.atTime now))

/-- What the states hold of an entity after each call that changes it, none where it was removed. -/
def stored (id : String) : Writes → Hub → List (Option Entity)
  | [], _ => []
  | (now, w) :: r, h => w.stored id (h.atTime now) ++ stored id r (w.apply (h.atTime now))

theorem run_publisher (ws : Writes) (h : Hub) : (ws.run h).publisher =
    (ws.events h).foldl (fun p e => (p.publish e).2) h.publisher := by
  induction ws generalizing h with
  | nil => rfl
  | cons call r ih =>
    obtain ⟨now, w⟩ := call
    rw [run, ih, Write.apply_publisher, events, List.foldl_append]
    cases w.event? (h.atTime now) <;> rfl

end Writes

/-! ### Publishers that accept every event -/

namespace Publisher

variable {p : Publisher}

/-- No event is refused. -/
def Open (p : Publisher) : Prop := ∀ n, p.refuses n = none

theorem publish_open (hp : p.Open) (e : Event) : p.publish e =
    (.ok (), { p with
      bus := p.bus.publish e
      published := p.published ++ [e]
      offered := p.offered + 1 }) := by
  rw [publish, hp]

theorem Open.publish (hp : p.Open) (e : Event) : (p.publish e).2.Open := by
  rw [publish_open hp]
  exact hp

theorem published_foldl (hp : p.Open) (es : List Event) :
    (es.foldl (fun p e => (p.publish e).2) p).published = p.published ++ es := by
  induction es generalizing p with
  | nil => exact (List.append_nil _).symm
  | cons e r ih =>
    rw [List.foldl_cons, ih (hp.publish e), publish_open hp, List.append_assoc, List.singleton_append]

end Publisher

end HomeHub
