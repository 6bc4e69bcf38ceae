import HomeHub.Proofs.Entity.Reread
import HomeHub.Proofs.MySensors.Discovery
import HomeHub.Proofs.Results
import HomeHub.Proofs.States.Writes

/-!
# Discovered entities, written and read

A discovered entity has the payload for its state, whatever that is, and scalar attributes, among them
the parts of a position. So it is read back as it was unless the payload is a reserved name or a part of
the position is a number that JSON cannot write.
-/

namespace HomeHub.MySensors

/-! ### Attributes of a value -/

theorem scalar_positionAttributes {payload : String} {p : String × Attribute}
    (hp : p ∈ positionAttributes payload) : p.2.Scalar := by
  obtain ⟨⟨key, part⟩, -, hpart⟩ := List.mem_filterMap.1 hp
  obtain ⟨x, -, rfl⟩ := Option.map_eq_some_iff.1 hpart
  trivial

namespace Node

variable (n : Node) (c : Child) (type : UInt8) (payload : String)

theorem of_mem_plainAttributes {p : String × Attribute} (hp : p ∈ n.plainAttributes c type) :
    p.2.Scalar ∧ p.2.Finite := by
  have hbyte (x : UInt8) : (Attribute.int x.toNat).Scalar := by
    have := x.toNat_lt
    simp only [Attribute.Scalar, Json.minInt, Json.maxInt]
    omega
  have hheartbeat : (Attribute.int n.heartbeat.toNat).Scalar := by
    have := n.heartbeat.toNat_lt
    simp only [Attribute.Scalar, Json.minInt, Json.maxInt]
    omega
  simp only [plainAttributes, List.mem_append, List.mem_cons, List.not_mem_nil, or_false, List.mem_map] at hp
  rcases hp with ((rfl | rfl | rfl | rfl | rfl) | ⟨u, -, rfl⟩) | ⟨d, -, rfl⟩
  · exact ⟨hbyte n.sensorId, trivial⟩
  · exact ⟨hbyte c.id, trivial⟩
  · exact ⟨trivial, trivial⟩
  · exact ⟨hbyte n.batteryLevel, trivial⟩
  · exact ⟨hheartbeat, trivial⟩
  · exact ⟨trivial, trivial⟩
  · exact ⟨trivial, trivial⟩

theorem scalar_entityAttributes {p : String × Attribute}
    (hp : p ∈ (n.entityAttributes c type payload).pairs) : p.2.Scalar := by
  rcases (mem_entityAttributes_iff ..).1 hp with hp | ⟨-, hp⟩
  · exact (n.of_mem_plainAttributes c type hp).1
  · exact scalar_positionAttributes hp

theorem finite_entityAttributes_iff :
    (∀ p ∈ (n.entityAttributes c type payload).pairs, p.2.Finite) ↔
      (type = 49 → ∀ p ∈ positionAttributes payload, p.2.Finite) := by
  simp only [mem_entityAttributes_iff]
  constructor
  · exact fun h htype p hp => h p (.inr ⟨htype, hp⟩)
  · rintro h p (hp | ⟨htype, hp⟩)
    · exact (n.of_mem_plainAttributes c type hp).2
    · exact h htype p hp

/-! ### The time of discovery -/

variable {n c type payload} {deviceId : Uuid} {s : Supply}

theorem now_of_entity {r : Entity × Supply} (h : n.entity c deviceId type payload s = .ok r) :
    r.1.lastChanged = s.now ∧ r.1.lastUpdated = s.now ∧ r.2.now = s.now := by
  obtain ⟨e, he, hr⟩ := exists_of_bind h
  cases hr
  have hbuilt := (Entity.Draft.eq_of_build (eq_ok_of_mapError he)).2
  exact ⟨congrArg Entity.lastChanged hbuilt, congrArg Entity.lastUpdated hbuilt, rfl⟩

theorem now_of_entities {values : List (Child × UInt8 × String)} {r : List Entity × Supply}
    (h : n.entities deviceId values s = .ok r) :
    ∀ e ∈ r.1, e.lastChanged = s.now ∧ e.lastUpdated = s.now := by
  induction values generalizing s r with
  | nil =>
    cases h
    nofun
  | cons v values ih =>
    obtain ⟨⟨e, s'⟩, he, h⟩ := exists_of_bind h
    obtain ⟨⟨es, s''⟩, hes, h⟩ := exists_of_bind h
    cases h
    obtain ⟨hchanged, hupdated, hnow⟩ := now_of_entity he
    have hrest := ih hes
    rw [show s'.now = s.now from hnow] at hrest
    exact List.forall_mem_cons.2 ⟨⟨hchanged, hupdated⟩, hrest⟩

theorem now_of_discover {gatewayId : String} {r : Discovered × Supply}
    (h : n.discover gatewayId s = .ok r) :
    ∀ e ∈ r.1.entities, e.lastChanged = s.now ∧ e.lastUpdated = s.now := by
  obtain ⟨device, -, h⟩ := exists_of_bind h
  obtain ⟨⟨es, s'⟩, hes, h⟩ := exists_of_bind h
  cases h
  exact now_of_entities hes

end Node

/-! ### Reading back -/

/-- The entity of a value is read back, and as it was exactly if the payload is no reserved name and the
parts of a position are finite. -/
theorem Slot.Shows.decode {slot : Slot} {e : Entity} (h : slot.Shows e)
    (changed : e.lastChanged.Legible) (updated : e.lastUpdated.Legible) :
    Json.decode Entity.shape.read e.toJson = .ok e.reread ∧
      (Json.decode Entity.shape.read e.toJson = .ok e ↔
        slot.payload ∉ ["on", "off", "unknown", "unavailable"] ∧
          (slot.type = 49 → ∀ p ∈ positionAttributes slot.payload, p.2.Finite)) := by
  have hscalar : ∀ p ∈ e.attributes.pairs, p.2.Scalar := fun p hp =>
    Node.scalar_entityAttributes _ _ _ _ (h.attributes ▸ hp)
  have hread := Entity.decode_toJson_of_scalar hscalar changed updated
  refine ⟨hread, ?_⟩
  rw [hread, Except.ok.injEq, Entity.reread_eq_self_iff, h.state, h.attributes,
    Node.finite_entityAttributes_iff]
  rfl

/-- Everything that is discovered of a node, value by value. -/
theorem Node.forall₂_discover {n : Node} {gatewayId : String} {s s' : Supply} {d : Discovered}
    (h : n.discover gatewayId s = .ok (d, s')) :
    List.Forall₂ (fun slot e => (e.lastChanged = s.now ∧ e.lastUpdated = s.now) ∧ slot.Shows e)
      (n.slots 0) d.entities := by
  obtain ⟨d', s'', hd, hof⟩ := n.discover_ok gatewayId 0 s
  cases h.symm.trans hd
  refine (((List.forall₂_and_left _ _).2 ⟨now_of_discover hd, hof.entities.flip⟩).flip).imp ?_
  exact fun slot e h => ⟨h.1, h.2.1⟩

/-- The entity of a value is always read back, from itself and from the event that tells of it. It is
read back as it was exactly if the payload is no reserved name and the parts of a position are finite. -/
theorem Node.discover_reread (n : Node) (gatewayId : String) (s : Supply) (legible : s.now.Legible) :
    ∃ d s', n.discover gatewayId s = .ok (d, s') ∧
      List.Forall₂ (fun v e =>
          Json.decode Entity.shape.read e.toJson = .ok e.reread ∧
          (∀ st : States, ((st.put e).1.data.get? "new_state").map (Json.decode Entity.shape.read) =
            some (.ok e.reread)) ∧
          (Json.decode Entity.shape.read e.toJson = .ok e ↔
            v.2.2 ∉ ["on", "off", "unknown", "unavailable"] ∧
              (v.2.1 = 49 → ∀ p ∈ positionAttributes v.2.2, p.2.Finite)))
        n.allValues d.entities := by
  obtain ⟨d, s', hd, -⟩ := n.discover_ok gatewayId 0 s
  refine ⟨d, s', hd, ?_⟩
  rw [n.allValues_eq 0, List.forall₂_map_left_iff]
  refine (forall₂_discover hd).imp fun slot e h => ?_
  obtain ⟨⟨hchanged, hupdated⟩, hshows⟩ := h
  obtain ⟨hread, hsame⟩ := hshows.decode (hchanged ▸ legible) (hupdated ▸ legible)
  refine ⟨hread, fun st => ?_, hsame⟩
  have hnew : (st.put e).1.data.get? "new_state" = some e.toJson :=
    Change.get?_data _ (by simp [Change.members, States.put, Json.ofOption])
  rw [hnew]
  exact congrArg some hread

/-- A node that tells a status and its position. -/
def tracker (status position : String) : Node where
  sensorId := 1
  type := 17
  children := .ofList [
    (1, { id := 1, presentation := 38, values := .ofList [(2, status), (49, position)] })]

theorem legible_oneMinute : Timestamp.Legible ⟨60, 0⟩ := ⟨by decide +kernel⟩

/-- A place on Earth is read back. -/
theorem discover_reread_tracker : ∃ d s',
    (tracker "1" "40.7, -73.9").discover "gateway" ⟨0, ⟨60, 0⟩⟩ = .ok (d, s') ∧ d.entities.length = 2 ∧
      ∀ e ∈ d.entities, Json.decode Entity.shape.read e.toJson = .ok e := by
  obtain ⟨d, s', hd, hall⟩ :=
    (tracker "1" "40.7, -73.9").discover_reread "gateway" ⟨0, ⟨60, 0⟩⟩ legible_oneMinute
  refine ⟨d, s', hd, hall.length_eq.symm, fun e he => ?_⟩
  obtain ⟨v, hv, -, -, hsame⟩ := exists_mem_of_forall₂ hall he
  have hvalues : ∀ v ∈ (tracker "1" "40.7, -73.9").allValues,
      v.2.2 ∉ ["on", "off", "unknown", "unavailable"] ∧
        (v.2.1 = 49 → ∀ p ∈ positionAttributes v.2.2, p.2.Finite) := by
    decide +kernel
  exact hsame.2 (hvalues v hv)

/-- A status that is a reserved name is not read back, and neither is a position without bounds. -/
theorem not_always_read_back : ∃ d s',
    (tracker "on" "inf").discover "gateway" ⟨0, ⟨60, 0⟩⟩ = .ok (d, s') ∧ d.entities.length = 2 ∧
      ∀ e ∈ d.entities, Json.decode Entity.shape.read e.toJson ≠ .ok e := by
  obtain ⟨d, s', hd, -⟩ := (tracker "on" "inf").discover_ok "gateway" 0 ⟨0, ⟨60, 0⟩⟩
  have hall := Node.forall₂_discover hd
  refine ⟨d, s', hd, hall.length_eq.symm, fun e he hread => ?_⟩
  obtain ⟨slot, hslot, ⟨hchanged, hupdated⟩, hshows⟩ := exists_mem_of_forall₂ hall he
  have hlost : ∀ slot ∈ (tracker "on" "inf").slots 0,
      ¬ (slot.payload ∉ ["on", "off", "unknown", "unavailable"] ∧
        (slot.type = 49 → ∀ p ∈ positionAttributes slot.payload, p.2.Finite)) := by
    decide +kernel
  exact hlost slot hslot
    ((hshows.decode (hchanged ▸ legible_oneMinute) (hupdated ▸ legible_oneMinute)).2.1 hread)

end HomeHub.MySensors
