import HomeHub.Light
import HomeHub.Proofs.Json.Record
import HomeHub.Proofs.Uuid

/-!
# What an entity says once it was written and read

Neither states nor attributes are tagged in JSON, so what is read may be made in another way than what
was written: a JSON attribute that holds a number comes back as a number. Nobody tells the two apart by
what can be asked of an attribute, its `Look`. `decode_toJson` reads an entity back up to the looks of
its attributes.
-/

namespace HomeHub

open Json (Node Reader Shape)

/-! ### What can be asked of an attribute -/

/-- The two numbers of a pair. -/
def Json.pair? : Json → Option (Float × Float)
  | .arr [x, y] => do return (← x.float?, ← y.float?)
  | _ => none

/-- A value as a number, as a text and as a pair of numbers. -/
structure Look where
  number : Option Float
  text : Option String
  pair : Option (Float × Float)

def Json.look (j : Json) : Look := ⟨j.float?, j.str?, j.pair?⟩

namespace Attribute

def look (a : Attribute) : Look := ⟨a.float?, a.str?, a.toJson.pair?⟩

/-- A float is a number that JSON can write. -/
def Finite : Attribute → Prop
  | .float x => Binary64.isFinite x = true
  | _ => True

instance : DecidablePred Finite
  | .float x => inferInstanceAs (Decidable (Binary64.isFinite x = true))
  | .bool _ | .int _ | .text _ | .json _ => isTrue trivial

theorem look_toJson {a : Attribute} (h : a.Finite) : a.toJson.look = a.look := by
  cases a with
  | float x =>
    have hx : Json.float x = .num (.float x) := if_pos h
    rw [look, toJson, hx]
    rfl
  | _ => rfl

/-- No number is a pair, not even one that cannot be written. -/
theorem look_float (x : Float) : (float x).look = ⟨some x, none, none⟩ := by
  rw [look, toJson, Json.float]
  split <;> rfl

/-- Every value is read as some attribute, which looks like it. -/
theorem look_firstReading (j : Json) : ∃ a, firstReading j = some a ∧ a.look = j.look := by
  cases j with
  | num n =>
    cases hn : n.toInt? with
    | none =>
      refine ⟨.float n.toFloat, ?_, look_float _⟩
      simp [firstReading, attempts, Json.bool?, Json.int?, hn, Json.float?]
    | some i =>
      have hint : n = .int i := by
        cases n with
        | int m =>
          rw [Json.Number.toInt?] at hn
          split at hn <;> cases hn
          rfl
        | float x => cases hn
      refine ⟨.int i, ?_, by rw [hint]; rfl⟩
      simp [firstReading, attempts, Json.bool?, Json.int?, hn]
  | _ => exact ⟨_, rfl, rfl⟩

end Attribute

namespace Json

/-- Of the items of an array only their numbers are asked for. -/
theorem pair?_arr (items : List Json) : (arr items).pair? =
    match items.map float? with
    | [x, y] => do return (← x, ← y)
    | _ => none := by
  rcases items with - | ⟨x, - | ⟨y, - | ⟨z, r⟩⟩⟩ <;> rfl

/-- Items that look alike make arrays that do. -/
theorem look_arr {items items' : List Json} (h : items'.map look = items.map look) :
    (arr items').look = (arr items).look := by
  have hnumbers : items'.map float? = items.map float? := by
    have hlooks := congrArg (List.map Look.number) h
    rwa [List.map_map, List.map_map] at hlooks
  rw [look, look, pair?_arr, pair?_arr, hnumbers]
  rfl

theorem values_toNodes {d : Nat} {items : List Json}
    (h : ∀ j ∈ items, ∃ k, j.toNode.value d = .ok k ∧ k.look = j.look) :
    ∃ ks, Node.values d (toNodes items) = .ok ks ∧ ks.map look = items.map look := by
  induction items with
  | nil => exact ⟨[], rfl, rfl⟩
  | cons j r ih =>
    obtain ⟨k, hk, hlook⟩ := h j List.mem_cons_self
    obtain ⟨ks, hks, hlooks⟩ := ih fun x hx => h x (List.mem_cons_of_mem _ hx)
    refine ⟨k :: ks, ?_, by rw [List.map_cons, List.map_cons, hlook, hlooks]⟩
    rw [toNodes, Node.values, hk, hks]
    rfl

theorem memberValues_toMemberNodes {d : Nat} {members : List (String × Json)}
    (h : ∀ m ∈ members, ∃ k, m.2.toNode.value d = .ok k) :
    ∃ found, Node.memberValues d (toMemberNodes members) = .ok found := by
  induction members with
  | nil => exact ⟨[], rfl⟩
  | cons m r ih =>
    obtain ⟨key, j⟩ := m
    obtain ⟨k, hk⟩ := h (key, j) List.mem_cons_self
    obtain ⟨found, hfound⟩ := ih fun x hx => h x (List.mem_cons_of_mem _ hx)
    refine ⟨(key, k) :: found, ?_⟩
    simp only [toMemberNodes, toMemberNode, Node.memberValues, Node.memberValue, hk, hfound]
    rfl

/-- A value is read back from its node if enough containers may be opened, up to the order and the
repetition of members. -/
theorem value_toNode (j : Json) {d : Nat} (hd : j.depth ≤ d) :
    ∃ k, j.toNode.value d = .ok k ∧ k.look = j.look := by
  induction j using induction generalizing d with
  | null => exact ⟨_, rfl, rfl⟩
  | bool b => exact ⟨_, rfl, rfl⟩
  | num n => exact ⟨_, rfl, rfl⟩
  | str s => exact ⟨_, rfl, rfl⟩
  | arr items ih =>
    obtain - | d := d
    · simp [depth] at hd
    have hitems := depths_le_iff.1 (Nat.le_of_succ_le_succ hd)
    obtain ⟨ks, hks, hlooks⟩ := values_toNodes fun j hj => ih j hj (hitems j hj)
    refine ⟨.arr ks, ?_, look_arr hlooks⟩
    rw [toNode, Node.value, hks]
    rfl
  | obj members ih =>
    obtain - | d := d
    · simp [depth] at hd
    have hmembers := memberDepths_le_iff.1 (Nat.le_of_succ_le_succ hd)
    obtain ⟨found, hfound⟩ := memberValues_toMemberNodes fun m hm =>
      (ih m hm (hmembers m hm)).imp fun _ h => h.1
    refine ⟨.obj (Pairs.ofList found), ?_, rfl⟩
    rw [toNode, Node.value, hfound]
    rfl

end Json

/-! ### Attributes -/

theorem Attribute.reader_toNode {a : Attribute} (ha : a.Finite) {d : Nat} (hd : a.toJson.depth ≤ d) :
    ∃ a', Attribute.reader d a.toJson.toNode = .ok a' ∧ a'.look = a.look := by
  obtain ⟨k, hk, hlook⟩ := Json.value_toNode a.toJson hd
  obtain ⟨a', ha', hlook'⟩ := look_firstReading k
  exact ⟨a', Reader.andThen_ok hk ha', by rw [hlook', hlook, look_toJson ha]⟩

/-- The looks of attributes are those of what is written of them. -/
theorem Attribute.map_look_toJson {attributes : Attributes}
    (hfinite : ∀ p ∈ attributes.pairs, p.2.Finite) :
    (attributes.map Attribute.toJson).map Json.look = attributes.map Attribute.look := by
  refine Table.eq_of_pairs ((List.map_map ..).trans (List.map_congr_left fun p hp => ?_))
  exact congrArg (Prod.mk p.1) (look_toJson (hfinite p hp))

theorem Attribute.table_toNode {attributes : Attributes} {d : Nat}
    (hfinite : ∀ p ∈ attributes.pairs, p.2.Finite)
    (hd : (Json.obj (attributes.map Attribute.toJson).pairs).depth ≤ d) :
    ∃ attributes', Reader.table Attribute.reader d
        (Json.obj (attributes.map Attribute.toJson).pairs).toNode = .ok attributes' ∧
      attributes'.map Attribute.look = attributes.map Attribute.look := by
  obtain - | d := d
  · simp [Json.depth] at hd
  have hdepth := Json.memberDepths_le_iff.1 (Nat.le_of_succ_le_succ hd)
  have hread : ∀ m ∈ (attributes.map Attribute.toJson).pairs,
      ∃ a, Attribute.reader d m.2.toNode = .ok a ∧ m.2.look = a.look := by
    intro m hm
    obtain ⟨p, hp, rfl⟩ := List.mem_map.1 hm
    obtain ⟨a, ha, hlook⟩ := reader_toNode (hfinite p hp) (hdepth _ hm)
    exact ⟨a, ha, (look_toJson (hfinite p hp)).trans hlook.symm⟩
  obtain ⟨attributes', hattributes', hall⟩ :=
    Reader.table_toNode reader (fun j a => j.look = a.look) hread
  have hlooks : (attributes.map Attribute.toJson).map Json.look = attributes'.map Attribute.look :=
    Table.eq_of_pairs (List.forall₂_eq_eq_eq ▸ List.forall₂_map_left_iff.2
      (List.forall₂_map_right_iff.2 (hall.imp fun m p h => Prod.ext h.1 h.2)))
  exact ⟨attributes', hattributes', hlooks.symm.trans (map_look_toJson hfinite)⟩

/-! ### Entities -/

namespace EntityState

/-- A reading that is no reserved name, so that no other state is written alike. -/
def Plain : EntityState → Prop
  | .value s => s ∉ ["on", "off", "unknown", "unavailable"]
  | _ => True

theorem ofText_text {s : EntityState} (h : s.Plain) : ofText s.text = s := by
  cases s with
  | value s =>
    simp only [Plain, List.mem_cons, List.not_mem_nil, or_false, not_or] at h
    obtain ⟨hon, hoff, hunknown, hunavailable⟩ := h
    simp only [text, ofText, hon, hoff, hunknown, hunavailable, ↓reduceIte]
  | _ => decide

/-- The states that texts stand for are plain. -/
theorem plain_ofText (s : String) : (ofText s).Plain := by
  unfold ofText
  repeat' split
  all_goals simp_all [Plain]

end EntityState

/-- The text of an instant is read as that instant. -/
structure Timestamp.Legible (t : Timestamp) : Prop where
  parse : parse? t.text = some t

namespace Entity

/-- What is written of the entity can be read again. -/
structure Portable (e : Entity) : Prop where
  plain : e.state.Plain
  finite : ∀ p ∈ e.attributes.pairs, p.2.Finite
  changed : e.lastChanged.Legible
  updated : e.lastUpdated.Legible

/-- All that can be asked of the attributes. -/
def looks (e : Entity) : Table String Look := e.attributes.map Attribute.look

/-- Two entities that differ at most in how their attributes are made. -/
structure Alike (e e' : Entity) : Prop where
  rest : { e with attributes := e'.attributes } = e'
  looks : e'.looks = e.looks

/-- What is written of an entity. -/
def members (e : Entity) : List (String × Json) := [
  ("id", .str e.id.text),
  ("device_id", .ofOption (fun d => .str d.text) e.deviceId),
  ("entity_id", .str e.entityId),
  ("friendly_name", .str e.friendlyName),
  ("state", .str e.state.text),
  ("attributes", .obj (e.attributes.map Attribute.toJson).pairs),
  ("last_changed", .str e.lastChanged.text),
  ("last_updated", .str e.lastUpdated.text)]

theorem members_once (e : Entity) : (e.members.map Prod.fst).Nodup :=
  show ["id", "device_id", "entity_id", "friendly_name", "state", "attributes", "last_changed",
    "last_updated"].Nodup by decide

theorem uuidReader_toNode (u : Uuid) {d : Nat} : uuidReader d (Json.str u.text).toNode = .ok u :=
  Reader.andThen_ok (Reader.text_toNode u.text) (Uuid.parse?_text u)

theorem timestampReader_toNode {t : Timestamp} (h : t.Legible) {d : Nat} :
    timestampReader d (Json.str t.text).toNode = .ok t :=
  Reader.andThen_ok (Reader.text_toNode t.text) h.parse

theorem stateReader_toNode (s : EntityState) {d : Nat} :
    stateReader d (Json.str s.text).toNode = .ok (.ofText s.text) := rfl

theorem accepts_members {e : Entity} (changed : e.lastChanged.Legible) (updated : e.lastUpdated.Legible)
    {d : Nat} {attributes : Attributes}
    (hread : Reader.table Attribute.reader d
      (Json.obj (e.attributes.map Attribute.toJson).pairs).toNode = .ok attributes) :
    shape.Accepts d (fun key => (Pairs.get? key e.members).map Json.toNode)
      { e with state := .ofText e.state.text, attributes } := by
  have once := e.members_once
  have hdevice : Reader.option uuidReader d
      (Json.ofOption (fun u : Uuid => .str u.text) e.deviceId).toNode = .ok e.deviceId :=
    Reader.option_toNode fun u _ => ⟨uuidReader_toNode u, nofun⟩
  refine ((((((((Shape.accepts_member once ?_ (uuidReader_toNode e.id)).map Entity.mk).seq
    (Shape.accepts_member once ?_ hdevice)).seq
    (Shape.accepts_member once ?_ (Reader.text_toNode e.entityId))).seq
    (Shape.accepts_member once ?_ (Reader.text_toNode e.friendlyName))).seq
    (Shape.accepts_member once ?_ (stateReader_toNode e.state))).seq
    (Shape.accepts_member once ?_ hread)).seq
    (Shape.accepts_member once ?_ (timestampReader_toNode changed))).seq
    (Shape.accepts_member once ?_ (timestampReader_toNode updated))
  all_goals simp [members]

theorem mem_members_attributes (e : Entity) :
    ("attributes", Json.obj (e.attributes.map Attribute.toJson).pairs) ∈ e.members := by
  simp [members]

theorem decode_toJson {e : Entity} (h : e.Portable) :
    ∃ e', Json.decode (Reader.option shape.read) e.toJson = .ok (some e') ∧ e.Alike e' := by
  have hdepth := Json.depth_lt_record e.members_once e.mem_members_attributes
  obtain ⟨attributes', hread, hlooks⟩ := Attribute.table_toNode h.finite hdepth.le
  have haccepts := accepts_members h.changed h.updated hread
  rw [EntityState.ofText_text h.plain] at haccepts
  exact ⟨{ e with attributes := attributes' },
    Reader.option_ok (Shape.read_record e.members_once haccepts) nofun, rfl, hlooks⟩

end Entity

end HomeHub
