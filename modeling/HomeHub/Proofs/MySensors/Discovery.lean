import HomeHub.MySensors.Gateway
import HomeHub.Proofs.Entity.Ids
import HomeHub.Proofs.Lists
import HomeHub.Proofs.Number.Decimal
import HomeHub.Proofs.Table
import HomeHub.Proofs.Text.Slug

/-!
# What is discovered of nodes

The id of an entity is the slug of its name (`Node.entityNames_fst`), and the name has words, so the id
is always well-formed and discovery never fails. It gives each node its device and each value its entity,
in the order in which the table holds them: `Gateway.discover_ok`. The attributes of an entity are given
once each (`Node.mem_entityAttributes_iff`).
-/

namespace HomeHub

/-! ### Numbers in names -/

theorem isAsciiAlphanumeric_of_isDigit {c : Char} (hc : c.isDigit = true) : isAsciiAlphanumeric c = true := by
  have hrange : ('0' ≤ c && c ≤ '9') = true := by simpa [Char.isDigit, Char.le_def] using hc
  rw [isAsciiAlphanumeric, hrange, Bool.or_true]

theorem lowerAscii_of_isDigit {c : Char} (hc : c.isDigit = true) : lowerAscii c = c := by
  refine if_neg fun hcapital => ?_
  have hdigit : c.toNat ≤ 57 := by
    simp only [Char.isDigit, Bool.and_eq_true, decide_eq_true_eq] at hc
    exact hc.2
  have hletter : 65 ≤ c.toNat := by
    simp only [Bool.and_eq_true, decide_eq_true_eq] at hcapital
    exact hcapital.1
  omega

/-- A number is a word. -/
theorem slugWords_toString (n : Nat) : slugWords (toString n).toList = [(toString n).toList] := by
  have hdigits : ∀ c ∈ (toString n).toList, c.isDigit = true := fun _ => Decimal.isDigit_of_mem_toString
  rw [slugWords_word (Decimal.toString_ne_nil n) fun c hc => isAsciiAlphanumeric_of_isDigit (hdigits c hc)]
  refine congrArg ([·]) (Eq.trans (List.map_congr_left fun c hc => ?_) (List.map_id _))
  exact lowerAscii_of_isDigit (hdigits c hc)

theorem Device.Draft.build_ok {name integration : String} (hname : isAllBlank name = false)
    (hintegration : isAllBlank integration = false) (id : Option Uuid)
    (manufacturer model uniqueId : Option String) (fresh : Uuid) :
    build ⟨id, name, manufacturer, model, integration, uniqueId⟩ fresh =
      .ok ⟨id.getD fresh, name, manufacturer, model, integration, uniqueId.getD (id.getD fresh).text⟩ := by
  simp only [build, Device.validate, hname, hintegration]
  rfl

namespace MySensors

/-! ### Entity ids -/

namespace ValueKind

/-- The words that the id of a kind's entity ends in. -/
def words : ValueKind → List (List Char)
  | .other type => ["value".toList, (toString type.toNat).toList]
  | kind => [kind.suffix.toList]

theorem slugWords_suffix (k : ValueKind) : slugWords k.suffix.toList = k.words := by
  cases k with
  | other type =>
    have htext : (suffix (.other type)).toList = "value".toList ++ '_' :: (toString type.toNat).toList := by
      simp [suffix]
    rw [htext, slugWords_append (by decide), slugWords_toString]
    rfl
  | _ => decide

theorem words_ne_nil (k : ValueKind) : k.words ≠ [] := by
  cases k <;> exact List.cons_ne_nil _ _

/-- A suffix is its own slug. -/
theorem slug_suffix (k : ValueKind) : (slug k.suffix).toList = k.suffix.toList := by
  rw [toList_slug, slugWords_suffix]
  cases k with
  | other type => simp [words, suffix]
  | _ => decide

end ValueKind

namespace Node

variable (n : Node) (c : Child) (type : UInt8)

theorem toList_childName : (n.childName c).toList =
    n.name.toList ++ ' ' :: ((toString n.sensorId.toNat).toList ++ ' ' :: (toString c.id.toNat).toList) := by
  simp [childName]

theorem slugWords_childName : slugWords (n.childName c).toList = slugWords n.name.toList ++
    [(toString n.sensorId.toNat).toList, (toString c.id.toNat).toList] := by
  rw [toList_childName, slugWords_append (by decide), slugWords_append (by decide), slugWords_toString,
    slugWords_toString]
  rfl

theorem slugWords_childName_ne_nil : slugWords (n.childName c).toList ≠ [] := by
  simp [slugWords_childName]

/-- What the id of a value's entity ends in, none for the main value of a child. -/
def tag (c : Child) (type : UInt8) : List (List Char) :=
  if some type = c.mainType? then [] else (ValueKind.ofType type).words

theorem slugWords_entityNames : slugWords (n.entityNames c type).2.toList = slugWords n.name.toList ++
    [(toString n.sensorId.toNat).toList, (toString c.id.toNat).toList] ++ tag c type := by
  unfold entityNames tag
  split
  · rw [slugWords_childName, List.append_nil]
  · have htext : (n.childName c ++ " " ++ (ValueKind.ofType type).suffix).toList =
        (n.childName c).toList ++ ' ' :: (ValueKind.ofType type).suffix.toList := by simp
    rw [htext, slugWords_append (by decide), slugWords_childName, ValueKind.slugWords_suffix]

/-- The object part of an entity id is the slug of the name. -/
theorem entityNames_fst :
    (n.entityNames c type).1 = "sensor." ++ slug (n.entityNames c type).2 := by
  unfold entityNames
  split
  · rfl
  · have hslug : (slug (n.childName c ++ " " ++ (ValueKind.ofType type).suffix)).toList =
        (slug (n.childName c)).toList ++ '_' :: (slug (ValueKind.ofType type).suffix).toList :=
      toList_slug_append (c := ' ') (by simp) (by decide) (slugWords_childName_ne_nil n c)
        (ValueKind.slugWords_suffix _ ▸ ValueKind.words_ne_nil _)
    refine String.toList_inj.1 ?_
    simp [hslug, ValueKind.slug_suffix]

theorem splitEntityId?_entityNames :
    splitEntityId? (n.entityNames c type).1 = some ("sensor", slug (n.entityNames c type).2) := by
  have hwords : slugWords (n.entityNames c type).2.toList ≠ [] := by simp [slugWords_entityNames]
  have hobject : isIdPart (slug (n.entityNames c type).2).toList = true :=
    isIdPart_of_letters (slug_ne_nil hwords) fun _ => of_mem_slug
  have hdomain : isIdPart "sensor".toList = true := by decide
  have hsplit := splitEntityId?_append hdomain hobject
  rw [entityNames_fst]
  exact hsplit

end Node

/-! ### Attributes of a value -/

theorem ValueKind.ofType_eq_position_iff {type : UInt8} : ofType type = .position ↔ type = 49 := by
  unfold ofType
  repeat' split
  all_goals simp_all

theorem sublist_keys_option (key : String) (x : Option String) :
    ((x.toList.map fun u => (key, Attribute.text u)).map Prod.fst).Sublist [key] := by
  cases x <;> simp

/-- The parts that are there have their keys in order. -/
theorem sublist_keys_positionAttributes (payload : String) :
    ((positionAttributes payload).map Prod.fst).Sublist ["latitude", "longitude", "altitude"] := by
  have hzip (keys : List String) (parts : List (Option Float)) :
      (((keys.zip parts).filterMap fun p => p.2.map fun x => (p.1, Attribute.float x)).map
        Prod.fst).Sublist keys := by
    induction keys generalizing parts with
    | nil => exact .slnil
    | cons key keys ih =>
      obtain - | ⟨part, parts⟩ := parts
      · exact List.nil_sublist _
      · rw [List.zip_cons_cons, List.filterMap_cons]
        cases part with
        | none => exact (ih parts).cons _
        | some x => exact (ih parts).cons_cons _
  exact hzip _ _

namespace Node

variable (n : Node) (c : Child) (type : UInt8) (payload : String)

/-- The attributes of a value but for its position. -/
def plainAttributes : List (String × Attribute) :=
  [("node_id", .int n.sensorId.toNat), ("child_id", .int c.id.toNat),
    ("description", .text c.description), ("battery_level", .int n.batteryLevel.toNat),
    ("heartbeat", .int n.heartbeat.toNat)] ++
  ((ValueKind.ofType type).unit?.toList.map fun u => ("unit_of_measurement", .text u)) ++
  (ValueKind.ofType type).deviceClass?.toList.map fun d => ("device_class", .text d)

theorem entityAttributes_eq : n.entityAttributes c type payload = .ofList (n.plainAttributes c type ++
    if type = 49 then positionAttributes payload else []) := by
  simp only [entityAttributes, ValueKind.ofType_eq_position_iff]
  rfl

theorem attributes_once : ((n.plainAttributes c type ++
    if type = 49 then positionAttributes payload else []).map Prod.fst).Nodup := by
  have hall : (["node_id", "child_id", "description", "battery_level", "heartbeat"] ++
      ["unit_of_measurement"] ++ ["device_class"] ++ ["latitude", "longitude", "altitude"]).Nodup := by
    decide
  refine hall.sublist ?_
  rw [plainAttributes, List.map_append, List.map_append, List.map_append]
  refine (((List.Sublist.refl _).append (sublist_keys_option _ _)).append (sublist_keys_option _ _)).append ?_
  split
  · exact sublist_keys_positionAttributes payload
  · exact List.nil_sublist _

theorem mem_entityAttributes_iff {p : String × Attribute} :
    p ∈ (n.entityAttributes c type payload).pairs ↔
      p ∈ n.plainAttributes c type ∨ type = 49 ∧ p ∈ positionAttributes payload := by
  rw [entityAttributes_eq, Table.mem_pairs_ofList_iff (attributes_once ..), List.mem_append]
  split <;> simp_all

end Node

/-! ### Values and their entities -/

/-- A value, with the node and the child that it is a value of and the keys that they are kept under. -/
structure Slot where
  nodeId : UInt8
  node : Node
  childId : UInt8
  child : Child
  type : UInt8
  payload : String

/-- The values of a node, in order. -/
def Node.slots (nodeId : UInt8) (n : Node) : List Slot :=
  n.children.pairs.flatMap fun (childId, c) =>
    c.values.pairs.map fun (type, payload) => ⟨nodeId, n, childId, c, type, payload⟩

/-- The values of all nodes, in order. -/
def Nodes.slots (t : Nodes) : List Slot := t.pairs.flatMap fun (nodeId, n) => n.slots nodeId

/-- The entity tells of this value: by its id and its name, as its state, and in its attributes. -/
structure Slot.Shows (s : Slot) (e : Entity) : Prop where
  entityId : e.entityId = (s.node.entityNames s.child s.type).1
  friendlyName : e.friendlyName = (s.node.entityNames s.child s.type).2
  state : e.state = .value s.payload
  attributes : e.attributes = s.node.entityAttributes s.child s.type s.payload

/-- What is discovered of a node: its device, and an entity of that for each of its values. -/
structure Discovered.Of (gatewayId : String) (nodeId : UInt8) (n : Node) (d : Discovered) : Prop where
  uniqueId : d.device.uniqueId = gatewayId ++ "-" ++ toString n.sensorId.toNat
  entities : List.Forall₂ (fun s e => s.Shows e ∧ e.deviceId = some d.device.id) (n.slots nodeId) d.entities

theorem Node.allValues_eq (n : Node) (nodeId : UInt8) :
    n.allValues = (n.slots nodeId).map fun s => (s.child, s.type, s.payload) := by
  simp [allValues, slots, Table.values, List.map_flatMap, List.flatMap_map, Function.comp_def]

theorem Node.entity_ok (n : Node) (nodeId childId : UInt8) (c : Child) (deviceId : Uuid) (type : UInt8)
    (payload : String) (s : Supply) : ∃ e s', n.entity c deviceId type payload s = .ok (e, s') ∧
      Slot.Shows ⟨nodeId, n, childId, c, type, payload⟩ e ∧ e.deviceId = some deviceId := by
  have hvalid : (splitEntityId? (n.entityNames c type).1).isSome := by
    rw [splitEntityId?_entityNames]
    rfl
  simp only [entity, Entity.Draft.build, Entity.validate, hvalid]
  exact ⟨_, _, rfl, ⟨rfl, rfl, rfl, rfl⟩, rfl⟩

theorem Node.entities_ok (n : Node) (deviceId : Uuid) (slots : List Slot) (hslots : ∀ s ∈ slots, s.node = n)
    (s : Supply) : ∃ es s',
      n.entities deviceId (slots.map fun s => (s.child, s.type, s.payload)) s = .ok (es, s') ∧
      List.Forall₂ (fun s e => s.Shows e ∧ e.deviceId = some deviceId) slots es := by
  induction slots generalizing s with
  | nil => exact ⟨[], s, rfl, .nil⟩
  | cons slot slots ih =>
    obtain ⟨hslot, hslots⟩ := List.forall_mem_cons.1 hslots
    obtain ⟨e, s', he, hshows⟩ := n.entity_ok slot.nodeId slot.childId slot.child deviceId slot.type
      slot.payload s
    obtain ⟨es, s'', hes, hall⟩ := ih hslots s'
    refine ⟨e :: es, s'', ?_, .cons ?_ hall⟩
    · simp only [List.map_cons, entities, he, hes, bind, Except.bind]
      rfl
    · cases hslot
      exact hshows

theorem Node.not_isAllBlank (n : Node) :
    isAllBlank (n.name ++ " " ++ toString n.sensorId.toNat) = false := by
  obtain ⟨c, r, hcr⟩ := List.exists_cons_of_ne_nil (Decimal.toString_ne_nil n.sensorId.toNat)
  have hc : c.isDigit = true := Decimal.isDigit_of_mem_toString (hcr ▸ List.mem_cons_self)
  have hblank : isBlank c = false := by
    simp only [Char.isDigit, Bool.and_eq_true, decide_eq_true_eq] at hc
    have hrange : 48 ≤ c.toNat ∧ c.toNat ≤ 57 := hc
    simp [isBlank]
    omega
  rw [isAllBlank, List.all_eq_false]
  refine ⟨c, ?_, by simp [hblank]⟩
  rw [String.toList_append, hcr]
  exact List.mem_append_right _ List.mem_cons_self

theorem Node.discover_ok (n : Node) (gatewayId : String) (nodeId : UInt8) (s : Supply) :
    ∃ d s', n.discover gatewayId s = .ok (d, s') ∧ d.Of gatewayId nodeId n := by
  have hslots : ∀ slot ∈ n.slots nodeId, slot.node = n := by
    intro slot hslot
    obtain ⟨p, -, hslot⟩ := List.mem_flatMap.1 hslot
    obtain ⟨v, -, rfl⟩ := List.mem_map.1 hslot
    rfl
  obtain ⟨es, s', hes, hall⟩ := n.entities_ok s.draw.1 (n.slots nodeId) hslots s.draw.2
  have hdomain : isAllBlank domain = false := by decide
  simp only [discover, Device.Draft.build_ok n.not_isAllBlank hdomain, Except.mapError, bind, Except.bind,
    n.allValues_eq nodeId, Option.getD_none, hes]
  exact ⟨_, _, rfl, rfl, hall⟩

theorem discoverAll_ok (gatewayId : String) (nodes : List (UInt8 × Node)) (s : Supply) :
    ∃ ds s', discoverAll gatewayId (nodes.map Prod.snd) s = .ok (ds, s') ∧
      List.Forall₂ (fun p d => d.Of gatewayId p.1 p.2) nodes ds := by
  induction nodes generalizing s with
  | nil => exact ⟨[], s, rfl, .nil⟩
  | cons p nodes ih =>
    obtain ⟨d, s', hd, hof⟩ := p.2.discover_ok gatewayId p.1 s
    obtain ⟨ds, s'', hds, hall⟩ := ih s'
    refine ⟨d :: ds, s'', ?_, .cons hof hall⟩
    simp only [List.map_cons, discoverAll, hd, hds, bind, Except.bind]
    rfl

/-- The entities of all nodes, one after another, are those of the values in their order. -/
theorem Nodes.shows_of {t : Nodes} {gatewayId : String} {ds : List Discovered}
    (h : List.Forall₂ (fun p d => d.Of gatewayId p.1 p.2) t.pairs ds) :
    List.Forall₂ Slot.Shows t.slots (ds.flatMap (·.entities)) :=
  List.rel_flatMap h fun _ _ hof => hof.entities.imp fun _ _ hshows => hshows.1

namespace Gateway

/-- Discovery succeeds and gives, for the nodes in their order, what each of them is. -/
theorem discover_ok (g : Gateway) : ∃ ds, g.discover.1 = .ok ds ∧
    List.Forall₂ (fun p d => d.Of g.config.device p.1 p.2) g.nodes.pairs ds := by
  obtain ⟨ds, s, hds, hall⟩ := discoverAll_ok g.config.device g.nodes.pairs g.supply
  refine ⟨ds, ?_, hall⟩
  unfold discover
  rw [Table.values, hds]

end Gateway

end MySensors

end HomeHub
