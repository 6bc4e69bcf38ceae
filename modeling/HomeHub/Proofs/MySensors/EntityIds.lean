import HomeHub.Proofs.MySensors.Discovery
import HomeHub.Proofs.MySensors.Nodes

/-!
# Entity ids tell values apart

The words of an entity's name end in the number of the node, that of the child and, but for the main value
of a child, what the value measures. What it measures is either one word that is no number or the word
`value` and a number, so whatever words the sketch has in front, the end can be read off them: `address?`.
In a keyed table two values of one node and one child differ in their types, so the ids of all entities
are distinct: `Gateway.discover_distinct`.
-/

namespace HomeHub.MySensors

/-! ### The end of a name -/

/-- The numbers of node and child and what follows them, from the words of a name read backwards. -/
def address? : List (List Char) → Option (List Char × List Char × List (List Char))
  | w :: v :: r =>
    if w.all Char.isDigit then
      if v.all Char.isDigit then some (v, w, []) else
      match r with
      | child :: node :: _ => some (node, child, [v, w])
      | _ => none
    else r.head?.map fun node => (node, v, [w])
  | _ => none

theorem all_isDigit_toString (n : Nat) : (toString n).toList.all Char.isDigit = true :=
  List.all_eq_true.2 fun _ => Decimal.isDigit_of_mem_toString

namespace ValueKind

/-- The type of the values of a kind. -/
def type : ValueKind → UInt8
  | .temperature => 0
  | .humidity => 1
  | .power => 17
  | .energy => 18
  | .position => 49
  | .other type => type

theorem type_ofType (type : UInt8) : (ofType type).type = type := by
  unfold ofType
  repeat' split
  all_goals simp_all [ValueKind.type]

theorem words_injective : Function.Injective words := by
  intro k k' h
  cases k with
  | other type =>
    cases k' with
    | other type' =>
      have hnumber : (toString type.toNat).toList = (toString type'.toNat).toList :=
        (List.cons.inj (List.cons.inj h).2).1
      exact congrArg other (UInt8.toNat_inj.1 (Decimal.toString_inj hnumber))
    | _ => cases congrArg List.length h
  | _ =>
    cases k' with
    | other type' => cases congrArg List.length h
    | _ => first | rfl | exact absurd h (by decide)

end ValueKind

theorem Node.address?_entityNames (n : Node) (c : Child) (type : UInt8) :
    address? (slugWords (n.entityNames c type).2.toList).reverse =
      some ((toString n.sensorId.toNat).toList, (toString c.id.toNat).toList, tag c type) := by
  have hnode := all_isDigit_toString n.sensorId.toNat
  have hchild := all_isDigit_toString c.id.toNat
  rw [slugWords_entityNames]
  generalize (toString n.sensorId.toNat).toList = node at hnode
  generalize (toString c.id.toNat).toList = child at hchild
  unfold tag
  split
  · simp [address?, hnode, hchild]
  · cases ValueKind.ofType type with
    | other type =>
      have htype := all_isDigit_toString type.toNat
      rw [ValueKind.words]
      generalize (toString type.toNat).toList = number at htype
      simp [address?, htype]
    | _ => simp [address?, ValueKind.words, ValueKind.suffix]

/-- The id of an entity tells its node, its child and, among the values of the child, its value. -/
theorem Node.of_entityNames_eq {n n' : Node} {c c' : Child} {type type' : UInt8}
    (h : (n.entityNames c type).1 = (n'.entityNames c' type').1) :
    n.sensorId = n'.sensorId ∧ c.id = c'.id ∧ tag c type = tag c' type' := by
  rw [entityNames_fst, entityNames_fst, ← String.toList_inj, String.toList_append, String.toList_append,
    List.append_cancel_left_eq, String.toList_inj] at h
  have haddress := congrArg (fun ws => address? ws.reverse) (slugWords_eq_of_slug_eq h)
  simp only [address?_entityNames, Option.some.injEq, Prod.mk.injEq] at haddress
  obtain ⟨hnode, hchild, htag⟩ := haddress
  exact ⟨UInt8.toNat_inj.1 (Decimal.toString_inj hnode), UInt8.toNat_inj.1 (Decimal.toString_inj hchild),
    htag⟩

theorem Node.tag_injective (c : Child) : Function.Injective (tag c) := by
  intro type type' h
  unfold tag at h
  split at h
  · next hmain =>
    split at h
    · next hmain' => exact Option.some.inj (hmain.trans hmain'.symm)
    · exact absurd h.symm (ValueKind.words_ne_nil _)
  · split at h
    · exact absurd h (ValueKind.words_ne_nil _)
    · have hkind := congrArg ValueKind.type (ValueKind.words_injective h)
      rwa [ValueKind.type_ofType, ValueKind.type_ofType] at hkind

/-! ### The values of a table -/

/-- Where a value is kept. -/
def Slot.place (s : Slot) : UInt8 × UInt8 × UInt8 := (s.nodeId, s.childId, s.type)

namespace Nodes

variable {t : Nodes} {s s' : Slot}

theorem of_mem_slots (h : s ∈ t.slots) : t.get? s.nodeId = some s.node ∧
    s.node.children.get? s.childId = some s.child ∧ s.child.values.get? s.type = some s.payload := by
  obtain ⟨⟨nodeId, n⟩, hnode, h⟩ := List.mem_flatMap.1 h
  obtain ⟨⟨childId, c⟩, hchild, h⟩ := List.mem_flatMap.1 h
  obtain ⟨⟨type, payload⟩, hvalue, rfl⟩ := List.mem_map.1 h
  exact ⟨Table.mem_pairs_iff.1 hnode, Table.mem_pairs_iff.1 hchild, Table.mem_pairs_iff.1 hvalue⟩

theorem mem_slots_iff {nodeId childId type : UInt8} {payload : String} :
    t.value? nodeId childId type = some payload ↔
      ∃ s ∈ t.slots, s.place = (nodeId, childId, type) ∧ s.payload = payload := by
  constructor
  · intro h
    obtain ⟨n, hn, h⟩ := Option.bind_eq_some_iff.1 h
    obtain ⟨c, hc, h⟩ := Option.bind_eq_some_iff.1 h
    refine ⟨⟨nodeId, n, childId, c, type, payload⟩, ?_, rfl, rfl⟩
    refine List.mem_flatMap.2 ⟨(nodeId, n), Table.mem_pairs_iff.2 hn, ?_⟩
    refine List.mem_flatMap.2 ⟨(childId, c), Table.mem_pairs_iff.2 hc, ?_⟩
    exact List.mem_map.2 ⟨(type, payload), Table.mem_pairs_iff.2 h, rfl⟩
  · rintro ⟨s, hs, hplace, rfl⟩
    cases hplace
    obtain ⟨hn, hc, hv⟩ := of_mem_slots hs
    simp only [value?, hn, hc, hv, Option.bind_eq_bind, Option.bind_some]

/-- A slot for each place. -/
theorem nodup_places (t : Nodes) : (t.slots.map Slot.place).Nodup := by
  refine List.pairwise_map.2 ?_
  refine pairwise_flatMap_of_key Slot.nodeId ?_
    (fun s s' hne (h : s.place = s'.place) => hne (congrArg (·.1) h))
    t.ascending.nodup fun p _ => ?_
  · intro p s hs
    obtain ⟨q, -, hs⟩ := List.mem_flatMap.1 hs
    obtain ⟨v, -, rfl⟩ := List.mem_map.1 hs
    rfl
  refine pairwise_flatMap_of_key Slot.childId ?_
    (fun s s' hne (h : s.place = s'.place) => hne (congrArg (·.2.1) h))
    p.2.children.ascending.nodup fun q _ => ?_
  · intro q s hs
    obtain ⟨v, -, rfl⟩ := List.mem_map.1 hs
    rfl
  refine List.pairwise_map.2 ((List.pairwise_map.1 q.2.values.ascending.nodup).imp fun hne h => ?_)
  exact hne (Prod.mk.inj (Prod.mk.inj h).2).2

/-- In a keyed table different values have entities of different ids. -/
theorem Keyed.nodup_entityIds (h : t.Keyed) :
    (t.slots.map fun s => (s.node.entityNames s.child s.type).1).Nodup := by
  refine List.pairwise_map.2 ((List.pairwise_map.1 t.nodup_places).imp_of_mem fun {s s'} hs hs' hne heq => ?_)
  obtain ⟨hnode, hchild, htag⟩ := Node.of_entityNames_eq heq
  obtain ⟨hn, hc, -⟩ := of_mem_slots hs
  obtain ⟨hn', hc', -⟩ := of_mem_slots hs'
  obtain ⟨hid, hkeyed⟩ := h _ _ hn
  obtain ⟨hid', hkeyed'⟩ := h _ _ hn'
  -- one node, hence one child, hence the tags are of one child
  have hnodeId : s.nodeId = s'.nodeId := by rw [← hid, ← hid', hnode]
  have hsame : s.node = s'.node := Option.some.inj (by rw [← hn, ← hn', hnodeId])
  have hchildId : s.childId = s'.childId := by rw [← hkeyed _ _ hc, ← hkeyed' _ _ hc', hchild]
  have hsame' : s.child = s'.child := Option.some.inj (by rw [← hc, ← hc', hchildId, hsame])
  have htype : s.type = s'.type := Node.tag_injective s.child (htag.trans (by rw [hsame']))
  exact hne (by rw [Slot.place, Slot.place, hnodeId, hchildId, htype])

theorem Keyed.nodup_uniqueIds (h : t.Keyed) (gatewayId : String) :
    (t.pairs.map fun p => gatewayId ++ "-" ++ toString p.2.sensorId.toNat).Nodup := by
  refine List.pairwise_map.2
    ((List.pairwise_map.1 t.ascending.nodup).imp_of_mem fun {p q} hp hq hne heq => hne ?_)
  have hnumber := (String.append_right_inj _).1 heq
  rw [← (h _ _ (Table.mem_pairs_iff.1 hp)).1, ← (h _ _ (Table.mem_pairs_iff.1 hq)).1]
  exact UInt8.toNat_inj.1 (Decimal.toString_inj (congrArg String.toList hnumber))

end Nodes

namespace Gateway

/-- Whatever lines come in from the start, each node and each child is kept under its own id, and discovery
succeeds: it gives each node a device of another unique id, and each value of a node and a child an entity.
The ids of the entities of all nodes are well-formed and distinct. -/
theorem discover_distinct (g : Gateway) (lines : List String) :
    let after := receiveLines { g with nodes := .empty } lines
    after.nodes.Keyed ∧
    ∃ ds, after.discover.1 = .ok ds ∧
      List.Forall₂ (fun p d => d.Of g.config.device p.1 p.2) after.nodes.pairs ds ∧
      (ds.map (·.device.uniqueId)).Nodup ∧
      List.Forall₂ Slot.Shows after.nodes.slots (ds.flatMap (·.entities)) ∧
      (after.nodes.slots.map Slot.place).Nodup ∧
      (∀ nodeId childId type payload, after.nodes.value? nodeId childId type = some payload ↔
        ∃ s ∈ after.nodes.slots, s.place = (nodeId, childId, type) ∧ s.payload = payload) ∧
      (∀ e ∈ ds.flatMap (·.entities), ∃ object, splitEntityId? e.entityId = some ("sensor", object)) ∧
      ((ds.flatMap (·.entities)).map (·.entityId)).Nodup := by
  intro after
  have hafter : after = { g with nodes := Nodes.afterLines .empty lines } := receiveLines_eq _ lines
  have hkeyed : after.nodes.Keyed := by
    rw [hafter]
    exact Nodes.Keyed.afterLines Table.all_empty lines
  have hdevice : after.config.device = g.config.device := by rw [hafter]
  obtain ⟨ds, hds, hof⟩ := after.discover_ok
  rw [hdevice] at hof
  have hshows := Nodes.shows_of hof
  refine ⟨hkeyed, ds, hds, hof, ?_, hshows, Nodes.nodup_places _, fun _ _ _ _ => Nodes.mem_slots_iff, ?_, ?_⟩
  · rw [map_eq_of_forall₂ hof fun _ _ h => h.uniqueId]
    exact hkeyed.nodup_uniqueIds g.config.device
  · intro e he
    obtain ⟨s, -, hs⟩ := exists_mem_of_forall₂ hshows he
    exact ⟨_, hs.entityId ▸ s.node.splitEntityId?_entityNames s.child s.type⟩
  · rw [map_eq_of_forall₂ hshows fun _ _ h => h.entityId]
    exact hkeyed.nodup_entityIds

end Gateway

end HomeHub.MySensors
