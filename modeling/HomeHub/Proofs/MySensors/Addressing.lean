import HomeHub.Proofs.MySensors.EntityIds
import HomeHub.Proofs.MySensors.Sending

/-!
# Entities address the children that they tell of

An entity names its node and child by the ids that these have themselves, while a value is sent to what is
kept under these ids. Where the two agree, what the entity names is the child that it tells of, and only
there: `Gateway.addressable_iff_slots`. Lines keep it so, as does a node file whose nodes and children are
under their own ids, but the reader of the file does not compare them. Of another file a few lines can make
an entity that addresses something else: `Gateway.addressable_after_load_iff`.
-/

namespace HomeHub.MySensors

/-! ### The address of an entity -/

/-- The entity names this node and this child in its attributes. -/
def Addresses (e : Entity) (nodeId childId : UInt8) : Prop :=
  e.attribute? "node_id" = some (.int nodeId.toNat) ∧ e.attribute? "child_id" = some (.int childId.toNat)

theorem Addresses.eq {e : Entity} {nodeId childId nodeId' childId' : UInt8} (h : Addresses e nodeId childId)
    (h' : Addresses e nodeId' childId') : nodeId = nodeId' ∧ childId = childId' := by
  have hid {id id' : UInt8} (h : Attribute.int id.toNat = .int id'.toNat) : id = id' :=
    UInt8.toNat_inj.1 (Int.ofNat.inj (Attribute.int.inj h))
  exact ⟨hid (Option.some.inj (h.1.symm.trans h'.1)), hid (Option.some.inj (h.2.symm.trans h'.2))⟩

/-- No attribute is given twice, so each is what it is given as. -/
theorem Node.entityAttributes_get? (n : Node) (c : Child) (type : UInt8) (payload : String)
    {key : String} {x : Attribute} (h : (key, x) ∈ n.plainAttributes c type) :
    (n.entityAttributes c type payload).get? key = some x :=
  Table.mem_pairs_iff.1 ((mem_entityAttributes_iff ..).2 (.inl h))

theorem Slot.Shows.addresses {s : Slot} {e : Entity} (h : s.Shows e) :
    Addresses e s.node.sensorId s.child.id := by
  constructor
  · rw [Entity.attribute?, h.attributes]
    exact Node.entityAttributes_get? _ _ _ _ (by simp [Node.plainAttributes])
  · rw [Entity.attribute?, h.attributes]
    exact Node.entityAttributes_get? _ _ _ _ (by simp [Node.plainAttributes])

/-! ### Values under their own ids -/

/-- The node and the child of the value are kept under their own ids. -/
def Slot.Keyed (s : Slot) : Prop := s.node.sensorId = s.nodeId ∧ s.child.id = s.childId

instance : DecidablePred Slot.Keyed := fun _ => inferInstanceAs (Decidable (_ ∧ _))

theorem Nodes.child_eq_ok {t : Nodes} {nodeId childId : UInt8} {n : Node} {c : Child}
    (hn : t.get? nodeId = some n) (hc : n.children.get? childId = some c) :
    t.child nodeId childId = .ok (n, c) := by
  simp only [child, hn, hc]

theorem Nodes.Keyed.slot {t : Nodes} (h : t.Keyed) {s : Slot} (hs : s ∈ t.slots) : s.Keyed := by
  obtain ⟨hn, hc, -⟩ := of_mem_slots hs
  exact ⟨(h _ _ hn).1, (h _ _ hn).2 _ _ hc⟩

namespace Gateway

variable {g : Gateway} {nodeId childId nodeId' childId' : UInt8}

/-- What is sent to the one child is sent to the other, and stored there, whatever becomes of it. -/
def Reaches (g : Gateway) (nodeId childId nodeId' childId' : UInt8) : Prop :=
  ∀ link type value, { g with link }.setChildValue nodeId childId type value =
    { g with link }.deliver (Message.set nodeId' childId' type value).encode
      (g.nodes.withValue nodeId' childId' type value)

/-- Every entity reaches the child that it tells of by what it names, and no two entities of different
children name the same. -/
def Addressable (g : Gateway) : Prop :=
  ∃ ds, g.discover.1 = .ok ds ∧
    List.Forall₂ (fun s e => s.Shows e ∧
        ∃ nodeId childId, Addresses e nodeId childId ∧ g.Reaches nodeId childId s.nodeId s.childId)
      g.nodes.slots (ds.flatMap (·.entities)) ∧
    ∀ p ∈ g.nodes.slots.zip (ds.flatMap (·.entities)), ∀ q ∈ g.nodes.slots.zip (ds.flatMap (·.entities)),
      ∀ nodeId childId, Addresses p.2 nodeId childId → Addresses q.2 nodeId childId →
        p.1.nodeId = q.1.nodeId ∧ p.1.childId = q.1.childId

theorem reaches_self {p : Node × Child} (hchild : g.nodes.child nodeId childId = .ok p)
    (hconnected : g.connected = true) : g.Reaches nodeId childId nodeId childId :=
  fun link type value => setChildValue_eq (g := { g with link }) hchild hconnected type value

theorem Reaches.eq (h : g.Reaches nodeId childId nodeId' childId') :
    nodeId = nodeId' ∧ childId = childId' := by
  have hset := h {} 0 ""
  have hok : ({ g with link := {} }.setChildValue nodeId childId 0 "").1 = .ok () := by
    rw [hset]
    rfl
  obtain ⟨⟨p, hchild⟩, hconnected⟩ := of_setChildValue_ok hok
  rw [setChildValue_eq hchild hconnected] at hset
  have hdone : [LinkAction.send (Message.set nodeId childId 0 "").encode] =
      [.send (Message.set nodeId' childId' 0 "").encode] := congrArg (·.2.link.done) hset
  have hparse := congrArg Message.parse (LinkAction.send.inj (List.cons.inj hdone).1)
  rw [Message.parse_encode, Message.parse_encode] at hparse
  cases hparse
  exact ⟨rfl, rfl⟩

theorem addressable_iff_slots (hconnected : g.connected = true) :
    g.Addressable ↔ ∀ s ∈ g.nodes.slots, s.Keyed := by
  constructor
  · rintro ⟨ds, -, hall, -⟩ s hs
    obtain ⟨e, -, hshows, nodeId, childId, haddresses, hreaches⟩ := exists_mem_of_forall₂ hall.flip hs
    obtain ⟨hnode, hchild⟩ := hshows.addresses.eq haddresses
    obtain ⟨hnode', hchild'⟩ := hreaches.eq
    exact ⟨hnode.trans hnode', hchild.trans hchild'⟩
  · intro hkeyed
    obtain ⟨ds, hds, hof⟩ := g.discover_ok
    have hshows := Nodes.shows_of hof
    have hreaches : ∀ s ∈ g.nodes.slots, g.Reaches s.node.sensorId s.child.id s.nodeId s.childId := by
      intro s hs
      obtain ⟨hn, hc, -⟩ := Nodes.of_mem_slots hs
      rw [(hkeyed s hs).1, (hkeyed s hs).2]
      exact reaches_self (Nodes.child_eq_ok hn hc) hconnected
    refine ⟨ds, hds, ?_, ?_⟩
    · refine ((List.forall₂_and_left _ _).2 ⟨hreaches, hshows⟩).imp ?_
      exact fun s e h => ⟨h.2, _, _, h.2.addresses, h.1⟩
    · obtain ⟨-, hzip⟩ := List.forall₂_iff_zip.1 ((List.forall₂_and_left _ _).2 ⟨hkeyed, hshows⟩)
      intro p hp q hq nodeId childId haddresses haddresses'
      obtain ⟨hp, hshows⟩ := hzip hp
      obtain ⟨hq, hshows'⟩ := hzip hq
      obtain ⟨hnode, hchild⟩ := hshows.addresses.eq haddresses
      obtain ⟨hnode', hchild'⟩ := hshows'.addresses.eq haddresses'
      exact ⟨by rw [← hp.1, ← hq.1, hnode, hnode'], by rw [← hp.2, ← hq.2, hchild, hchild']⟩

end Gateway

/-! ### Nodes of a file -/

namespace Nodes

variable {t other : Nodes} {nodeId childId : UInt8} {n : Node} {c : Child}

theorem get?_merge (t other : Nodes) (id : UInt8) :
    (t.merge other).get? id = (other.get? id <|> t.get? id) := by
  have hpairs (l : List (UInt8 × Node)) (t : Nodes) :
      (l.foldl (fun t p => t.insert p.1 p.2) t).pairs =
        l.foldl (fun acc p => Pairs.insert p.1 p.2 acc) t.pairs := by
    induction l generalizing t with
    | nil => rfl
    | cons p r ih => exact ih (t.insert p.1 p.2)
  rw [merge, Table.get?, hpairs, Pairs.get?_foldl_insert other.ascending.nodup]
  rfl

theorem Keyed.merge (h : t.Keyed) (hother : other.Keyed) : (t.merge other).Keyed := by
  intro id n hn
  rw [get?_merge] at hn
  cases ho : other.get? id with
  | none =>
    rw [ho] at hn
    exact h id n hn
  | some n' =>
    rw [ho] at hn
    cases hn
    exact hother id n ho

/-- A line that sets a value to nothing. -/
def emptyLine (nodeId childId : UInt8) : String := (Message.set nodeId childId 0 "").encode

theorem afterLine_emptyLine (h : t.child nodeId childId = .ok (n, c)) :
    t.afterLine (emptyLine nodeId childId) = t.withValue nodeId childId 0 "" := by
  have hreceive : t.receive (.set nodeId childId 0 "") =
      .ok (some (nodeId, childId), t.withValue nodeId childId 0 "") := by
    simp only [receive, Message.set, setValue_eq, h, Except.map]
  have hparse : Message.parse (emptyLine nodeId childId) = .ok (.set nodeId childId 0 "") :=
    Message.parse_encode _
  exact afterLine_of_ok ((receiveLine_of_parse hparse).trans hreceive)

/-- Once a value of it is set, a known child has a value that tells of it. -/
theorem exists_slot_of_child (h : t.child nodeId childId = .ok (n, c)) :
    ∃ s ∈ (t.afterLine (emptyLine nodeId childId)).slots, s.nodeId = nodeId ∧ s.childId = childId ∧
      s.node.sensorId = n.sensorId ∧ s.child.id = c.id := by
  obtain ⟨hn, hc⟩ := of_child_ok h
  rw [afterLine_emptyLine h]
  obtain ⟨s, hs, hplace, -⟩ := mem_slots_iff.1 (value?_withValue h 0 "")
  simp only [Slot.place, Prod.mk.injEq] at hplace
  obtain ⟨rfl, rfl, -⟩ := hplace
  obtain ⟨hn', hc', -⟩ := of_mem_slots hs
  simp only [withValue, Table.get?_modify, Std.ReflCmp.compare_self, if_true, hn, Option.map_some,
    Option.some.injEq] at hn'
  rw [← hn'] at hc'
  simp only [Table.get?_modify, Std.ReflCmp.compare_self, if_true, hc, Option.map_some,
    Option.some.injEq] at hc'
  exact ⟨s, hs, rfl, rfl, hn' ▸ rfl, hc' ▸ rfl⟩

/-- A line that presents the first child of a node. -/
def firstChildLine (nodeId : UInt8) : String := (Message.mk nodeId 0 .presentation false 0 "").encode

/-- A node keeps its own id when it presents a child. -/
theorem child_afterLine_firstChildLine (h : t.get? nodeId = some n) :
    ∃ n' c, (t.afterLine (firstChildLine nodeId)).child nodeId 0 = .ok (n', c) ∧
      n'.sensorId = n.sensorId := by
  have hparse : Message.parse (firstChildLine nodeId) = .ok ⟨nodeId, 0, .presentation, false, 0, ""⟩ :=
    Message.parse_encode _
  have hchild : ¬ (0 : UInt8) = Message.selfId := by decide
  have hpresent : t.present ⟨nodeId, 0, .presentation, false, 0, ""⟩ =
      t.insert nodeId (n.presentChild 0 0 "") := by
    rw [present, h, Option.getD_some, if_neg hchild]
  have hafter : t.afterLine (firstChildLine nodeId) = t.insert nodeId (n.presentChild 0 0 "") :=
    (afterLine_of_ok (receiveLine_of_parse hparse)).trans hpresent
  refine ⟨n.presentChild 0 0 "", _, child_eq_ok ?_ (Table.get?_insert_self ..), rfl⟩
  rw [hafter, Table.get?_insert_self]

/-- The lines that come in can make an entity of any node and of any child. -/
theorem keyed_of_slots (h : ∀ lines, ∀ s ∈ (t.afterLines lines).slots, s.Keyed) : t.Keyed := by
  intro nodeId n hn
  refine ⟨?_, fun childId c hc => ?_⟩
  · obtain ⟨n', c, hchild, hid⟩ := child_afterLine_firstChildLine hn
    obtain ⟨s, hs, hnode, -, hid', -⟩ := exists_slot_of_child hchild
    have hkeyed := h [firstChildLine nodeId, emptyLine nodeId 0] s
    rw [afterLines_cons, afterLines_cons, afterLines_nil] at hkeyed
    rw [← hid, ← hid', (hkeyed hs).1, hnode]
  · obtain ⟨s, hs, -, hchild, -, hid⟩ := exists_slot_of_child (child_eq_ok hn hc)
    have hkeyed := h [emptyLine nodeId childId] s
    rw [afterLines_cons, afterLines_nil] at hkeyed
    rw [← hid, (hkeyed hs).2, hchild]

end Nodes

namespace Gateway

variable {g after : Gateway} {loaded : Nodes}

/-- A gateway that has loaded a node file and is connected stays addressable, whatever lines come in, exactly
if the nodes and the children of the file are under their own ids. -/
theorem addressable_after_load_iff (hnodes : g.nodes.Keyed) (hload : g.file.load = .ok loaded)
    (hafter : after.nodes = g.loadNodes.2.nodes) (hconnected : after.connected = true) :
    (∀ lines, (after.receiveLines lines).Addressable) ↔ loaded.Keyed := by
  have hmerge : after.nodes = g.nodes.merge loaded := by
    rw [hafter, loadNodes, hload]
  have hlines (lines : List String) : (after.receiveLines lines).Addressable ↔
      ∀ s ∈ (after.nodes.afterLines lines).slots, s.Keyed := by
    rw [receiveLines_eq]
    exact addressable_iff_slots hconnected
  simp only [hlines]
  constructor
  · intro h nodeId n hn
    refine Nodes.keyed_of_slots h nodeId n ?_
    rw [hmerge, Nodes.get?_merge, hn]
    rfl
  · intro hkeyed lines s hs
    have hall : after.nodes.Keyed := hmerge ▸ hnodes.merge hkeyed
    exact (hall.afterLines lines).slot hs

theorem addressable_after_load_plug :
    let text := "\x7b\"1\":\x7b\"sensor_id\":1,\"type\":17,\"children\":" ++
      "\x7b\"1\":\x7b\"id\":1,\"type\":13,\"values\":\x7b\"17\":\"1200\"\x7d\x7d\x7d\x7d\x7d"
    let g : Gateway :=
      { (default : Gateway) with file := .bytes "nodes.json" text.toUTF8.toList, connected := true }
    ∃ loaded, g.file.load = .ok loaded ∧ loaded.value? 1 1 17 = some "1200" ∧
      ∀ lines, (g.loadNodes.2.receiveLines lines).Addressable := by
  intro text g
  let plug : Child := { id := 1, presentation := 13, values := .ofList [(17, "1200")] }
  let node : Node := { sensorId := 1, type := 17, children := .ofList [(1, plug)] }
  have hload : g.file.load = .ok (.ofList [(1, node)]) := by decide +kernel
  have hnodes : g.nodes.Keyed := Table.all_empty
  refine ⟨_, hload, by decide +kernel, ?_⟩
  exact (addressable_after_load_iff hnodes hload rfl (by decide +kernel)).2 (by decide +kernel)

/-- A node file gives node 1 the id 2, by which its entity then names it. -/
theorem not_always_reached : ¬ ∀ (text : String) (loaded : Nodes) (g : Gateway) (lines : List String),
    Nodes.parse text = .ok loaded → g.nodes = loaded → g.connected = true →
    (g.receiveLines lines).Addressable := by
  intro h
  let text := "\x7b\"1\":\x7b\"sensor_id\":2,\"type\":17,\"children\":" ++
    "\x7b\"1\":\x7b\"id\":1,\"type\":6,\"values\":\x7b\"0\":\"20\"\x7d\x7d\x7d\x7d\x7d"
  let child : Child := { id := 1, presentation := 6, values := .ofList [(0, "20")] }
  let node : Node := { sensorId := 2, type := 17, children := .ofList [(1, child)] }
  let nodes : Nodes := .ofList [(1, node)]
  have haddressable := h text nodes { (default : Gateway) with nodes, connected := true } []
    (by decide +kernel) rfl rfl
  have hkeyed : ∀ s ∈ nodes.slots, s.Keyed := (addressable_iff_slots rfl).1 haddressable
  exact absurd hkeyed (by decide +kernel)

end Gateway

end HomeHub.MySensors
