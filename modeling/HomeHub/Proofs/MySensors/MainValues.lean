import HomeHub.Proofs.MySensors.Addressing
import HomeHub.Proofs.MySensors.Frame
import Mathlib.Data.List.Nodup

/-!
# Entity ids while values come in

The main value of a child is the one that no other outranks: `Child.mainType?_eq_some_iff`. A line that sets
a value gives the child that it is for a value of its type, and leaves the rest of the nodes as it is
(`Nodes.Gains`). So all names stay, and a value that is not the main one never becomes it. The plain id of a
child passes on to another value exactly if one comes in that outranks the main one, and then the former
main value gets an id with a suffix: `Gateway.entity_ids_after_sets`.
-/

namespace HomeHub.MySensors

/-! ### Main values -/

/-- A value of the one type is the main one rather than a value of the other. -/
def Outranks (presentation type other : UInt8) : Prop :=
  firstType? presentation ≠ some other ∧ (firstType? presentation = some type ∨ type < other)

theorem outranks_or_outranks (presentation : UInt8) {type other : UInt8} (h : type ≠ other) :
    Outranks presentation type other ∨ Outranks presentation other type := by
  by_cases htype : firstType? presentation = some type
  · exact .inl ⟨fun hother => h (Option.some.inj (htype.symm.trans hother)), .inl htype⟩
  · by_cases hother : firstType? presentation = some other
    · exact .inr ⟨htype, .inl hother⟩
    · rcases UInt8.lt_or_lt_of_ne h with hlt | hgt
      · exact .inl ⟨hother, .inr hlt⟩
      · exact .inr ⟨htype, .inr hgt⟩

namespace Child

variable {c : Child} {type : UInt8}

/-- The main value is the one that no other outranks. -/
theorem mainType?_eq_some_iff : c.mainType? = some type ↔ c.values.contains type = true ∧
    ∀ type', c.values.contains type' = true → ¬ Outranks c.presentation type' type := by
  unfold mainType?
  cases hfilter : (firstType? c.presentation).filter c.values.contains with
  | some first =>
    obtain ⟨hfirst, hcontains⟩ := Option.filter_eq_some_iff.1 hfilter
    show some first = some type ↔ _
    constructor
    · rintro ⟨⟩
      exact ⟨hcontains, fun _ _ h => h.1 hfirst⟩
    · rintro ⟨-, h⟩
      by_contra hne
      exact h first hcontains ⟨fun heq => hne (hfirst.symm.trans heq), .inl hfirst⟩
  | none =>
    have hfirst {type' : UInt8} (hcontains : c.values.contains type' = true) :
        firstType? c.presentation ≠ some type' :=
      fun heq => Option.filter_eq_none_iff.1 hfilter type' heq hcontains
    show c.values.keys.head? = some type ↔ _
    rw [Table.head?_keys_eq_some_iff]
    refine and_congr_right fun hcontains => forall₂_congr fun type' hcontains' => not_congr ?_
    rw [Std.compare_eq_lt]
    exact ⟨fun hlt => ⟨hfirst hcontains, .inr hlt⟩, fun h => h.2.resolve_left (hfirst hcontains')⟩

theorem exists_mainType? (h : c.values.contains type = true) : ∃ main, c.mainType? = some main := by
  unfold mainType?
  obtain ⟨v, hv⟩ := Table.contains_iff.1 h
  obtain ⟨p, r, hpr⟩ := List.exists_cons_of_ne_nil (List.ne_nil_of_mem hv)
  have hhead : c.values.keys.head? = some p.1 := by
    rw [Table.keys, hpr]
    rfl
  rw [hhead]
  cases (firstType? c.presentation).filter c.values.contains <;> exact ⟨_, rfl⟩

end Child

namespace Node

variable {n : Node} {c : Child} {type : UInt8}

theorem entityNames_of_main (h : c.mainType? = some type) :
    (n.entityNames c type).1 = "sensor." ++ slug (n.childName c) := by
  rw [entityNames, if_pos h.symm]

theorem entityNames_of_not_main (h : c.mainType? ≠ some type) : (n.entityNames c type).1 =
    "sensor." ++ slug (n.childName c) ++ "_" ++ (ValueKind.ofType type).suffix := by
  rw [entityNames, if_neg fun heq => h heq.symm]

end Node

/-! ### Lines that set values -/

/-- The line sets a value of this type of this child. -/
def Message.Sets (line : String) (nodeId childId type : UInt8) : Prop :=
  ∃ ack payload, parse line = .ok ⟨nodeId, childId, .set, ack, type, payload⟩

theorem Child.Stores.contains_iff {c c' : Child} {type : UInt8} {payload : String}
    (h : c.Stores type payload c') (type' : UInt8) :
    c'.values.contains type' = true ↔ c.values.contains type' = true ∨ type' = type := by
  unfold Table.contains
  by_cases htype : type' = type
  · rw [htype, h.here]
    exact iff_of_true rfl (.inr rfl)
  · rw [h.elsewhere type' htype, or_iff_left htype]

namespace Nodes

/-- The node and the child are the same, but for values; the child has values of these types besides. -/
structure Gains (types : UInt8 → Prop) (p p' : Node × Child) : Prop where
  node : p'.1 = { p.1 with children := p'.1.children }
  child : p'.2 = { p.2 with values := p'.2.values }
  contains_iff : ∀ type, p'.2.values.contains type = true ↔ p.2.values.contains type = true ∨ types type

variable {t : Nodes} {p p' p'' : Node × Child} {nodeId childId : UInt8} {line : String}
  {types types' : UInt8 → Prop}

theorem Gains.of_values_eq (hnode : p'.1 = { p.1 with children := p'.1.children }) (hchild : p'.2 = p.2)
    (htypes : ∀ type, ¬ types type) : Gains types p p' :=
  ⟨hnode, hchild ▸ rfl, fun type => by rw [hchild, or_iff_left (htypes type)]⟩

theorem Gains.trans (h : Gains types p p') (h' : Gains types' p' p'') :
    Gains (fun type => types type ∨ types' type) p p'' where
  node := by rw [h'.node, h.node]
  child := by rw [h'.child, h.child]
  contains_iff type := by rw [h'.contains_iff, h.contains_iff, or_assoc]

theorem afterLine_of_known {m : Message} {q : Node × Child} (hset : m.command = .set)
    (hparse : Message.parse line = .ok m) (h : t.child m.nodeId m.childId = .ok q) :
    t.afterLine line = t.withValue m.nodeId m.childId m.type m.payload := by
  have hline : t.receiveLine line =
      .ok (some (m.nodeId, m.childId), t.withValue m.nodeId m.childId m.type m.payload) := by
    rw [receiveLine_of_parse hparse, receive]
    simp only [hset, setValue_eq, h]
    rfl
  exact afterLine_of_ok hline

theorem afterLine_of_unknown {m : Message} {e : GatewayError} (hset : m.command = .set)
    (hparse : Message.parse line = .ok m) (h : t.child m.nodeId m.childId = .error e) :
    t.afterLine line = t := by
  have hline : t.receiveLine line = .error e := by
    rw [receiveLine_of_parse hparse, receive]
    simp only [hset, setValue_eq, h]
    rfl
  exact afterLine_of_error hline

/-- A line that sets a value is for this child or leaves its values alone. -/
theorem gains_afterLine (hchild : t.child nodeId childId = .ok p)
    (hline : ∃ nodeId childId type, Message.Sets line nodeId childId type) :
    ∃ p', (t.afterLine line).child nodeId childId = .ok p' ∧
      Gains (Message.Sets line nodeId childId) p p' := by
  obtain ⟨nodeId', childId', type, ack, payload, hparse⟩ := hline
  have hsets {type' : UInt8} :
      Message.Sets line nodeId childId type' ↔ nodeId' = nodeId ∧ childId' = childId ∧ type' = type := by
    constructor
    · rintro ⟨_, _, hparse'⟩
      cases hparse.symm.trans hparse'
      exact ⟨rfl, rfl, rfl⟩
    · rintro ⟨rfl, rfl, rfl⟩
      exact ⟨ack, payload, hparse⟩
  cases hknown : t.child nodeId' childId' with
  | error e =>
    rw [afterLine_of_unknown rfl hparse hknown]
    refine ⟨p, hchild, .of_values_eq rfl rfl fun type' h => ?_⟩
    obtain ⟨rfl, rfl, -⟩ := hsets.1 h
    cases hknown.symm.trans hchild
  | ok q =>
    obtain ⟨n, c⟩ := p
    obtain ⟨hn, hc⟩ := of_child_ok hchild
    have hstores := stores_withValue hknown type payload
    rw [afterLine_of_known rfl hparse hknown]
    simp only
    generalize t.withValue nodeId' childId' type payload = t' at hstores
    by_cases hnodeId : nodeId = nodeId'
    · subst hnodeId
      obtain ⟨_, n', hn', ht', hnode⟩ := hstores.here
      cases hn.symm.trans hn'
      by_cases hchildId : childId = childId'
      · subst hchildId
        obtain ⟨_, c', hc', hn'', hvalue⟩ := hnode.children.here
        cases hc.symm.trans hc'
        refine ⟨(n', c'), child_eq_ok ht' hn'', hnode.rest, hvalue.rest, fun type' => ?_⟩
        rw [hvalue.contains_iff, hsets, and_iff_right rfl, and_iff_right rfl]
      · refine ⟨(n', c), child_eq_ok ht' ((hnode.children.elsewhere childId hchildId).trans hc),
          .of_values_eq hnode.rest rfl fun type' h => hchildId (hsets.1 h).2.1.symm⟩
    · refine ⟨(n, c), child_eq_ok ((hstores.elsewhere nodeId hnodeId).trans hn) hc,
        .of_values_eq rfl rfl fun type' h => hnodeId (hsets.1 h).1.symm⟩

/-- A child gains values of the types that the lines for it set. -/
theorem gains_afterLines {lines : List String} (hchild : t.child nodeId childId = .ok p)
    (hlines : ∀ line ∈ lines, ∃ nodeId childId type, Message.Sets line nodeId childId type) :
    ∃ p', (t.afterLines lines).child nodeId childId = .ok p' ∧
      Gains (fun type => ∃ line ∈ lines, Message.Sets line nodeId childId type) p p' := by
  induction lines generalizing t p with
  | nil => exact ⟨p, hchild, .of_values_eq rfl rfl fun type => by simp⟩
  | cons line lines ih =>
    obtain ⟨hline, hlines⟩ := List.forall_mem_cons.1 hlines
    obtain ⟨p', hchild', hgains⟩ := gains_afterLine hchild hline
    obtain ⟨p'', hchild'', hgains'⟩ := ih hchild' hlines
    rw [afterLines_cons]
    refine ⟨p'', hchild'', ?_⟩
    simp only [List.exists_mem_cons_iff]
    exact hgains.trans hgains'

end Nodes

/-! ### Discovered entities -/

namespace Gateway

variable {g : Gateway} {id : String} {nodeId childId type : UInt8}

/-- Discovery gives an entity of this id for the value that is kept at this place. -/
def Denotes (g : Gateway) (id : String) (place : UInt8 × UInt8 × UInt8) : Prop :=
  ∃ ds, g.discover.1 = .ok ds ∧
    ∃ p ∈ g.nodes.slots.zip (ds.flatMap (·.entities)), p.1.place = place ∧ p.2.entityId = id

theorem denotes_iff_slot {place : UInt8 × UInt8 × UInt8} : g.Denotes id place ↔
    ∃ s ∈ g.nodes.slots, s.place = place ∧ (s.node.entityNames s.child s.type).1 = id := by
  obtain ⟨ds, hds, hof⟩ := g.discover_ok
  obtain ⟨hlength, hshows⟩ := List.forall₂_iff_zip.1 (Nodes.shows_of hof)
  constructor
  · rintro ⟨ds', hds', ⟨s, e⟩, hp, hplace, hid⟩
    cases hds.symm.trans hds'
    exact ⟨s, (List.of_mem_zip hp).1, hplace, (hshows hp).entityId ▸ hid⟩
  · rintro ⟨s, hs, hplace, hid⟩
    rw [← List.map_fst_zip hlength.le] at hs
    obtain ⟨p, hp, rfl⟩ := List.mem_map.1 hs
    exact ⟨ds, hds, p, hp, hplace, (hshows hp).entityId ▸ hid⟩

theorem denotes_iff : g.Denotes id (nodeId, childId, type) ↔ ∃ n c,
    g.nodes.child nodeId childId = .ok (n, c) ∧ c.values.contains type = true ∧
      (n.entityNames c type).1 = id := by
  rw [denotes_iff_slot]
  constructor
  · rintro ⟨s, hs, hplace, hid⟩
    cases hplace
    obtain ⟨hn, hc, hv⟩ := Nodes.of_mem_slots hs
    exact ⟨s.node, s.child, Nodes.child_eq_ok hn hc, Option.isSome_iff_exists.2 ⟨_, hv⟩, hid⟩
  · rintro ⟨n, c, hchild, hcontains, hid⟩
    obtain ⟨hn, hc⟩ := Nodes.of_child_ok hchild
    obtain ⟨payload, hv⟩ := Option.isSome_iff_exists.1 hcontains
    have hvalue : g.nodes.value? nodeId childId type = some payload := by
      simp only [Nodes.value?, hn, hc, hv, Option.bind_eq_bind, Option.bind_some]
    obtain ⟨s, hs, hplace, -⟩ := Nodes.mem_slots_iff.1 hvalue
    refine ⟨s, hs, hplace, ?_⟩
    cases hplace
    obtain ⟨hn', hc', -⟩ := Nodes.of_mem_slots hs
    cases hn.symm.trans hn'
    cases hc.symm.trans hc'
    exact hid

/-- Where nodes and children are under their own ids, an entity id is that of one value only. -/
theorem Denotes.eq {place place' : UInt8 × UInt8 × UInt8} (h : g.Denotes id place)
    (h' : g.Denotes id place') (hkeyed : g.nodes.Keyed) : place = place' := by
  obtain ⟨s, hs, rfl, hid⟩ := denotes_iff_slot.1 h
  obtain ⟨s', hs', rfl, hid'⟩ := denotes_iff_slot.1 h'
  rw [List.inj_on_of_nodup_map hkeyed.nodup_entityIds hs hs' (hid.trans hid'.symm)]

theorem exists_denotes {ds : List Discovered} (hds : g.discover.1 = .ok ds) {e : Entity}
    (he : e ∈ ds.flatMap (·.entities)) : ∃ place, g.Denotes e.entityId place := by
  obtain ⟨ds', hds', hof⟩ := g.discover_ok
  cases hds.symm.trans hds'
  obtain ⟨s, hs, hshows⟩ := exists_mem_of_forall₂ (Nodes.shows_of hof) he
  exact ⟨s.place, denotes_iff_slot.2 ⟨s, hs, rfl, hshows.entityId.symm⟩⟩

end Gateway

/-! ### Lines after a discovery -/

/-- The line sets a value of this child that outranks the main one, which is of this type. -/
def Nodes.Displaces (t : Nodes) (nodeId childId type : UInt8) (line : String) : Prop :=
  ∃ n c, t.child nodeId childId = .ok (n, c) ∧ c.mainType? = some type ∧
    ∃ type', Outranks c.presentation type' type ∧ Message.Sets line nodeId childId type'

theorem Nodes.displaces_iff {t : Nodes} {nodeId childId type : UInt8} {line : String} {n : Node} {c : Child}
    (hchild : t.child nodeId childId = .ok (n, c)) : t.Displaces nodeId childId type line ↔
      c.mainType? = some type ∧
        ∃ type', Outranks c.presentation type' type ∧ Message.Sets line nodeId childId type' := by
  constructor
  · rintro ⟨n', c', hchild', h⟩
    cases hchild.symm.trans hchild'
    exact h
  · exact fun h => ⟨n, c, hchild, h⟩

namespace Nodes.Gains

variable {types : UInt8 → Prop} {n n' : Node} {c c' : Child} {type type' : UInt8}

theorem childName (h : Gains types (n, c) (n', c')) : n'.childName c' = n.childName c := by
  have hnode : n' = { n with children := n'.children } := h.node
  have hchild : c' = { c with values := c'.values } := h.child
  rw [hnode, hchild]
  rfl

theorem presentation (h : Gains types (n, c) (n', c')) : c'.presentation = c.presentation := by
  have hchild : c' = { c with values := c'.values } := h.child
  rw [hchild]

theorem mainType?_ne (h : Gains types (n, c) (n', c')) (hcontains : c.values.contains type = true)
    (hne : c.mainType? ≠ some type) : c'.mainType? ≠ some type := by
  intro hmain
  refine hne (Child.mainType?_eq_some_iff.2 ⟨hcontains, fun type' hcontains' => ?_⟩)
  rw [← h.presentation]
  exact (Child.mainType?_eq_some_iff.1 hmain).2 type' ((h.contains_iff type').2 (.inl hcontains'))

theorem mainType?_eq_some_iff (h : Gains types (n, c) (n', c')) (hmain : c.mainType? = some type) :
    c'.mainType? = some type ↔ ∀ type', types type' → ¬ Outranks c.presentation type' type := by
  obtain ⟨hcontains, hleast⟩ := Child.mainType?_eq_some_iff.1 hmain
  simp only [Child.mainType?_eq_some_iff, h.presentation, h.contains_iff, hcontains, true_or, true_and]
  exact ⟨fun hall type' htype' => hall type' (.inr htype'),
    fun hall type' htype' => htype'.elim (hleast type') (hall type')⟩

/-- The main value passes only to one that is new and outranks it. -/
theorem of_mainType?_ne (h : Gains types (n, c) (n', c')) (hmain : c.mainType? = some type)
    (hmain' : c'.mainType? = some type') (hne : type' ≠ type) :
    types type' ∧ Outranks c.presentation type' type := by
  obtain ⟨hcontains, hleast⟩ := Child.mainType?_eq_some_iff.1 hmain
  obtain ⟨hcontains', hleast'⟩ := Child.mainType?_eq_some_iff.1 hmain'
  rw [h.presentation] at hleast'
  have houtranks : Outranks c.presentation type' type :=
    (outranks_or_outranks _ hne).resolve_right (hleast' type ((h.contains_iff type).2 (.inl hcontains)))
  exact ⟨((h.contains_iff type').1 hcontains').resolve_left fun hold => hleast type' hold houtranks, houtranks⟩

end Nodes.Gains

namespace Gateway

variable {g : Gateway} {lines : List String} {id : String} {nodeId childId type : UInt8}

/-- Set lines come in after a discovery. Every entity id is given again, for a value of the same node and
child. This is the same value unless the id was the plain one and a line set a value that outranks the main
one; it then is such a value, and the former main value has the id with a suffix. Where nodes and children
are under their own ids, each of these ids is that of one value only. -/
theorem entity_ids_after_sets
    (hlines : ∀ line ∈ lines, ∃ nodeId childId type, Message.Sets line nodeId childId type) :
    (∃ ds, g.discover.1 = .ok ds ∧ ∀ e ∈ ds.flatMap (·.entities), ∃ place, g.Denotes e.entityId place) ∧
    ∀ id nodeId childId type, g.Denotes id (nodeId, childId, type) →
      ∃ type', (g.receiveLines lines).Denotes id (nodeId, childId, type') ∧
        (type' = type ↔ ∀ line ∈ lines, ¬ g.nodes.Displaces nodeId childId type line) ∧
        (type' ≠ type →
          (∃ line ∈ lines, g.nodes.Displaces nodeId childId type line ∧
            Message.Sets line nodeId childId type') ∧
          (g.receiveLines lines).Denotes (id ++ "_" ++ (ValueKind.ofType type).suffix)
            (nodeId, childId, type)) ∧
        (g.nodes.Keyed → ∀ place, (g.receiveLines lines).Denotes id place →
          place = (nodeId, childId, type')) := by
  obtain ⟨ds, hds, -⟩ := g.discover_ok
  refine ⟨⟨ds, hds, fun e he => exists_denotes hds he⟩, fun id nodeId childId type h => ?_⟩
  obtain ⟨n, c, hchild, hcontains, rfl⟩ := denotes_iff.1 h
  obtain ⟨⟨n', c'⟩, hchild', hgains⟩ := Nodes.gains_afterLines hchild hlines
  have hafter : (g.receiveLines lines).nodes = g.nodes.afterLines lines := by rw [receiveLines_eq]
  rw [← hafter] at hchild'
  have hcontains' : c'.values.contains type = true := (hgains.contains_iff type).2 (.inl hcontains)
  have honly {type'} (hid : (g.receiveLines lines).Denotes (n.entityNames c type).1 (nodeId, childId, type')) :
      g.nodes.Keyed → ∀ place, (g.receiveLines lines).Denotes (n.entityNames c type).1 place →
        place = (nodeId, childId, type') :=
    fun hkeyed place hplace => hplace.eq hid (hafter ▸ hkeyed.afterLines lines)
  by_cases hmain : c.mainType? = some type
  · -- the child has a main value still, which need not be this one
    obtain ⟨type', hmain'⟩ := Child.exists_mainType? hcontains'
    have hid : (g.receiveLines lines).Denotes (n.entityNames c type).1 (nodeId, childId, type') := by
      refine denotes_iff.2 ⟨n', c', hchild', (Child.mainType?_eq_some_iff.1 hmain').1, ?_⟩
      rw [Node.entityNames_of_main hmain, Node.entityNames_of_main hmain', hgains.childName]
    refine ⟨type', hid, ?_, fun hne => ⟨?_, ?_⟩, honly hid⟩
    · have hsame : type' = type ↔ c'.mainType? = some type := by
        rw [hmain', Option.some.injEq]
      simp only [hsame, hgains.mainType?_eq_some_iff hmain, Nodes.displaces_iff hchild, hmain, true_and]
      exact ⟨fun hall line hline ⟨type', houtranks, hsets⟩ => hall type' ⟨line, hline, hsets⟩ houtranks,
        fun hall type' ⟨line, hline, hsets⟩ houtranks => hall line hline ⟨type', houtranks, hsets⟩⟩
    · obtain ⟨⟨line, hline, hsets⟩, houtranks⟩ := hgains.of_mainType?_ne hmain hmain' hne
      exact ⟨line, hline, (Nodes.displaces_iff hchild).2 ⟨hmain, type', houtranks, hsets⟩, hsets⟩
    · refine denotes_iff.2 ⟨n', c', hchild', hcontains', ?_⟩
      have hdisplaced : c'.mainType? ≠ some type := fun heq => hne (Option.some.inj (hmain'.symm.trans heq))
      rw [Node.entityNames_of_main hmain, Node.entityNames_of_not_main hdisplaced, hgains.childName]
  · -- a suffix stays, as the value that outranked this one is still there
    have hid : (g.receiveLines lines).Denotes (n.entityNames c type).1 (nodeId, childId, type) := by
      refine denotes_iff.2 ⟨n', c', hchild', hcontains', ?_⟩
      have hmain' := hgains.mainType?_ne hcontains hmain
      rw [Node.entityNames_of_not_main hmain, Node.entityNames_of_not_main hmain', hgains.childName]
    refine ⟨type, hid, iff_of_true rfl ?_, fun hne => absurd rfl hne, honly hid⟩
    exact fun line _ hdisplaces => hmain ((Nodes.displaces_iff hchild).1 hdisplaces).1

theorem entity_ids_after_sets_climate :
    let g := receiveLines default ["1;1;0;0;6;", "1;1;1;0;1;48"]
    let after := g.receiveLines ["1;1;1;0;38;3.1", "1;1;1;0;0;20"]
    g.Denotes "sensor.node_1_1_1" (1, 1, 1) ∧ after.Denotes "sensor.node_1_1_1" (1, 1, 0) ∧
      after.Denotes "sensor.node_1_1_1_humidity" (1, 1, 1) := by
  intro g after
  have hbattery : Message.Sets "1;1;1;0;38;3.1" 1 1 38 := ⟨false, "3.1", by decide +kernel⟩
  have htemperature : Message.Sets "1;1;1;0;0;20" 1 1 0 := ⟨false, "20", by decide +kernel⟩
  have hlines : ∀ line ∈ ["1;1;1;0;38;3.1", "1;1;1;0;0;20"],
      ∃ nodeId childId type, Message.Sets line nodeId childId type :=
    List.forall_mem_cons.2 ⟨⟨1, 1, 38, hbattery⟩, List.forall_mem_singleton.2 ⟨1, 1, 0, htemperature⟩⟩
  have hbefore : g.Denotes "sensor.node_1_1_1" (1, 1, 1) := denotes_iff_slot.2 (by decide +kernel)
  have hafter : after.Denotes "sensor.node_1_1_1" (1, 1, 0) := denotes_iff_slot.2 (by decide +kernel)
  obtain ⟨type', -, -, hdisplaced, honly⟩ := (entity_ids_after_sets hlines).2 _ 1 1 1 hbefore
  have htype : type' = 0 := by
    cases honly (by decide +kernel) _ hafter
    rfl
  exact ⟨hbefore, hafter, (hdisplaced (by rw [htype]; decide)).2⟩

/-- The humidity of a temperature sensor loses the plain id to the temperature. -/
theorem not_always_same_value : ¬ ∀ (g : Gateway) (lines : List String),
    (∀ line ∈ lines, ∃ nodeId childId type, Message.Sets line nodeId childId type) →
    ∀ id place, g.Denotes id place → (g.receiveLines lines).Denotes id place := by
  intro h
  let g := receiveLines default ["1;1;0;0;6;", "1;1;1;0;1;48"]
  have hline : Message.Sets "1;1;1;0;0;20" 1 1 0 := ⟨false, "20", by decide +kernel⟩
  have hid : g.Denotes "sensor.node_1_1_1" (1, 1, 1) := denotes_iff_slot.2 (by decide +kernel)
  have hafter := h g ["1;1;1;0;0;20"] (by simpa using ⟨1, 1, 0, hline⟩) _ _ hid
  exact absurd (denotes_iff_slot.1 hafter) (by decide +kernel)

end Gateway

end HomeHub.MySensors
