import HomeHub.Proofs.MySensors.Sending

/-!
# What lines and calls change

Each kind of line has a relation of its own between the node tables before and after it: a value that is set
is the only thing that changes (`Nodes.Stores`), a presentation leaves the values of all children alone
(`Nodes.KeepsValues`), and what a node reports of itself is its battery or its sketch (`Nodes.Reports`). Each
of them implies that nothing that was known is lost (`Nodes.Keeps`). A call stores its value like a line,
but only once the link took it: `Gateway.changes_only_addressed`.
-/

namespace HomeHub.MySensors

/-! ### Children and nodes -/

/-- Only the value of this type is another one, the payload. -/
structure Child.Stores (type : UInt8) (payload : String) (c c' : Child) : Prop where
  rest : c' = { c with values := c'.values }
  here : c'.values.get? type = some payload
  elsewhere : ∀ type' ≠ type, c'.values.get? type' = c.values.get? type'

/-- Only the value of this type of this child is another one, the payload. -/
structure Node.Stores (childId type : UInt8) (payload : String) (n n' : Node) : Prop where
  rest : n' = { n with children := n'.children }
  children : n.children.Changes childId (Child.Stores type payload) n'.children

/-- Only what the node reports of its battery and its sketch is different. -/
def Node.Reports (n n' : Node) : Prop := ∃ batteryLevel sketchName sketchVersion,
  n' = { n with batteryLevel, sketchName, sketchVersion }

/-- There are values of all types that there were. -/
def Child.Keeps (c c' : Child) : Prop := c.values.Grows (fun _ _ => True) c'.values

/-- All children are there, with the values of all types. -/
def Node.Keeps (n n' : Node) : Prop := n.children.Grows Child.Keeps n'.children

/-- All children are there, with the same values. -/
def Node.KeepsValues (n n' : Node) : Prop := n.children.Grows (fun c c' => c'.values = c.values) n'.children

variable {n n' : Node} {c c' : Child}

theorem Child.Keeps.of_eq (h : c'.values = c.values) : c.Keeps c' :=
  fun _ v hv => ⟨v, h ▸ hv, trivial⟩

theorem Child.Keeps.trans {c'' : Child} (h : c.Keeps c') (h' : c'.Keeps c'') : c.Keeps c'' :=
  Table.Grows.trans (fun _ _ => trivial) h h'

theorem Child.stores_insert (c : Child) (type : UInt8) (payload : String) :
    c.Stores type payload { c with values := c.values.insert type payload } where
  rest := rfl
  here := Table.get?_insert_self _ type payload
  elsewhere _ htype := Table.get?_insert_of_ne htype payload

theorem Child.Stores.keeps {type : UInt8} {payload : String} (h : c.Stores type payload c') :
    c.Keeps c' := by
  intro type' v hv
  by_cases htype : type' = type
  · exact ⟨payload, htype ▸ h.here, trivial⟩
  · exact ⟨v, (h.elsewhere type' htype).trans hv, trivial⟩

namespace Node

theorem KeepsValues.refl (n : Node) : n.KeepsValues n := fun _ c hc => ⟨c, hc, rfl⟩

theorem KeepsValues.keeps (h : n.KeepsValues n') : n.Keeps n' := Table.Grows.mono h fun _ _ => .of_eq

theorem Keeps.refl (n : Node) : n.Keeps n := (KeepsValues.refl n).keeps

theorem Keeps.trans {n'' : Node} (h : n.Keeps n') (h' : n'.Keeps n'') : n.Keeps n'' :=
  Table.Grows.trans Child.Keeps.trans h h'

theorem Stores.keeps {childId type : UInt8} {payload : String} (h : n.Stores childId type payload n') :
    n.Keeps n' :=
  h.children.grows (fun _ _ => Child.Stores.keeps) fun _ => .of_eq rfl

theorem Reports.refl (n : Node) : n.Reports n := ⟨_, _, _, rfl⟩

theorem Reports.keepsValues (h : n.Reports n') : n.KeepsValues n' := by
  obtain ⟨_, _, _, rfl⟩ := h
  exact .refl n

theorem reports_report (n : Node) (type : UInt8) (payload : String) : n.Reports (n.report type payload) := by
  unfold report
  repeat' split
  all_goals exact ⟨_, _, _, rfl⟩

theorem keepsValues_presentChild (n : Node) (childId type : UInt8) (description : String) :
    n.KeepsValues (n.presentChild childId type description) := by
  refine Table.grows_insert (fun c hc => ?_) fun _ => rfl
  rw [hc, Option.getD_some]

end Node

/-! ### Tables of nodes -/

namespace Nodes

/-- Only the value of this type of this child of this node is another one, the payload. -/
def Stores (nodeId childId type : UInt8) (payload : String) (t t' : Nodes) : Prop :=
  t.Changes nodeId (Node.Stores childId type payload) t'

/-- All nodes, all their children and their values of all types are there. -/
def Keeps (t t' : Nodes) : Prop := t.Grows Node.Keeps t'

/-- All nodes and all their children are there, these with the same values. -/
def KeepsValues (t t' : Nodes) : Prop := t.Grows Node.KeepsValues t'

/-- The nodes are the same, but for what they report of their batteries and sketches. -/
def Reports (t t' : Nodes) : Prop := ∀ id, Option.Rel Node.Reports (t.get? id) (t'.get? id)

variable {t t' : Nodes} {nodeId childId type : UInt8} {payload : String} {m : Message}

theorem Keeps.refl (t : Nodes) : t.Keeps t := Table.Grows.refl Node.Keeps.refl t

theorem Keeps.trans {t'' : Nodes} (h : t.Keeps t') (h' : t'.Keeps t'') : t.Keeps t'' :=
  Table.Grows.trans Node.Keeps.trans h h'

theorem Stores.keeps (h : Stores nodeId childId type payload t t') : t.Keeps t' :=
  Table.Changes.grows h (fun _ _ => Node.Stores.keeps) Node.Keeps.refl

theorem KeepsValues.keeps (h : t.KeepsValues t') : t.Keeps t' :=
  Table.Grows.mono h fun _ _ => Node.KeepsValues.keeps

theorem Reports.keeps (h : t.Reports t') : t.Keeps t' := by
  intro id n hn
  have hreports := h id
  rw [hn] at hreports
  generalize t'.get? id = n' at hreports
  cases hreports with
  | some hreports => exact ⟨_, rfl, hreports.keepsValues.keeps⟩

end Nodes

/-- The child whose value a message sets. -/
def Message.changed? (m : Message) : Option (UInt8 × UInt8) :=
  if m.command = .set then some (m.nodeId, m.childId) else none

/-- What a message of each kind may change. -/
def Message.Permits (m : Message) (t t' : Nodes) : Prop :=
  match m.command with
  | .set => Nodes.Stores m.nodeId m.childId m.type m.payload t t'
  | .presentation => t.KeepsValues t'
  | .internal => t.Reports t'
  | .req | .stream => t' = t

theorem Message.Permits.keeps {m : Message} {t t' : Nodes} (h : m.Permits t t') : t.Keeps t' := by
  unfold Permits at h
  split at h
  · exact h.keeps
  · exact h.keeps
  · exact h.keeps
  · exact h ▸ .refl t
  · exact h ▸ .refl t

/-! ### Messages -/

namespace Nodes

variable {t t' : Nodes} {nodeId childId : UInt8} {m : Message}

theorem stores_withValue {p : Node × Child} (h : t.child nodeId childId = .ok p) (type : UInt8)
    (payload : String) : Stores nodeId childId type payload t (t.withValue nodeId childId type payload) := by
  obtain ⟨hn, hc⟩ := of_child_ok h
  exact Table.changes_modify hn ⟨rfl, Table.changes_modify hc (Child.stores_insert _ type payload)⟩

theorem keepsValues_present (t : Nodes) (m : Message) : t.KeepsValues (t.present m) := by
  refine Table.grows_insert (fun n hn => ?_) Node.KeepsValues.refl
  rw [hn, Option.getD_some]
  split
  · exact .refl n
  · exact n.keepsValues_presentChild m.childId m.type m.payload

theorem reports_modify (t : Nodes) (nodeId type : UInt8) (payload : String) :
    t.Reports (t.modify nodeId (·.report type payload)) := by
  intro id
  rw [Table.get?_modify]
  cases t.get? id with
  | none =>
    rw [Option.map_none, ite_self]
    exact .none
  | some n =>
    split
    · exact .some (n.reports_report type payload)
    · exact .some ⟨_, _, _, rfl⟩

/-- A message is taken in unless it sets a value of a child that is not known. -/
theorem exists_receive_iff :
    (∃ r, t.receive m = .ok r) ↔ (m.command = .set → ∃ p, t.child m.nodeId m.childId = .ok p) := by
  constructor
  · rintro ⟨r, h⟩ hset
    rcases receive_cases h with ⟨-, hchild, -⟩ | ⟨hcommand, -⟩ | ⟨hcommand, -⟩ | ⟨hcommand | hcommand, -⟩
    · exact hchild
    all_goals cases hset.symm.trans hcommand
  · intro h
    unfold receive
    split
    · next hset =>
      obtain ⟨p, hchild⟩ := h hset
      rw [setValue_eq, hchild]
      exact ⟨_, rfl⟩
    all_goals exact ⟨_, rfl⟩

theorem permits_receive {r : Option (UInt8 × UInt8) × Nodes} (h : t.receive m = .ok r) :
    r.1 = m.changed? ∧ m.Permits t r.2 := by
  unfold Message.changed? Message.Permits
  rcases receive_cases h with ⟨hcommand, ⟨p, hchild⟩, rfl⟩ | ⟨hcommand, rfl⟩ | ⟨hcommand, rfl⟩ |
    ⟨hcommand | hcommand, rfl⟩ <;> rw [hcommand]
  · exact ⟨rfl, stores_withValue hchild m.type m.payload⟩
  · exact ⟨rfl, keepsValues_present t m⟩
  · exact ⟨rfl, reports_modify t m.nodeId m.type m.payload⟩
  · exact ⟨rfl, rfl⟩
  · exact ⟨rfl, rfl⟩

theorem elsewhere_receive {r : Option (UInt8 × UInt8) × Nodes} (h : t.receive m = .ok r) {id : UInt8}
    (hid : id ≠ m.nodeId) : r.2.get? id = t.get? id := by
  rcases receive_cases h with ⟨-, -, rfl⟩ | ⟨-, rfl⟩ | ⟨-, rfl⟩ | ⟨-, rfl⟩
  · exact Table.get?_modify_of_ne hid _
  · exact Table.get?_insert_of_ne hid _
  · exact Table.get?_modify_of_ne hid _
  · rfl

/-! ### Lines -/

theorem exists_receiveLine_iff {line : String} : (∃ r, t.receiveLine line = .ok r) ↔
    ∃ m, Message.parse line = .ok m ∧
      (m.command = .set → ∃ p, t.child m.nodeId m.childId = .ok p) := by
  constructor
  · rintro ⟨r, h⟩
    obtain ⟨m, hparse, h⟩ := exists_message_of_receiveLine h
    exact ⟨m, hparse, exists_receive_iff.1 ⟨r, h⟩⟩
  · rintro ⟨m, hparse, h⟩
    rw [receiveLine_of_parse hparse]
    exact exists_receive_iff.2 h

/-- What a line that comes in may answer, and what it may change. -/
structure Takes (t : Nodes) (line : String) (answer : Except GatewayError (Option (UInt8 × UInt8)))
    (t' : Nodes) : Prop where
  accepted : (∃ changed, answer = .ok changed) ↔ ∃ m, Message.parse line = .ok m ∧
    (m.command = .set → ∃ p, t.child m.nodeId m.childId = .ok p)
  refused : ∀ e, answer = .error e → t' = t
  keeps : t.Keeps t'
  elsewhere : ∀ id, (∀ m, Message.parse line = .ok m → m.nodeId ≠ id) → t'.get? id = t.get? id
  permits : ∀ m changed, Message.parse line = .ok m → answer = .ok changed →
    changed = m.changed? ∧ m.Permits t t'

theorem takes_afterLine (t : Nodes) (line : String) :
    t.Takes line ((t.receiveLine line).map Prod.fst) (t.afterLine line) := by
  have haccepted : (∃ r, t.receiveLine line = .ok r) ↔ ∃ m, Message.parse line = .ok m ∧
      (m.command = .set → ∃ p, t.child m.nodeId m.childId = .ok p) := exists_receiveLine_iff
  cases h : t.receiveLine line with
  | error e =>
    rw [afterLine_of_error h]
    rw [h] at haccepted
    show t.Takes line (.error e) t
    refine ⟨⟨nofun, fun hm => ?_⟩, fun _ _ => rfl, .refl t, fun _ _ => rfl, fun _ _ _ h => ?_⟩
    · obtain ⟨_, hr⟩ := haccepted.2 hm
      cases hr
    · cases h
  | ok r =>
    rw [afterLine_of_ok h]
    obtain ⟨m, hparse, hr⟩ := exists_message_of_receiveLine h
    have hpermits := permits_receive hr
    show t.Takes line (.ok r.1) r.2
    refine ⟨⟨fun _ => haccepted.1 ⟨r, h⟩, fun _ => ⟨r.1, rfl⟩⟩, nofun, hpermits.2.keeps,
      fun id hid => elsewhere_receive hr (hid m hparse).symm, ?_⟩
    rintro m' _ hparse' ⟨⟩
    cases hparse.symm.trans hparse'
    exact hpermits

/-- Whatever lines come in, nothing that was known is lost. -/
theorem keeps_afterLines (t : Nodes) (lines : List String) : t.Keeps (t.afterLines lines) := by
  induction lines generalizing t with
  | nil => exact .refl t
  | cons line r ih =>
    rw [afterLines_cons]
    exact (t.takes_afterLine line).keeps.trans (ih (t.afterLine line))

end Nodes

/-! ### Gateways -/

namespace Gateway

variable {g : Gateway} {nodeId childId type : UInt8} {value : String}

/-- What a call with a value for a child may answer, hand to the link and change. -/
structure Sends (g : Gateway) (nodeId childId type : UInt8) (value : String)
    (answer : Except GatewayError Unit) (after : Gateway) : Prop where
  refused : ∀ e, answer = .error e → after.nodes = g.nodes
  unable : ¬ (g.connected = true ∧ ∃ p, g.nodes.child nodeId childId = .ok p) →
    (∃ e, answer = .error e) ∧ after.link = g.link
  able : g.connected = true → (∃ p, g.nodes.child nodeId childId = .ok p) →
    (answer, after.link) = g.link.perform (.send (Message.set nodeId childId type value).encode)
  stores : answer = .ok () → Nodes.Stores nodeId childId type value g.nodes after.nodes

theorem sends_of_able {p : Node × Child} (hconnected : g.connected = true)
    (hchild : g.nodes.child nodeId childId = .ok p) (type : UInt8) (value : String) :
    g.Sends nodeId childId type value (g.setChildValue nodeId childId type value).1
      (g.setChildValue nodeId childId type value).2 := by
  rw [setChildValue_eq hchild hconnected]
  unfold deliver
  split
  · next link hsent =>
    exact ⟨fun _ _ => rfl, fun h => absurd ⟨hconnected, p, hchild⟩ h, fun _ _ => hsent.symm, nofun⟩
  · next link hsent =>
    exact ⟨nofun, fun h => absurd ⟨hconnected, p, hchild⟩ h, fun _ _ => hsent.symm,
      fun _ => Nodes.stores_withValue hchild type value⟩

theorem sends_of_unable (h : ¬ (g.connected = true ∧ ∃ p, g.nodes.child nodeId childId = .ok p))
    (type : UInt8) (value : String) :
    g.Sends nodeId childId type value (g.setChildValue nodeId childId type value).1
      (g.setChildValue nodeId childId type value).2 := by
  have hrefused : ∃ e, g.setChildValue nodeId childId type value = (.error e, g) := by
    unfold setChildValue
    rw [Nodes.setValue_eq]
    cases hchild : g.nodes.child nodeId childId with
    | error e => exact ⟨e, rfl⟩
    | ok p =>
      have hconnected : g.connected = false := Bool.not_eq_true _ ▸ fun hne => h ⟨hne, p, hchild⟩
      exact ⟨.notConnected, by simp [Except.map, hconnected]⟩
  obtain ⟨e, he⟩ := hrefused
  rw [he]
  refine ⟨fun _ _ => rfl, fun _ => ⟨⟨e, rfl⟩, rfl⟩, fun hconnected hchild => ?_, fun hok => ?_⟩
  · exact absurd ⟨hconnected, hchild⟩ h
  · simp at hok

theorem receiveLine_fst (g : Gateway) (line : String) :
    (g.receiveLine line).1 = (g.nodes.receiveLine line).map Prod.fst := by
  unfold receiveLine
  cases g.nodes.receiveLine line <;> rfl

/-- A line that is no message, or that sets a value of a child that is not known, is refused and changes
nothing; any other line changes the node that it names as its kind allows, and loses nothing. A call hands
its line to the link exactly if the gateway is connected and the child is known, and changes the one value
exactly if the link takes the line. -/
theorem changes_only_addressed (g : Gateway) :
    (∀ line, g.nodes.Takes line (g.receiveLine line).1 (g.receiveLine line).2.nodes) ∧
    (∀ lines, g.nodes.Keeps (g.receiveLines lines).nodes) ∧
    ∀ nodeId childId type value, g.Sends nodeId childId type value
      (g.setChildValue nodeId childId type value).1 (g.setChildValue nodeId childId type value).2 := by
  refine ⟨fun line => ?_, fun lines => ?_, fun nodeId childId type value => ?_⟩
  · rw [receiveLine_fst, receiveLine_eq]
    exact g.nodes.takes_afterLine line
  · rw [receiveLines_eq]
    exact g.nodes.keeps_afterLines lines
  · by_cases hable : g.connected = true ∧ ∃ p, g.nodes.child nodeId childId = .ok p
    · obtain ⟨hconnected, p, hchild⟩ := hable
      exact sends_of_able hconnected hchild type value
    · exact sends_of_unable hable type value

end Gateway

end HomeHub.MySensors
