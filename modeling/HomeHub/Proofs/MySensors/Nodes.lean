import HomeHub.MySensors.Gateway
import HomeHub.Proofs.Results
import HomeHub.Proofs.Table

/-!
# Node tables that lines keep

A value is stored by changing one child in its place (`Nodes.setValue_eq`). A table is keyed if each node
and each child is kept under its own id. Every line keeps a keyed table keyed, since a presentation files
a new node or child under the id that it gives it, and all else changes what is there:
`Nodes.Keyed.afterLines`.
-/

namespace HomeHub.MySensors

variable {t : Nodes} {n : Node} {m : Message}

/-! ### Values -/

namespace Nodes

/-- The value of a type that a child holds. -/
def value? (t : Nodes) (nodeId childId type : UInt8) : Option String := do
  let n ← t.get? nodeId
  let c ← n.children.get? childId
  c.values.get? type

/-- The table with a value of a child, which stays as it is if there is no such child. -/
def withValue (t : Nodes) (nodeId childId type : UInt8) (payload : String) : Nodes :=
  t.modify nodeId fun n => { n with
    children := n.children.modify childId fun c => { c with values := c.values.insert type payload } }

theorem setValue_eq (t : Nodes) (nodeId childId type : UInt8) (payload : String) :
    t.setValue nodeId childId type payload =
      (t.child nodeId childId).map fun _ => t.withValue nodeId childId type payload := by
  unfold setValue child withValue Table.modify
  cases t.get? nodeId with
  | none => rfl
  | some n =>
    simp only
    cases n.children.get? childId <;> rfl

end Nodes

/-! ### Keys -/

/-- Each child is kept under its id. -/
def Node.Keyed (n : Node) : Prop := n.children.All fun id c => c.id = id

instance : DecidablePred Node.Keyed := fun _ => inferInstanceAs (Decidable (Table.All _ _))

/-- Each node and each child is kept under its id. -/
def Nodes.Keyed (t : Nodes) : Prop := t.All fun id n => n.sensorId = id ∧ n.Keyed

instance : DecidablePred Nodes.Keyed := fun _ => inferInstanceAs (Decidable (Table.All _ _))

theorem Node.Keyed.presentChild (h : n.Keyed) (childId type : UInt8) (description : String) :
    (n.presentChild childId type description).Keyed := by
  refine Table.All.insert h ?_
  cases hget : n.children.get? childId with
  | none => rfl
  | some c => exact h childId c hget

/-! ### Lines -/

namespace Nodes

/-- What a message that is taken in answers and how it changes the nodes. -/
theorem receive_cases {r : Option (UInt8 × UInt8) × Nodes} (h : t.receive m = .ok r) :
    (m.command = .set ∧ (∃ p, t.child m.nodeId m.childId = .ok p) ∧
      r = (some (m.nodeId, m.childId), t.withValue m.nodeId m.childId m.type m.payload)) ∨
    (m.command = .presentation ∧ r = (none, t.present m)) ∨
    (m.command = .internal ∧ r = (none, t.modify m.nodeId (·.report m.type m.payload))) ∨
    ((m.command = .req ∨ m.command = .stream) ∧ r = (none, t)) := by
  unfold receive at h
  split at h
  · next hset =>
    rw [setValue_eq] at h
    cases hchild : t.child m.nodeId m.childId with
    | error e =>
      rw [hchild] at h
      cases h
    | ok p =>
      rw [hchild] at h
      cases h
      exact .inl ⟨hset, ⟨p, rfl⟩, rfl⟩
  · next hpresentation => exact .inr (.inl ⟨hpresentation, (Except.ok.inj h).symm⟩)
  · next hinternal => exact .inr (.inr (.inl ⟨hinternal, (Except.ok.inj h).symm⟩))
  · next hreq => exact .inr (.inr (.inr ⟨.inl hreq, (Except.ok.inj h).symm⟩))
  · next hstream => exact .inr (.inr (.inr ⟨.inr hstream, (Except.ok.inj h).symm⟩))

/-- A line that is taken in is a message that is. -/
theorem exists_message_of_receiveLine {line : String} {r : Option (UInt8 × UInt8) × Nodes}
    (h : t.receiveLine line = .ok r) : ∃ m, Message.parse line = .ok m ∧ t.receive m = .ok r := by
  obtain ⟨m, hm, h⟩ := exists_of_bind h
  cases hparse : Message.parse line with
  | error f =>
    rw [hparse] at hm
    cases hm
  | ok m' =>
    rw [hparse] at hm
    cases hm
    exact ⟨m, rfl, h⟩

/-- The table after a line came in. A line that is refused leaves it as it is. -/
def afterLine (t : Nodes) (line : String) : Nodes :=
  match t.receiveLine line with
  | .ok (_, t) => t
  | .error _ => t

theorem receiveLine_of_parse {line : String} {m : Message} (h : Message.parse line = .ok m) :
    t.receiveLine line = t.receive m := by
  rw [receiveLine, h]
  rfl

theorem afterLine_of_ok {line : String} {r : Option (UInt8 × UInt8) × Nodes} (h : t.receiveLine line = .ok r) :
    t.afterLine line = r.2 := by
  unfold afterLine
  rw [h]

theorem afterLine_of_error {line : String} {e : GatewayError} (h : t.receiveLine line = .error e) :
    t.afterLine line = t := by
  unfold afterLine
  rw [h]

/-- The table after lines came in, one after another. -/
def afterLines (t : Nodes) (lines : List String) : Nodes := lines.foldl afterLine t

theorem afterLines_nil (t : Nodes) : t.afterLines [] = t := rfl

theorem afterLines_cons (t : Nodes) (line : String) (lines : List String) :
    t.afterLines (line :: lines) = (t.afterLine line).afterLines lines := by
  rw [afterLines, List.foldl_cons, afterLines]

namespace Keyed

theorem withValue (h : t.Keyed) (nodeId childId type : UInt8) (payload : String) :
    (t.withValue nodeId childId type payload).Keyed :=
  h.modify fun _ hn => ⟨hn.1, hn.2.modify fun _ hc => hc⟩

theorem present (h : t.Keyed) (m : Message) : (t.present m).Keyed := by
  have hnode : ((t.get? m.nodeId).getD (Node.new m.nodeId)).sensorId = m.nodeId ∧
      ((t.get? m.nodeId).getD (Node.new m.nodeId)).Keyed := by
    cases hget : t.get? m.nodeId with
    | none => exact ⟨rfl, Table.all_empty⟩
    | some n => exact h m.nodeId n hget
  refine h.insert ?_
  split
  · exact hnode
  · exact ⟨hnode.1, hnode.2.presentChild _ _ _⟩

theorem report (h : t.Keyed) (nodeId type : UInt8) (payload : String) :
    Keyed (t.modify nodeId (·.report type payload)) := by
  refine h.modify fun n hn => ?_
  unfold Node.report
  repeat' split
  all_goals exact hn

theorem receive (h : t.Keyed) {r : Option (UInt8 × UInt8) × Nodes} (hr : t.receive m = .ok r) :
    r.2.Keyed := by
  rcases receive_cases hr with ⟨-, -, rfl⟩ | ⟨-, rfl⟩ | ⟨-, rfl⟩ | ⟨-, rfl⟩
  · exact h.withValue _ _ _ _
  · exact h.present m
  · exact h.report _ _ _
  · exact h

theorem afterLine (h : t.Keyed) (line : String) : (t.afterLine line).Keyed := by
  cases hline : t.receiveLine line with
  | error _ =>
    rw [afterLine_of_error hline]
    exact h
  | ok r =>
    rw [afterLine_of_ok hline]
    obtain ⟨m, -, hr⟩ := exists_message_of_receiveLine hline
    exact h.receive hr

theorem afterLines (h : t.Keyed) (lines : List String) : (t.afterLines lines).Keyed := by
  induction lines generalizing t with
  | nil => exact h
  | cons line r ih =>
    rw [afterLines_cons]
    exact ih (h.afterLine line)

end Keyed

end Nodes

/-! ### Gateways -/

namespace Gateway

/-- The gateway after lines came in, one after another. -/
def receiveLines (g : Gateway) (lines : List String) : Gateway :=
  lines.foldl (fun g line => (g.receiveLine line).2) g

theorem receiveLine_eq (g : Gateway) (line : String) :
    (g.receiveLine line).2 = { g with nodes := g.nodes.afterLine line } := by
  unfold receiveLine Nodes.afterLine
  cases g.nodes.receiveLine line <;> rfl

theorem receiveLines_eq (g : Gateway) (lines : List String) :
    g.receiveLines lines = { g with nodes := g.nodes.afterLines lines } := by
  induction lines generalizing g with
  | nil => rfl
  | cons line r ih =>
    rw [receiveLines, List.foldl_cons, ← receiveLines, ih, receiveLine_eq, Nodes.afterLines_cons]

end Gateway

end HomeHub.MySensors
