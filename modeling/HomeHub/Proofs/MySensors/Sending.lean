import HomeHub.Proofs.Json.Numeral
import HomeHub.Proofs.MySensors.Message
import HomeHub.Proofs.MySensors.Nodes

/-!
# What a service call sends

A service call that is accepted sends one text, the encoding of a message with the value that is stored
for the child: `Gateway.of_handleCall_ok`. Nothing looks into the value. A number or a truth value holds no
line break, but a text may, so what is sent is one line that is read back as the message only if the text
holds no break that the transport or the reader would take for the end of the line:
`Gateway.sends_line_iff`.
-/

namespace HomeHub.MySensors

/-! ### Lines -/

/-- The text has one break, at its end. -/
def IsLine (s : String) : Prop := s.toList.count '\n' = 1 ∧ s.toList.getLast? = some '\n'

instance : DecidablePred IsLine := fun _ => inferInstanceAs (Decidable (_ ∧ _))

/-- The text has no break that ends a line, and none at its end that a reader drops. -/
def Unbroken (s : String) : Prop := '\n' ∉ s.toList ∧ s.toList.getLast? ≠ some '\r'

instance : DecidablePred Unbroken := fun _ => inferInstanceAs (Decidable (_ ∧ _))

theorem unbroken_of_forall {s : String} {p : Char → Bool} (h : ∀ c ∈ s.toList, p c = true)
    (hnewline : p '\n' = false) (hreturn : p '\r' = false) : Unbroken s :=
  ⟨fun hc => Bool.false_ne_true (hnewline.symm.trans (h _ hc)),
    fun hc => Bool.false_ne_true (hreturn.symm.trans (h _ (List.mem_of_getLast? hc)))⟩

namespace Message

theorem count_newline_written (payload : List Char) (ns : List UInt8) :
    (written payload ns).count '\n' = payload.count '\n' := by
  induction ns with
  | nil => rfl
  | cons n r ih =>
    have hdigits : '\n' ∉ (toString n.toNat).toList := fun h =>
      absurd (Decimal.isDigit_of_mem_toString h) (by decide)
    rw [written, List.count_append, List.count_eq_zero_of_not_mem hdigits, List.count_cons_of_ne (by decide),
      ih, Nat.zero_add]

theorem isLine_encode_iff (m : Message) : IsLine m.encode ↔ '\n' ∉ m.payload.toList := by
  have hcount : m.encode.toList.count '\n' = m.payload.toList.count '\n' + 1 := by
    rw [toList_encode, count_newline_written, List.count_append]
    rfl
  have hlast : m.encode.toList.getLast? = some '\n' := by
    rw [toList_encode, ← written_append, List.getLast?_append]
    rfl
  rw [IsLine, hcount, ← List.count_eq_zero]
  exact ⟨fun h => Nat.succ.inj h.1, fun h => ⟨congrArg (· + 1) h, hlast⟩⟩

/-- What a message is encoded as is one line that is read back as the message, if its payload is unbroken. -/
theorem isLine_and_parse_encode_iff (m : Message) :
    IsLine m.encode ∧ parse m.encode = .ok m ↔ Unbroken m.payload := by
  have hparse : parse m.encode = .ok m ↔ withoutBreaks m.payload.toList = m.payload.toList := by
    rw [parse_encode, Except.ok.injEq]
    constructor
    · exact fun h => String.toList_ofList.symm.trans (congrArg (·.payload.toList) h)
    · intro h
      rw [h, String.ofList_toList]
  rw [isLine_encode_iff, hparse, withoutBreaks_eq_self_iff]
  refine and_congr_right fun hnewline => ⟨fun h hlast => absurd (h _ hlast) (by decide), fun h c hc => ?_⟩
  rw [Bool.or_eq_false_iff, beq_eq_false_iff_ne, beq_eq_false_iff_ne]
  refine ⟨?_, ?_⟩
  · rintro rfl
    exact h hc
  · rintro rfl
    exact hnewline (List.mem_of_getLast? hc)

end Message

/-! ### Stored values -/

namespace Nodes

variable {t : Nodes} {nodeId childId : UInt8} {n : Node} {c : Child}

theorem of_child_ok (h : t.child nodeId childId = .ok (n, c)) :
    t.get? nodeId = some n ∧ n.children.get? childId = some c := by
  unfold child at h
  split at h
  · cases h
  · next n' hn =>
    split at h
    · cases h
    · next c' hc =>
      cases h
      exact ⟨hn, hc⟩

theorem value?_withValue (h : t.child nodeId childId = .ok (n, c)) (type : UInt8) (payload : String) :
    (t.withValue nodeId childId type payload).value? nodeId childId type = some payload := by
  obtain ⟨hn, hc⟩ := of_child_ok h
  simp [value?, withValue, Table.get?_modify, hn, hc]

end Nodes

/-! ### Gateways -/

namespace Gateway

variable {g : Gateway} {nodeId childId type : UInt8} {value : String} {call : ServiceCall}

/-- Hands a line to the link and, once it is sent, takes over the nodes. -/
def deliver (g : Gateway) (line : String) (nodes : Nodes) : Except GatewayError Unit × Gateway :=
  match g.link.perform (.send line) with
  | (.error e, link) => (.error e, { g with link })
  | (.ok (), link) => (.ok (), { g with link, nodes })

theorem setChildValue_eq {p : Node × Child} (hchild : g.nodes.child nodeId childId = .ok p)
    (hconnected : g.connected = true) (type : UInt8) (value : String) :
    g.setChildValue nodeId childId type value =
      g.deliver (Message.set nodeId childId type value).encode
        (g.nodes.withValue nodeId childId type value) := by
  unfold setChildValue deliver
  rw [Nodes.setValue_eq, hchild]
  simp only [Except.map, hconnected]
  rfl

theorem of_deliver_ok {line : String} {nodes : Nodes} (h : (g.deliver line nodes).1 = .ok ()) :
    (g.deliver line nodes).2.link.done = g.link.done ++ [.send line] ∧
    (g.deliver line nodes).2.nodes = nodes := by
  unfold deliver Link.perform at h ⊢
  cases hfails : g.link.fails g.link.tried (.send line) with
  | some reason =>
    rw [hfails] at h
    cases h
  | none => exact ⟨rfl, rfl⟩

theorem of_setChildValue_ok (h : (g.setChildValue nodeId childId type value).1 = .ok ()) :
    (∃ p, g.nodes.child nodeId childId = .ok p) ∧ g.connected = true := by
  unfold setChildValue at h
  rw [Nodes.setValue_eq] at h
  cases hchild : g.nodes.child nodeId childId with
  | error e =>
    rw [hchild] at h
    cases h
  | ok p =>
    refine ⟨⟨p, rfl⟩, ?_⟩
    by_contra hconnected
    rw [hchild] at h
    simp [Except.map, hconnected] at h

/-- An accepted call sends a message with the value of the call, and this is what is stored. -/
theorem of_handleCall_ok (h : (g.handleCall call).1 = .ok ()) :
    ∃ nodeId childId type value, request call = .ok (nodeId, childId, type, value) ∧
      (g.handleCall call).2.nodes.value? nodeId childId type = some value ∧
      (g.handleCall call).2.link.done =
        g.link.done ++ [.send (Message.set nodeId childId type value).encode] := by
  unfold handleCall at h ⊢
  cases hrequest : request call with
  | error e =>
    rw [hrequest] at h
    cases h
  | ok r =>
    obtain ⟨nodeId, childId, type, value⟩ := r
    rw [hrequest] at h
    have hset : (g.setChildValue nodeId childId type value).1 = .ok () := by
      cases hr : (g.setChildValue nodeId childId type value).1 with
      | ok _ => rfl
      | error e =>
        simp only [hr] at h
        cases h
    obtain ⟨⟨p, hchild⟩, hconnected⟩ := of_setChildValue_ok hset
    rw [setChildValue_eq hchild hconnected] at hset
    obtain ⟨hdone, hnodes⟩ := of_deliver_ok hset
    refine ⟨nodeId, childId, type, value, rfl, ?_, ?_⟩
    · simp only [setChildValue_eq hchild hconnected, hnodes]
      exact Nodes.value?_withValue hchild type value
    · simp only [setChildValue_eq hchild hconnected]
      exact hdone

theorem of_request_ok (h : request call = .ok (nodeId, childId, type, value)) :
    byteField call "node_id" = .ok nodeId ∧ byteField call "child_id" = .ok childId ∧
    byteField call "value_type" = .ok type ∧ valueField call = .ok value := by
  unfold request at h
  split at h
  · cases h
  · simp only [bind, Except.bind] at h
    repeat' split at h
    all_goals cases h
    exact ⟨‹_›, ‹_›, ‹_›, ‹_›⟩

/-- Only a text can put a line break into what is sent. -/
theorem unbroken_valueField_iff (h : valueField call = .ok value) :
    Unbroken value ↔ ∀ s, call.get? "value" = some (.str s) → Unbroken s := by
  unfold valueField at h
  split at h
  · next s hs =>
    cases h
    rw [hs]
    exact ⟨by rintro h _ ⟨⟩; exact h, fun h => h _ rfl⟩
  · next n hn =>
    cases h
    rw [hn]
    exact iff_of_true (unbroken_of_forall (Json.Number.isMark_text n) (by decide) (by decide)) nofun
  · next b hb =>
    cases h
    rw [hb]
    have hdigits : ∀ c ∈ (toString b.toNat).toList, c.isDigit = true :=
      fun _ => Decimal.isDigit_of_mem_toString
    exact iff_of_true (unbroken_of_forall hdigits (by decide) (by decide)) nofun
  · cases h

/-- An accepted call sends one text, which is one line, and this is read back as a message with the node,
the child and the type of the call and with the value that is stored for them. -/
def SendsLine (g : Gateway) (call : ServiceCall) : Prop :=
  ∃ nodeId childId type payload line,
    byteField call "node_id" = .ok nodeId ∧ byteField call "child_id" = .ok childId ∧
    byteField call "value_type" = .ok type ∧
    (g.handleCall call).2.nodes.value? nodeId childId type = some payload ∧
    (g.handleCall call).2.link.done = g.link.done ++ [.send line] ∧
    IsLine line ∧ Message.parse line = .ok (.set nodeId childId type payload)

/-- An accepted call sends one line, which is read back with the value that is stored, exactly if its value
is no text or a text without a break. -/
theorem sends_line_iff (h : (g.handleCall call).1 = .ok ()) :
    g.SendsLine call ↔ ∀ s, call.get? "value" = some (.str s) → Unbroken s := by
  obtain ⟨nodeId, childId, type, value, hrequest, hvalue, hdone⟩ := of_handleCall_ok h
  obtain ⟨hnodeId, hchildId, htype, hfield⟩ := of_request_ok hrequest
  rw [← unbroken_valueField_iff hfield]
  constructor
  · rintro ⟨nodeId', childId', type', payload, line, hnodeId', hchildId', htype', hpayload, hline, hsent⟩
    cases hnodeId.symm.trans hnodeId'
    cases hchildId.symm.trans hchildId'
    cases htype.symm.trans htype'
    cases hvalue.symm.trans hpayload
    have hsend := List.append_cancel_left (hline.symm.trans hdone)
    rw [LinkAction.send.inj (List.cons.inj hsend).1] at hsent
    exact (Message.isLine_and_parse_encode_iff (.set nodeId childId type value)).1 hsent
  · intro hunbroken
    exact ⟨nodeId, childId, type, value, _, hnodeId, hchildId, htype, hvalue, hdone,
      (Message.isLine_and_parse_encode_iff (.set nodeId childId type value)).2 hunbroken⟩

theorem sends_line_plug :
    let g := receiveLines { (default : Gateway) with connected := true } ["1;1;0;0;13;plug"]
    let call : ServiceCall := ⟨"mysensors", "set_child_value", .record [("node_id", .nat 1),
      ("child_id", .nat 1), ("value_type", .nat 17), ("value", .str "on; 1200 W")]⟩
    (g.handleCall call).1 = .ok () ∧ g.SendsLine call := by
  intro g call
  have hok : (g.handleCall call).1 = .ok () := by decide +kernel
  refine ⟨hok, (sends_line_iff hok).2 fun s hs => ?_⟩
  have hvalue : call.get? "value" = some (.str "on; 1200 W") := rfl
  cases hvalue.symm.trans hs
  decide +kernel

/-- A text with a break in it sends a second line, here one for another node. -/
theorem not_always_sends_line : ¬ ∀ (g : Gateway) (call : ServiceCall), g.connected = true →
    (g.handleCall call).1 = .ok () → g.SendsLine call := by
  intro h
  let g := receiveLines { (default : Gateway) with connected := true } ["1;1;0;0;13;plug"]
  let call : ServiceCall := ⟨"mysensors", "set_child_value", .record [("node_id", .nat 1),
    ("child_id", .nat 1), ("value_type", .nat 17), ("value", .str "1\n2;1;1;0;17;99")]⟩
  obtain ⟨_, _, _, _, line, -, -, -, -, hsent, hline, -⟩ :=
    h g call (by decide +kernel) (by decide +kernel)
  have hdone : (g.handleCall call).2.link.done =
      g.link.done ++ [.send "1;1;1;0;17;1\n2;1;1;0;17;99\n"] := by decide +kernel
  cases List.append_cancel_left (hsent.symm.trans hdone)
  exact absurd hline (by decide +kernel)

end Gateway

end HomeHub.MySensors
