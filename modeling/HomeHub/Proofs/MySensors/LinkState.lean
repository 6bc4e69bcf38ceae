import HomeHub.MySensors.Gateway
import HomeHub.Proofs.Lists
import Mathlib.Data.List.Induction

/-!
# The link and the flag that tells of it

An operation of the integration does one of four things to the link and the flag (`Gateway.Moves`): it
leaves both as they are, but for a line that it sends; it connects, or disconnects, and the flag says so; or
it is a teardown whose disconnect fails, which takes the flag down and leaves the link open. So the link of a
gateway that counts as connected is open. The converse fails exactly after a teardown that failed, until the
next connect, and meanwhile another teardown does nothing: `Gateway.connected_iff_isOpen_iff`.
-/

namespace HomeHub.MySensors

/-! ### Links -/

namespace Link

/-- A connect has succeeded and no disconnect since. -/
def IsOpen (l : Link) : Prop :=
  ∃ before since, l.done = before ++ .connect :: since ∧ LinkAction.disconnect ∉ since

variable {l l' : Link}

theorem not_isOpen_of_nil (h : l.done = []) : ¬ l.IsOpen := by
  rintro ⟨before, since, hdone, -⟩
  simp [h] at hdone

theorem isOpen_congr (h : l'.done = l.done) : l'.IsOpen ↔ l.IsOpen := by
  unfold IsOpen
  rw [h]

/-- What was done last decides, unless it was to send a line. -/
theorem isOpen_concat {a : LinkAction} (h : l'.done = l.done ++ [a]) :
    l'.IsOpen ↔ a = .connect ∨ a ≠ .disconnect ∧ l.IsOpen := by
  unfold IsOpen
  simp only [h, append_singleton_eq_append_cons_iff]
  constructor
  · rintro ⟨before, since, ⟨-, rfl, -⟩ | ⟨since', rfl, hl⟩, hsince⟩
    · exact .inl rfl
    · simp only [List.mem_append, List.mem_singleton, not_or] at hsince
      exact .inr ⟨Ne.symm hsince.2, before, since', hl, hsince.1⟩
  · rintro (rfl | ⟨ha, before, since, hl, hsince⟩)
    · exact ⟨l.done, [], .inl ⟨rfl, rfl, rfl⟩, List.not_mem_nil⟩
    · refine ⟨before, since ++ [a], .inr ⟨since, rfl, hl⟩, ?_⟩
      simp only [List.mem_append, List.mem_singleton, not_or]
      exact ⟨hsince, ha.symm⟩

theorem perform_cases (l : Link) (a : LinkAction) :
    (∃ e link, l.perform a = (.error e, link) ∧ link.done = l.done) ∨
      ∃ link, l.perform a = (.ok (), link) ∧ link.done = l.done ++ [a] := by
  unfold perform
  cases l.fails l.tried a with
  | some reason => exact .inl ⟨_, _, rfl, rfl⟩
  | none => exact .inr ⟨_, rfl, rfl⟩

end Link

/-! ### Operations -/

/-- What is asked of an integration. A setup finds the ports and the node file as they are by then. -/
inductive Op where
  | setup (isPort : String → Bool) (file : NodeFile)
  | handleCall (call : ServiceCall)
  | setChildValue (nodeId childId type : UInt8) (value : String)
  | receiveLine (line : String)
  | teardown

namespace Gateway

variable {g g' : Gateway} {o : Op} {ops : List Op}

/-- The gateway after an operation. -/
def afterOp (g : Gateway) : Op → Gateway
  | .setup isPort file => (setup { g with isPort, file }).2
  | .handleCall call => (g.handleCall call).2
  | .setChildValue nodeId childId type value => (g.setChildValue nodeId childId type value).2
  | .receiveLine line => (g.receiveLine line).2
  | .teardown => g.teardown.2

/-- The gateway after operations, one after another. -/
def afterOps (g : Gateway) (ops : List Op) : Gateway := ops.foldl afterOp g

theorem afterOps_concat (g : Gateway) (ops : List Op) (o : Op) :
    g.afterOps (ops ++ [o]) = (g.afterOps ops).afterOp o := by
  rw [afterOps, List.foldl_append]
  rfl

/-- The operation is a teardown, and it fails. -/
def FailsTeardown (g : Gateway) (o : Op) : Prop := o = .teardown ∧ ∃ e, g.teardown.1 = .error e

/-- Nothing happens to the flag and the link, but that a line may be sent. -/
def KeepsLink (g g' : Gateway) : Prop :=
  g'.connected = g.connected ∧
    (g'.link.done = g.link.done ∨ ∃ line, g'.link.done = g.link.done ++ [.send line])

/-- The link is connected, and the flag says so. -/
def Connects (g g' : Gateway) : Prop :=
  g'.connected = true ∧ g'.link.done = g.link.done ++ [.connect]

/-- What an operation can do to the flag and the link. -/
inductive Moves (g : Gateway) (o : Op) (g' : Gateway) : Prop where
  | keeps (link : g.KeepsLink g') (succeeds : ¬ g.FailsTeardown o)
  | connects (link : g.Connects g') (succeeds : ¬ g.FailsTeardown o)
  | disconnects (before : g.connected = true) (after : g'.connected = false)
      (link : g'.link.done = g.link.done ++ [.disconnect]) (succeeds : ¬ g.FailsTeardown o)
  | fails (before : g.connected = true) (after : g'.connected = false)
      (link : g'.link.done = g.link.done) (fails : g.FailsTeardown o)

theorem connect_cases (g : Gateway) : g.KeepsLink g.connect.2 ∨ g.Connects g.connect.2 := by
  unfold connect
  rcases g.link.perform_cases .connect with ⟨e, link, hperform, hdone⟩ | ⟨link, hperform, hdone⟩
  · rw [hperform]
    exact .inl ⟨rfl, .inl hdone⟩
  · rw [hperform]
    exact .inr ⟨rfl, hdone⟩

theorem start_cases (g : Gateway) : g.KeepsLink g.start.2 ∨ g.Connects g.start.2 := by
  unfold start loadNodes
  cases g.config.validate g.isPort with
  | error e => exact .inl ⟨rfl, .inl rfl⟩
  | ok _ =>
    cases g.file.load with
    | error e => exact .inl ⟨rfl, .inl rfl⟩
    | ok nodes => exact connect_cases { g with nodes := g.nodes.merge nodes }

theorem discover_snd (g : Gateway) :
    g.discover.2.connected = g.connected ∧ g.discover.2.link = g.link := by
  unfold discover
  split <;> exact ⟨rfl, rfl⟩

theorem setup_cases (g : Gateway) : g.KeepsLink g.setup.2 ∨ g.Connects g.setup.2 := by
  have hstart := g.start_cases
  unfold setup
  split
  · next e g' h =>
    rw [h] at hstart
    exact hstart
  · next g' h =>
    rw [h] at hstart
    unfold KeepsLink Connects
    rw [g'.discover_snd.1, g'.discover_snd.2]
    exact hstart

theorem keepsLink_setChildValue (g : Gateway) (nodeId childId type : UInt8) (value : String) :
    g.KeepsLink (g.setChildValue nodeId childId type value).2 := by
  unfold setChildValue
  split
  · exact ⟨rfl, .inl rfl⟩
  · split
    · exact ⟨rfl, .inl rfl⟩
    · rcases g.link.perform_cases (.send (Message.set nodeId childId type value).encode) with
        ⟨e, link, hperform, hdone⟩ | ⟨link, hperform, hdone⟩
      · rw [hperform]
        exact ⟨rfl, .inl hdone⟩
      · rw [hperform]
        exact ⟨rfl, .inr ⟨_, hdone⟩⟩

theorem keepsLink_handleCall (g : Gateway) (call : ServiceCall) : g.KeepsLink (g.handleCall call).2 := by
  unfold handleCall
  cases request call with
  | error e => exact ⟨rfl, .inl rfl⟩
  | ok r => exact g.keepsLink_setChildValue r.1 r.2.1 r.2.2.1 r.2.2.2

theorem keepsLink_receiveLine (g : Gateway) (line : String) : g.KeepsLink (g.receiveLine line).2 := by
  unfold receiveLine
  split <;> exact ⟨rfl, .inl rfl⟩

theorem teardown_of_disconnected (h : g.connected = false) : g.teardown = (.ok (), g) := by
  unfold teardown disconnect
  rw [h]
  rfl

theorem teardown_of_connected (h : g.connected = true) :
    (∃ e link, g.teardown = (.error e, { g with connected := false, link }) ∧ link.done = g.link.done) ∨
      ∃ link, g.teardown = (.ok (), { g with connected := false, link }) ∧
        link.done = g.link.done ++ [.disconnect] := by
  unfold teardown disconnect
  rw [if_pos h]
  rcases g.link.perform_cases .disconnect with ⟨e, link, hperform, hdone⟩ | ⟨link, hperform, hdone⟩
  · rw [hperform]
    exact .inl ⟨e.hubError, link, rfl, hdone⟩
  · rw [hperform]
    exact .inr ⟨link, rfl, hdone⟩

theorem moves_teardown (g : Gateway) : g.Moves .teardown g.teardown.2 := by
  by_cases h : g.connected = true
  · rcases teardown_of_connected h with ⟨e, link, hteardown, hdone⟩ | ⟨link, hteardown, hdone⟩
    · rw [hteardown]
      exact .fails h rfl hdone ⟨rfl, e, by rw [hteardown]⟩
    · rw [hteardown]
      refine .disconnects h rfl hdone ?_
      rintro ⟨-, e, he⟩
      rw [hteardown] at he
      cases he
  · have hflag : g.connected = false := Bool.not_eq_true _ ▸ h
    have hteardown := teardown_of_disconnected hflag
    rw [hteardown]
    refine .keeps ⟨rfl, .inl rfl⟩ ?_
    rintro ⟨-, e, he⟩
    rw [hteardown] at he
    cases he

theorem moves_afterOp (g : Gateway) (o : Op) : g.Moves o (g.afterOp o) := by
  cases o with
  | setup isPort file =>
    rcases setup_cases { g with isPort, file } with h | h
    · exact .keeps h nofun
    · exact .connects h nofun
  | handleCall call => exact .keeps (g.keepsLink_handleCall call) nofun
  | setChildValue nodeId childId type value =>
    exact .keeps (g.keepsLink_setChildValue nodeId childId type value) nofun
  | receiveLine line => exact .keeps (g.keepsLink_receiveLine line) nofun
  | teardown => exact g.moves_teardown

/-! ### Teardowns that failed -/

/-- How often a connect has succeeded. -/
def connects (g : Gateway) : Nat := g.link.done.count .connect

/-- A teardown has failed, and no connect has succeeded since. -/
def LeftOpen (g : Gateway) (ops : List Op) : Prop :=
  ∃ before since, ops = before ++ .teardown :: since ∧ (g.afterOps before).FailsTeardown .teardown ∧
    (g.afterOps ops).connects = (g.afterOps before).connects

theorem KeepsLink.isOpen_iff (h : g.KeepsLink g') : g'.link.IsOpen ↔ g.link.IsOpen := by
  obtain ⟨-, hdone | ⟨line, hdone⟩⟩ := h
  · exact Link.isOpen_congr hdone
  · rw [Link.isOpen_concat hdone]
    simp

theorem KeepsLink.connects_eq (h : g.KeepsLink g') : g'.connects = g.connects := by
  obtain ⟨-, hdone | ⟨line, hdone⟩⟩ := h
  · rw [connects, hdone, connects]
  · rw [connects, hdone, List.count_append]
    rfl

theorem Connects.connects_eq (h : g.Connects g') : g'.connects = g.connects + 1 := by
  rw [connects, h.2, List.count_append]
  rfl

theorem connects_of_disconnect (h : g'.link.done = g.link.done ++ [.disconnect]) :
    g'.connects = g.connects := by
  rw [connects, h, List.count_append]
  rfl

theorem connects_of_failsTeardown (h : g.FailsTeardown o) : (g.afterOp o).connects = g.connects := by
  cases g.moves_afterOp o with
  | keeps _ hsucceeds => exact absurd h hsucceeds
  | connects _ hsucceeds => exact absurd h hsucceeds
  | disconnects _ _ _ hsucceeds => exact absurd h hsucceeds
  | fails _ _ hdone => rw [connects, hdone, connects]

theorem connects_le_afterOp (g : Gateway) (o : Op) : g.connects ≤ (g.afterOp o).connects := by
  cases g.moves_afterOp o with
  | keeps hkeeps => exact Nat.le_of_eq hkeeps.connects_eq.symm
  | connects hconnects =>
    rw [hconnects.connects_eq]
    exact Nat.le_succ _
  | disconnects _ _ hdone => exact Nat.le_of_eq (connects_of_disconnect hdone).symm
  | fails _ _ _ hfails => exact Nat.le_of_eq (connects_of_failsTeardown hfails).symm

theorem connects_le_afterOps (g : Gateway) (before since : List Op) :
    (g.afterOps before).connects ≤ (g.afterOps (before ++ since)).connects := by
  induction since using List.reverseRecOn with
  | nil => exact Nat.le_of_eq (by rw [List.append_nil])
  | append_singleton since o ih =>
    rw [← List.append_assoc, afterOps_concat]
    exact Nat.le_trans ih (connects_le_afterOp _ o)

theorem not_leftOpen_nil (g : Gateway) : ¬ g.LeftOpen [] := by
  rintro ⟨before, since, hops, -⟩
  simp at hops

theorem leftOpen_concat : g.LeftOpen (ops ++ [o]) ↔ (g.afterOps ops).FailsTeardown o ∨
    g.LeftOpen ops ∧ ((g.afterOps ops).afterOp o).connects = (g.afterOps ops).connects := by
  unfold LeftOpen
  simp only [append_singleton_eq_append_cons_iff, afterOps_concat]
  constructor
  · rintro ⟨before, since, ⟨rfl, rfl, rfl⟩ | ⟨since', rfl, hops⟩, hfails, hcount⟩
    · exact .inl hfails
    · -- there are no fewer connects after more operations, so all of them count the same
      have hbefore := hops ▸ connects_le_afterOps g before (.teardown :: since')
      have hlast := connects_le_afterOp (g.afterOps ops) o
      exact .inr ⟨⟨before, since', hops, hfails, by omega⟩, by omega⟩
  · rintro (hfails | ⟨⟨before, since, hops, hfails, hcount⟩, hlast⟩)
    · exact ⟨ops, [], .inl ⟨rfl, hfails.1, rfl⟩, hfails.1 ▸ hfails, connects_of_failsTeardown hfails⟩
    · exact ⟨before, since ++ [o], .inr ⟨since, rfl, hops⟩, hfails, hlast.trans hcount⟩

/-! ### Runs -/

/-- The link behind a gateway that counts as connected is open, and one behind a gateway that counts as
disconnected exactly if a teardown that failed has left it open. -/
theorem link_afterOps (hconnected : g.connected = false) (hdone : g.link.done = []) (ops : List Op) :
    ((g.afterOps ops).connected = true → (g.afterOps ops).link.IsOpen) ∧
      (g.LeftOpen ops ↔ (g.afterOps ops).connected = false ∧ (g.afterOps ops).link.IsOpen) := by
  induction ops using List.reverseRecOn with
  | nil =>
    refine ⟨fun h => absurd (h.symm.trans hconnected) nofun, iff_of_false g.not_leftOpen_nil ?_⟩
    exact fun h => Link.not_isOpen_of_nil hdone h.2
  | append_singleton ops o ih =>
    obtain ⟨hopen, hleft⟩ := ih
    rw [leftOpen_concat, afterOps_concat, hleft]
    cases (g.afterOps ops).moves_afterOp o with
    | keeps hkeeps hsucceeds =>
      rw [hkeeps.1, hkeeps.isOpen_iff, or_iff_right hsucceeds, and_iff_left hkeeps.connects_eq]
      exact ⟨hopen, .rfl⟩
    | connects hconnects hsucceeds =>
      refine ⟨fun _ => (Link.isOpen_concat hconnects.2).2 (.inl rfl), iff_of_false ?_ ?_⟩
      · rintro (hfails | ⟨-, hcount⟩)
        · exact hsucceeds hfails
        · have := hconnects.connects_eq
          omega
      · exact fun h => absurd (hconnects.1.symm.trans h.1) nofun
    | disconnects hbefore hafter hdone hsucceeds =>
      refine ⟨fun h => absurd (h.symm.trans hafter) nofun, iff_of_false ?_ ?_⟩
      · rintro (hfails | ⟨⟨hbefore', -⟩, -⟩)
        · exact hsucceeds hfails
        · exact absurd (hbefore.symm.trans hbefore') nofun
      · exact fun h => by simpa using (Link.isOpen_concat hdone).1 h.2
    | fails hbefore hafter hdone hfails =>
      refine ⟨fun h => absurd (h.symm.trans hafter) nofun, iff_of_true (.inl hfails) ⟨hafter, ?_⟩⟩
      exact (Link.isOpen_congr hdone).2 (hopen hbefore)

/-- Whatever is asked of a new gateway and whatever fails, its link is open if it counts as connected. The
converse holds unless a teardown has failed and no connect has succeeded since; then the link is still open,
and another teardown answers that all is well and does nothing. -/
theorem connected_iff_isOpen_iff (g : Gateway) (ops : List Op) :
    let new := { g with connected := false, link.done := [] }
    let after := new.afterOps ops
    (after.connected = true → after.link.IsOpen) ∧
    ((after.connected = true ↔ after.link.IsOpen) ↔ ¬ new.LeftOpen ops) ∧
    (new.LeftOpen ops → after.link.IsOpen ∧ after.teardown = (.ok (), after)) := by
  intro new after
  obtain ⟨hopen, hleft⟩ := link_afterOps (g := new) rfl rfl ops
  refine ⟨hopen, ⟨fun h hleftOpen => ?_, fun h => ⟨hopen, fun hisOpen => ?_⟩⟩, fun hleftOpen => ?_⟩
  · obtain ⟨hconnected, hisOpen⟩ := hleft.1 hleftOpen
    exact absurd ((h.2 hisOpen).symm.trans hconnected) nofun
  · by_contra hconnected
    exact h (hleft.2 ⟨Bool.not_eq_true _ ▸ hconnected, hisOpen⟩)
  · obtain ⟨hconnected, hisOpen⟩ := hleft.1 hleftOpen
    exact ⟨hisOpen, teardown_of_disconnected hconnected⟩

/-- The disconnect of a teardown fails, and the link stays open. -/
theorem not_always_connected_iff_isOpen : ¬ ∀ (g : Gateway) (ops : List Op), g.connected = false →
    g.link.done = [] → ((g.afterOps ops).connected = true ↔ (g.afterOps ops).link.IsOpen) := by
  intro h
  let fails (_ : Nat) (a : LinkAction) := if a = .disconnect then some "disconnect failed" else none
  let config : Config := { device := "/dev/ttyACM0" }
  let g : Gateway := { (default : Gateway) with config, link := { fails } }
  let ops := [Op.setup (fun _ => true) .missing, .teardown]
  have hdone : (g.afterOps ops).link.done = [.connect] := by decide +kernel
  have hconnected : (g.afterOps ops).connected = true :=
    (h g ops rfl rfl).2 ⟨[], [], hdone, List.not_mem_nil⟩
  exact absurd hconnected (by decide +kernel)

end Gateway

end HomeHub.MySensors
