import HomeHub.Proofs.FlowManager.Session
import HomeHub.Proofs.Table

/-!
# Hubs that are twins

A flow that waits on the password form keeps the last password that was tried. No form, answer or
listing shows it, and before anything is done with it the next one has taken its place. So hubs that
differ in nothing but such passwords (`Hub.Twin`) answer alike and stay twins, whatever is asked of
them (`Job.twin_step`, `Session.Twin.run`).
-/

namespace HomeHub

/-! ### What can be told of a flow -/

/-- The flow without the password that it keeps while it waits on the next one. -/
def Flow.masked (f : Flow) : Flow :=
  match f.step with
  | .authenticate => { f with password := none }
  | _ => f

def InProgress.masked (p : InProgress) : InProgress := { p with flow := p.flow.masked }

def FlowTable.masked (t : FlowTable) : FlowTable :=
  { t with flows := t.flows.map InProgress.masked }

namespace Flow

variable (f : Flow)

theorem masked_of_authenticate {f : Flow} (h : f.step = .authenticate) :
    f.masked = { f with password := none } := by
  rw [masked, h]

@[simp] theorem masked_source : f.masked.source = f.source := by unfold masked; split <;> rfl
@[simp] theorem masked_step : f.masked.step = f.step := by unfold masked; split <;> rfl
@[simp] theorem masked_host : f.masked.host = f.host := by unfold masked; split <;> rfl
@[simp] theorem masked_port : f.masked.port = f.port := by unfold masked; split <;> rfl
@[simp] theorem masked_name : f.masked.name = f.name := by unfold masked; split <;> rfl
@[simp] theorem masked_uniqueId : f.masked.uniqueId = f.uniqueId := by unfold masked; split <;> rfl

/-- A submitted form never meets the password that the flow keeps. -/
theorem advance_submit_masked (j : Job) (f : Flow) (input : Json) :
    j.advance (f.masked.submit input) = j.advance (f.submit input) := by
  obtain ⟨source, step, host, port, password, name, uniqueId⟩ := f
  cases step with
  | authenticate =>
    -- after a malformed input the flow still has the password, but only its error goes on
    simp only [masked, submit]
    cases PasswordInput.parse input <;> rfl
  | _ => rfl

end Flow

namespace FlowTable

variable (t : FlowTable) (id : Uuid)

theorem get?_masked : t.masked.flows.get? id = (t.flows.get? id).map InProgress.masked :=
  Table.get?_map ..

theorem masked_register (f : Flow) (last : Flow.Result) :
    (t.register id f last).masked = t.masked.register id f.masked last :=
  congrArg (fun flows => FlowTable.mk flows t.claimed) (Table.map_insert ..)

theorem masked_setBusy (busy : Bool) : (t.setBusy id busy).masked = t.masked.setBusy id busy := by
  have commutes : ∀ p : InProgress, InProgress.masked { p with busy } = { p.masked with busy } :=
    fun _ => rfl
  exact congrArg (fun flows => FlowTable.mk flows t.claimed)
    (Table.map_modify InProgress.masked commutes t.flows id)

theorem masked_remove : (t.remove id).masked = t.masked.remove id :=
  congrArg (fun flows => FlowTable.mk flows t.claimed) (Table.map_erase ..)

theorem inProgress_masked (name : String) : t.masked.inProgress name = t.inProgress name := by
  simp only [inProgress, masked, Table.values_map, List.any_map]
  congr 2
  funext p
  simp [InProgress.masked]

end FlowTable

/-! ### Hubs that are twins -/

/-- The hubs differ in nothing but passwords that flows keep while they wait on the next one, and
the nodes were called alike after the calls that came before. -/
structure Hub.Twin (before before' : List Contact) (h h' : Hub) : Prop where
  supply : h.supply = h'.supply
  publisher : h.publisher = h'.publisher
  states : h.states = h'.states
  repository : h.repository = h'.repository
  loaded : h.loaded = h'.loaded
  network : h.network = h'.network
  flows : h.flows.masked = h'.flows.masked
  contacts : ∃ later, h.contacts = before ++ later ∧ h'.contacts = before' ++ later

namespace Hub.Twin

variable {before before' : List Contact} {h h' : Hub}

theorem refl (h : Hub) : h.Twin h.contacts h.contacts h where
  supply := rfl
  publisher := rfl
  states := rfl
  repository := rfl
  loaded := rfl
  network := rfl
  flows := rfl
  contacts := ⟨[], (List.append_nil _).symm, (List.append_nil _).symm⟩

theorem setFlows (ht : h.Twin before before' h') {t t' : FlowTable} (flows : t.masked = t'.masked) :
    Hub.Twin before before' { h with flows := t } { h' with flows := t' } := { ht with flows }

/-- A flow is registered with both or with neither. -/
theorem registered (ht : h.Twin before before' h') (id : Uuid) :
    (h.flows.flows.get? id = none ∧ h'.flows.flows.get? id = none) ∨
      ∃ p p', h.flows.flows.get? id = some p ∧ h'.flows.flows.get? id = some p' ∧
        p.flow.masked = p'.flow.masked ∧ p.last = p'.last ∧ p.busy = p'.busy := by
  have hget := h.flows.get?_masked id
  rw [ht.flows, FlowTable.get?_masked] at hget
  cases hp : h.flows.flows.get? id with
  | none => exact .inl ⟨rfl, Option.map_eq_none_iff.1 (hget.trans (by rw [hp]; rfl))⟩
  | some p =>
    rw [hp] at hget
    obtain ⟨p', hp', hmasked⟩ := Option.map_eq_some_iff.1 hget
    obtain ⟨hflow, hlast, hbusy⟩ := InProgress.mk.inj hmasked
    exact .inr ⟨p, p', rfl, hp', hflow.symm, hlast.symm, hbusy.symm⟩

theorem draw (ht : h.Twin before before' h') :
    h.draw.1 = h'.draw.1 ∧ h.draw.2.Twin before before' h'.draw.2 :=
  ⟨congrArg (·.draw.1) ht.supply, { ht with supply := congrArg (·.draw.2) ht.supply }⟩

/-- A call to a node comes after those before. -/
theorem contact (ht : h.Twin before before' h') (c : Contact) :
    Hub.Twin before before' { h with contacts := h.contacts ++ [c] }
      { h' with contacts := h'.contacts ++ [c] } := by
  obtain ⟨later, heq, heq'⟩ := ht.contacts
  exact { ht with contacts := ⟨later ++ [c], by rw [heq, List.append_assoc],
    by rw [heq', List.append_assoc]⟩ }

theorem describe (ht : h.Twin before before' h') (t : Target) :
    (h.describe t).1 = (h'.describe t).1 ∧ (h.describe t).2.Twin before before' (h'.describe t).2 :=
  ⟨congrArg (·.describe t) ht.network, ht.contact _⟩

theorem login (ht : h.Twin before before' h') (t : Target) :
    (h.login t).1 = (h'.login t).1 ∧ (h.login t).2.Twin before before' (h'.login t).2 :=
  ⟨congrArg (·.login t) ht.network, ht.contact _⟩

theorem createEntry (ht : h.Twin before before' h') (e : Entry) :
    (h.createEntry e).1 = (h'.createEntry e).1 ∧
      (h.createEntry e).2.Twin before before' (h'.createEntry e).2 := by
  unfold Hub.createEntry
  rw [ht.repository, ht.supply]
  exact ⟨rfl, { ht with supply := rfl, repository := rfl }⟩

theorem updateEntry (ht : h.Twin before before' h') (e : Entry) :
    (h.updateEntry e).1 = (h'.updateEntry e).1 ∧
      (h.updateEntry e).2.Twin before before' (h'.updateEntry e).2 := by
  unfold Hub.updateEntry
  rw [ht.repository]
  exact ⟨rfl, { ht with repository := rfl }⟩

theorem publish (ht : h.Twin before before' h') (t : EventType) (id : Option String) (data : Json) :
    (h.publish t id data).2.Twin before before' (h'.publish t id data).2 := by
  unfold Hub.publish
  rw [ht.supply, ht.publisher]
  exact { ht with supply := rfl, publisher := rfl }

end Hub.Twin

/-! ### Calls to twins -/

section Calls

variable {before before' : List Contact} {h h' : Hub}

theorem Flow.Phase.twin_step (p : Flow.Phase) (ht : h.Twin before before' h') :
    (p.step h).1 = (p.step h').1 ∧ (p.step h).2.Twin before before' (p.step h').2 := by
  cases p with
  | describe f =>
    obtain ⟨reply, hubs⟩ := ht.describe f.describeTarget
    exact ⟨congrArg (described f) reply, hubs⟩
  | described f reply => exact ⟨rfl, ht⟩
  | login f t =>
    obtain ⟨reply, hubs⟩ := ht.login t
    exact ⟨congrArg (loggedIn f) reply, hubs⟩
  | loggedIn f reply => exact ⟨rfl, ht⟩
  | findMatch f g =>
    simp only [step, ht.repository]
    split
    · exact ⟨rfl, ht⟩
    · exact ⟨rfl, ht⟩
  | update f e =>
    have updated := ht.updateEntry e
    simp only [step]
    generalize h.updateEntry e = x, h'.updateEntry e = x' at updated
    obtain ⟨reply, h₁⟩ := x
    obtain ⟨reply', h₁'⟩ := x'
    obtain ⟨rfl, hubs⟩ := updated
    cases reply <;> exact ⟨rfl, hubs⟩
  | listKnown f a =>
    simp only [step, ht.repository, ht.loaded]
    split
    · exact ⟨rfl, ht⟩
    · exact ⟨rfl, ht⟩
  | done f r => exact ⟨rfl, ht⟩

namespace Job

theorem existing_eq (ht : h.Twin before before' h') (n : Flow.NewEntry) :
    existing h n = existing h' n := by
  unfold existing
  rw [ht.repository]

/-- A form that is submitted to twins leads to the same. -/
theorem twin_begin (id : Uuid) (claimed : Option String) (input : Json)
    (ht : h.Twin before before' h') :
    (step ⟨id, claimed, .begin input⟩ h).1 = (step ⟨id, claimed, .begin input⟩ h').1 ∧
      (step ⟨id, claimed, .begin input⟩ h).2.Twin before before'
        (step ⟨id, claimed, .begin input⟩ h').2 := by
  simp only [step]
  obtain ⟨hp, hp'⟩ | ⟨p, p', hp, hp', hflow, -, hbusy⟩ := ht.registered id
  · rw [hp, hp']
    exact ⟨rfl, ht⟩
  rw [hp, hp']
  dsimp only
  rw [hbusy]
  split
  · exact ⟨rfl, ht⟩
  · refine ⟨?_, ht.setFlows ?_⟩
    · rw [← Flow.advance_submit_masked, hflow, Flow.advance_submit_masked]
    · rw [FlowTable.masked_setBusy, FlowTable.masked_setBusy, ht.flows]

/-- Whatever a call does next, it does the same to twins. -/
theorem twin_step (j : Job) (ht : h.Twin before before' h') :
    (j.step h).1 = (j.step h').1 ∧ (j.step h).2.Twin before before' (j.step h').2 := by
  obtain ⟨id, claimed, s⟩ := j
  cases s with
  | claim a =>
    have hprogress : h.flows.inProgress a.nodeName = h'.flows.inProgress a.nodeName := by
      rw [← FlowTable.inProgress_masked, ht.flows, FlowTable.inProgress_masked]
    simp only [step, hprogress]
    split
    · exact ⟨rfl, ht⟩
    · exact ⟨rfl, ht.setFlows (congrArg (FlowTable.claim · a.nodeName) ht.flows)⟩
  | begin input => exact twin_begin id claimed input ht
  | run p =>
    obtain ⟨phases, hubs⟩ := p.twin_step ht
    exact ⟨congrArg (advance _) phases, hubs⟩
  | register f form =>
    refine ⟨rfl, ht.setFlows ?_⟩
    rw [FlowTable.masked_register, FlowTable.masked_register, ht.flows]
  | check n =>
    obtain ⟨fresh, hubs⟩ := ht.draw
    simp only [step, existing_eq ht]
    split
    · exact ⟨rfl, ht⟩
    · exact ⟨rfl, ht⟩
    · rw [fresh, hubs.supply]
      split
      · exact ⟨rfl, hubs⟩
      · exact ⟨rfl, hubs⟩
  | store n e =>
    have stored := ht.createEntry e
    simp only [step]
    generalize h.createEntry e = x, h'.createEntry e = x' at stored
    obtain ⟨reply, h₁⟩ := x
    obtain ⟨reply', h₁'⟩ := x'
    obtain ⟨rfl, hubs⟩ := stored
    cases reply <;> exact ⟨rfl, hubs⟩
  | recheck n err =>
    simp only [step, existing_eq ht]
    split
    · exact ⟨rfl, ht⟩
    · exact ⟨rfl, ht⟩
    · exact ⟨rfl, ht⟩
  | announce n e => exact ⟨rfl, ht.publish ..⟩
  | finish result entry =>
    refine ⟨rfl, ht.setFlows ?_⟩
    rw [FlowTable.masked_remove, FlowTable.masked_remove, ht.flows]
  | release err =>
    refine ⟨rfl, ht.setFlows ?_⟩
    rw [FlowTable.masked_setBusy, FlowTable.masked_setBusy, ht.flows]
  | unclaim r => exact ⟨rfl, ht.setFlows (congrArg (FlowTable.unclaim · _) ht.flows)⟩
  | done r => exact ⟨rfl, ht⟩

end Job

end Calls

/-! ### Whatever is asked of twins -/

theorem Hub.listFlows_masked (h : Hub) :
    Hub.listFlows { h with flows := h.flows.masked } = h.listFlows := by
  simp only [listFlows, FlowTable.masked, Table.map, List.map_map]
  congr 1
  funext p
  simp [InProgress.masked]

namespace Hub.Twin

variable {before before' : List Contact} {h h' : Hub}

theorem initJob (ht : h.Twin before before' h') (source : Source)
    (announcement : Option Announcement) :
    (h.initJob source announcement).1 = (h'.initJob source announcement).1 ∧
      (h.initJob source announcement).2.Twin before before'
        (h'.initJob source announcement).2 := by
  obtain ⟨fresh, hubs⟩ := ht.draw
  simp only [Hub.initJob, fresh]
  cases source with
  | user => exact ⟨rfl, hubs⟩
  | zeroconf => cases announcement <;> exact ⟨rfl, hubs⟩

theorem abortFlow (ht : h.Twin before before' h') (id : Uuid) :
    (h.abortFlow id).1 = (h'.abortFlow id).1 ∧
      (h.abortFlow id).2.Twin before before' (h'.abortFlow id).2 := by
  unfold Hub.abortFlow
  obtain ⟨hp, hp'⟩ | ⟨p, p', hp, hp', -⟩ := ht.registered id
  · rw [hp, hp']
    exact ⟨rfl, ht⟩
  · rw [hp, hp']
    refine ⟨rfl, ht.setFlows ?_⟩
    rw [FlowTable.masked_remove, FlowTable.masked_remove, ht.flows]

theorem getFlow (ht : h.Twin before before' h') (id : Uuid) : h.getFlow id = h'.getFlow id := by
  unfold Hub.getFlow
  obtain ⟨hp, hp'⟩ | ⟨p, p', hp, hp', -, hlast, -⟩ := ht.registered id
  · rw [hp, hp']
  · rw [hp, hp']
    exact congrArg (fun last => Except.ok (FlowResponse.mk id last none)) hlast

theorem listFlows (ht : h.Twin before before' h') : h.listFlows = h'.listFlows := by
  rw [← h.listFlows_masked, ← h'.listFlows_masked, ht.flows]
  rfl

end Hub.Twin

/-- Anything else that happens to the hub neither reads nor changes the flows and the record of the
calls to nodes. -/
def Action.Blind : Action → Prop
  | .elsewhere change => ∀ (h : Hub) (flows : FlowTable) (contacts : List Contact),
      change { h with flows, contacts } = { change h with flows, contacts }
  | _ => True

theorem Hub.Twin.aside {before before' : List Contact} {h h' : Hub}
    (ht : h.Twin before before' h') {change : Hub → Hub} (blind : (Action.elsewhere change).Blind) :
    (h.aside change).Twin before before' (h'.aside change) := by
  -- both hubs change alike, each with its own flows and calls
  have after : change h' = { change h with flows := h'.flows, contacts := h'.contacts } := by
    rw [← blind]
    obtain ⟨⟩ := h
    obtain ⟨⟩ := h'
    obtain ⟨rfl, rfl, rfl, rfl, rfl, rfl, -, -⟩ := ht
    rfl
  have own : change h = { change h with flows := h.flows, contacts := h.contacts } :=
    blind h h.flows h.contacts
  unfold Hub.aside
  rw [after, ht.supply, own]
  exact { ht with
    supply := rfl
    publisher := rfl
    states := rfl
    repository := rfl
    loaded := rfl
    network := rfl }

/-! ### Runs of twins -/

/-- What a front end is shown at once. -/
inductive Glance where
  | form (r : Except HubError FlowResponse)
  | list (l : List FlowProgress)
  | dropped (r : Except HubError Unit)

namespace Session

/-- The answer to a call that is over at once. -/
def glance? (s : Session) : Action → Option Glance
  | .get f => some (.form (s.hub.getFlow f))
  | .list => some (.list s.hub.listFlows)
  | .abort f => some (.dropped (s.hub.abortFlow f).1)
  | _ => none

/-- All such answers along a run. -/
def glances (s : Session) : List Action → List Glance
  | [] => []
  | a :: as => (s.glance? a).toList ++ (s.step a).glances as

/-- The hubs are twins, and all calls stand alike. -/
structure Twin (before before' : List Contact) (s s' : Session) : Prop where
  hub : s.hub.Twin before before' s'.hub
  jobs : s.jobs = s'.jobs

variable {before before' : List Contact} {s s' : Session}

theorem Twin.refl (s : Session) : s.Twin s.hub.contacts s.hub.contacts s := ⟨.refl s.hub, rfl⟩

theorem Twin.step (ht : s.Twin before before' s') {a : Action} (blind : a.Blind) :
    (s.step a).Twin before before' (s'.step a) := by
  cases a with
  | init source announcement =>
    obtain ⟨jobs, hubs⟩ := ht.hub.initJob source announcement
    exact ⟨hubs, by simp only [Session.step, jobsAfter, ht.jobs, jobs]⟩
  | configure f input => exact ⟨ht.hub, congrArg (· ++ [Hub.configureJob f input]) ht.jobs⟩
  | get f => exact ⟨ht.hub, ht.jobs⟩
  | list => exact ⟨ht.hub, ht.jobs⟩
  | abort f => exact ⟨(ht.hub.abortFlow f).2, ht.jobs⟩
  | advance i =>
    cases hj : s.jobs[i]? with
    | none =>
      rw [step_advance_none hj, step_advance_none (ht.jobs ▸ hj)]
      exact ht
    | some j =>
      obtain ⟨jobs, hubs⟩ := j.twin_step ht.hub
      rw [step_advance hj, step_advance (ht.jobs ▸ hj)]
      exact ⟨hubs, by rw [ht.jobs, jobs]⟩
  | nodes network => exact ⟨{ ht.hub with network := rfl }, ht.jobs⟩
  | elsewhere change => exact ⟨ht.hub.aside blind, ht.jobs⟩

theorem Twin.run (ht : s.Twin before before' s') {as : List Action} (blind : ∀ a ∈ as, a.Blind) :
    (s.run as).Twin before before' (s'.run as) := by
  induction as generalizing s s' with
  | nil => exact ht
  | cons a as ih =>
    obtain ⟨first, rest⟩ := List.forall_mem_cons.1 blind
    exact ih (ht.step first) rest

theorem Twin.glance? (ht : s.Twin before before' s') (a : Action) : s.glance? a = s'.glance? a := by
  cases a with
  | get f => exact congrArg (some <| Glance.form ·) (ht.hub.getFlow f)
  | list => exact congrArg (some <| Glance.list ·) ht.hub.listFlows
  | abort f => exact congrArg (some <| Glance.dropped ·) (ht.hub.abortFlow f).1
  | _ => rfl

theorem Twin.glances (ht : s.Twin before before' s') {as : List Action}
    (blind : ∀ a ∈ as, a.Blind) : s.glances as = s'.glances as := by
  induction as generalizing s s' with
  | nil => rfl
  | cons a as ih =>
    obtain ⟨first, rest⟩ := List.forall_mem_cons.1 blind
    rw [Session.glances, Session.glances, ht.glance?, ih (ht.step first) rest]

end Session

end HomeHub
