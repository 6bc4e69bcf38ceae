import HomeHub.Proofs.FlowManager.Frame
import HomeHub.Proofs.FlowManager.Host

/-!
# Where entries of nodes point

The host and the port that a flow stores come from its form, where they are checked, or from an
announcement, where they are not. So an entry whose target is not addressable has its blank host or
its zero port from an announcement: `Session.unaddressable_only_as_announced`.
-/

namespace HomeHub

def Announcement.target (a : Announcement) : Target := ⟨a.host, a.port, ""⟩

namespace Target

variable {t : Target} {announced : List Announcement}

def Addressable (t : Target) : Prop := t.validate = .ok ()

instance (t : Target) : Decidable t.Addressable := inferInstanceAs (Decidable (t.validate = .ok ()))

/-- The target is addressable, but for what came with an announcement. -/
structure Within (announced : List Announcement) (t : Target) : Prop where
  host : isAllBlank t.host = true → ∃ a ∈ announced, a.host = t.host
  port : t.port = 0 → ∃ a ∈ announced, a.port = 0

theorem addressable_iff : t.Addressable ↔ ¬ isAllBlank t.host = true ∧ t.port ≠ 0 := by
  unfold Addressable validate
  split
  · next hblank => simp [hblank]
  · next hblank =>
    split
    · next hzero => simp [hzero]
    · next hzero => simp [hblank, hzero]

theorem Addressable.within (h : t.Addressable) : t.Within announced where
  host hblank := absurd hblank (addressable_iff.1 h).1
  port hzero := absurd hzero (addressable_iff.1 h).2

theorem within_of_announced {a : Announcement} (ha : a ∈ announced) : a.target.Within announced where
  host _ := ⟨a, ha, rfl⟩
  port hzero := ⟨a, ha, hzero⟩

theorem Within.addressable (h : t.Within announced)
    (hall : ∀ a ∈ announced, a.target.Addressable) : t.Addressable := by
  refine addressable_iff.2 ⟨fun hblank => ?_, fun hzero => ?_⟩
  · obtain ⟨a, ha, hhost⟩ := h.host hblank
    have hblank' : isAllBlank a.host = true := hhost ▸ hblank
    exact (addressable_iff.1 (hall a ha)).1 hblank'
  · obtain ⟨a, ha, hport⟩ := h.port hzero
    exact (addressable_iff.1 (hall a ha)).2 hport

end Target

/-! ### Data of entries -/

namespace Json

variable {j : Json} {t : Target} {P : Target → Prop}

/-- The host and the port in the data are those of the target. -/
structure LeadsTo (j : Json) (t : Target) : Prop where
  host : j.get? "host" = some (.str t.host)
  port : j.get? "port" = some (.nat t.port.toNat)

/-- The data survive storage and lead to such a target. -/
def Leads (P : Target → Prop) (j : Json) : Prop := ofText j.text = .ok j ∧ ∃ t, j.LeadsTo t ∧ P t

theorem eq_obj_of_get? {key : String} {value : Json} (h : j.get? key = some value) :
    ∃ members, j = .obj members := by
  cases j with
  | obj members => exact ⟨members, rfl⟩
  | _ => cases h

theorem LeadsTo.merge_host (h : j.LeadsTo t) (host : String) :
    (j.merge [("host", .str host)]).LeadsTo { t with host } where
  host := get?_merge_self j "host" (.str host)
  port := by
    obtain ⟨members, hobj⟩ := eq_obj_of_get? h.host
    have hkey : "port" ≠ "host" := by decide
    rw [get?_merge_of_forall hobj (List.forall_mem_singleton.2 hkey), h.port]

theorem LeadsTo.merge_target (h : j.LeadsTo t) (t' : Target) :
    (j.merge [("host", .str t'.host), ("port", .nat t'.port.toNat)]).LeadsTo t' := by
  obtain ⟨members, hobj⟩ := eq_obj_of_get? h.host
  have hmerge : j.merge [("host", .str t'.host), ("port", .nat t'.port.toNat)] =
      (j.merge [("host", .str t'.host)]).merge [("port", .nat t'.port.toNat)] := by
    rw [hobj]
    rfl
  obtain ⟨members', hobj'⟩ := eq_obj_of_get? (h.merge_host t'.host).host
  have hkey : "host" ≠ "port" := by decide
  rw [hmerge]
  refine ⟨?_, get?_merge_self _ "port" _⟩
  rw [get?_merge_of_forall hobj' (List.forall_mem_singleton.2 hkey)]
  exact (h.merge_host t'.host).host

end Json

theorem EntryData.leadsTo_toJson (d : EntryData) : d.toJson.LeadsTo d.target :=
  ⟨d.get?_toJson "host", d.get?_toJson "port"⟩

/-- The data in the row lead to such a target. -/
def Row.Leads (P : Target → Prop) (r : Row) : Prop := ∃ j, Json.ofText r.data = .ok j ∧ j.Leads P

/-- All rows of nodes lead to such targets. -/
def Rows.Lead (P : Target → Prop) (rows : Rows) : Prop :=
  ∀ r ∈ rows, r.domain = nativeApiDomain → r.Leads P

theorem Rows.Lead.mono {P Q : Target → Prop} {rows : Rows} (h : rows.Lead P)
    (hPQ : ∀ t, P t → Q t) : rows.Lead Q := by
  intro r hr hdomain
  obtain ⟨j, hj, hlasts, t, hleads, ht⟩ := h r hr hdomain
  exact ⟨j, hj, hlasts, t, hleads, hPQ t ht⟩

/-! ### Changes of the store -/

theorem Rows.Lead.of_read? {rows : Rows} {r : Row} {e : Entry} {P : Target → Prop}
    (store : rows.Lead P) (hr : r ∈ rows) (hdomain : r.domain = nativeApiDomain)
    (hread : r.read? = some e) : e.data.Leads P := by
  obtain ⟨j, hj, hleads⟩ := store r hr hdomain
  obtain ⟨-, -, hdata, -⟩ := Row.read?_eq_some_iff.1 hread
  cases hj.symm.trans hdata
  exact hleads

/-- The host of an entry of a node is that of such a target. -/
theorem Rows.Lead.exists_host {rows : Rows} {r : Row} {host : String} {P : Target → Prop}
    (store : rows.Lead P) (hr : r ∈ rows) (hdomain : r.domain = nativeApiDomain)
    (hhost : r.host? = some host) : ∃ t, t.host = host ∧ P t := by
  obtain ⟨e, hread, hhost⟩ := Option.bind_eq_some_iff.1 hhost
  obtain ⟨-, t, hleads, ht⟩ := store.of_read? hr hdomain hread
  rw [Entry.host?, hleads.host] at hhost
  exact ⟨t, Option.some.inj hhost, ht⟩

namespace Repository

variable {r : Repository} {e : Entry} {P : Target → Prop}

theorem lead_of_insert {r' : Repository} (store : r.rows.Lead P) (leads : e.data.Leads P)
    (h : r.insert e = .ok r') : r'.rows.Lead P := by
  rw [(Rows.insert?_eq_some.1 (rows_of_insert h)).2]
  intro row hrow hdomain
  rcases List.mem_append.1 hrow with hrow | hrow
  · exact store row hrow hdomain
  · rw [List.mem_singleton.1 hrow]
    exact ⟨e.data, leads.1, leads⟩

/-- Storing data that lead to such a target keeps that all do, also when a rival stores a copy. -/
theorem lead_createEntry (store : r.rows.Lead P) (leads : e.data.Leads P) (supply : Supply) :
    (r.createEntry e supply).2.1.rows.Lead P := by
  have rival {r' : Repository} {supply' : Supply}
      (h : r.afterRival e supply = (.ok r', supply')) : r'.rows.Lead P := by
    unfold afterRival at h
    split at h
    · exact lead_of_insert (e := { e with id := supply.draw.1 }) store leads (congrArg Prod.fst h)
    · cases h; exact store
  simp only [createEntry, create]
  split
  · exact store
  · split
    · exact store
    · next hrival =>
      split
      · exact rival hrival
      · split
        · exact rival hrival
        · next hinsert => exact lead_of_insert (rival hrival) leads hinsert

theorem lead_updateEntry (store : r.rows.Lead P) (leads : e.data.Leads P) :
    (r.updateEntry e).2.rows.Lead P := by
  simp only [updateEntry, update]
  split
  · exact store
  · split
    · exact store
    · split
      · exact store
      · exact store
      · next hup =>
        rw [Rows.eq_map_of_update? hup]
        intro row hrow hdomain
        obtain ⟨old, hold, rfl⟩ := List.mem_map.1 hrow
        by_cases hid : (old.id == (Row.ofEntry e).id) = true
        · rw [if_pos hid]
          exact ⟨e.data, leads.1, leads⟩
        · rw [if_neg hid] at hdomain ⊢
          exact store old hold hdomain

end Repository

/-! ### Flows -/

namespace Flow

variable {announced : List Announcement} {f : Flow}

/-- The flow has a target that is addressable but for an announcement, or it has no host yet and
waits on no confirmation. -/
def Within (announced : List Announcement) (f : Flow) : Prop :=
  f.describeTarget.Within announced ∨ f.host = none ∧ f.step ≠ .discoveryConfirm

theorem Within.showUser (h : f.Within announced) (error : Option FormError) :
    (f.showUser error).1.Within announced :=
  h.imp id fun h => ⟨h.1, nofun⟩

theorem Within.showAuthenticate (h : f.Within announced) (error : Option FormError) :
    (f.showAuthenticate error).1.Within announced :=
  h.imp id fun h => ⟨h.1, nofun⟩

/-- A flow that makes an entry has a target. -/
theorem Within.newEntry {n : NewEntry} (h : f.Within announced) (hn : f.newEntry = .ok n) :
    n.data.target.Within announced := by
  simp only [Flow.newEntry, Flow.target, bind, Except.bind, pure, Except.pure] at hn
  split at hn
  · cases hn
  · cases hhost : f.host with
    | none => rw [hhost] at hn; cases hn
    | some host =>
      rw [hhost] at hn
      cases hn
      rcases h with h | ⟨hnone, -⟩
      · have hdescribe : f.describeTarget = ⟨host, f.portOrDefault, ""⟩ := by
          rw [describeTarget, hhost]
          rfl
        rw [hdescribe] at h
        exact ⟨h.host, h.port⟩
      · cases hhost.symm.trans hnone

/-- Data are brought up to date with an announced host, or with where the flow leads. -/
def Ground.Within (announced : List Announcement) (f : Flow) : Ground → Prop
  | .announced a => a ∈ announced
  | .described _ => f.describeTarget.Within announced

theorem leads_of_updates {g : Ground} {j : Json} (hj : j.Leads (Target.Within announced))
    (hg : g.Within announced f) : (j.merge (g.updates f)).Leads (Target.Within announced) := by
  obtain ⟨hlasts, t, hleads, ht⟩ := hj
  refine ⟨Json.ofText_merge hlasts (g.ascending_updates f) fun u hu => (Ground.mem_updates hu).1, ?_⟩
  cases g with
  | announced a =>
    exact ⟨_, hleads.merge_host a.host, fun _ => ⟨a, hg, rfl⟩, ht.port⟩
  | described info => exact ⟨_, hleads.merge_target f.describeTarget, hg⟩

namespace Phase

/-- Whatever the phase is about to show or to store leads to such a target. -/
def Within (announced : List Announcement) : Phase → Prop
  | .describe f | .described f _ => f.describeTarget.Within announced
  | .findMatch f g => g.Within announced f
  | .listKnown _ a => a ∈ announced
  | .login f _ | .loggedIn f _ | .done f (.ok (.form _)) => f.Within announced
  | .update _ e => e.data.Leads (Target.Within announced)
  | .done _ (.ok (.createEntry n)) => n.data.target.Within announced
  | .done _ _ => True

theorem within_create (h : f.Within announced) : (create f).Within announced := by
  unfold create
  split
  · next hn => exact h.newEntry hn
  · trivial

theorem within_proceed {g : Ground} (hg : g.Within announced f) :
    (proceed f g).Within announced := by
  cases g with
  | announced a => exact hg
  | described info =>
    simp only [proceed]
    split
    · exact Flow.Within.showAuthenticate (.inl hg) none
    · exact within_create (.inl hg)

theorem within_startUser (input : UserInput) : (startUser f (some input)).Within announced := by
  simp only [startUser]
  split
  · trivial
  · next hvalid =>
    have haddressable : Target.Addressable ⟨input.host, input.port, ""⟩ := hvalid
    exact haddressable.within

theorem within_submit (h : f.Within announced) (input : Json) :
    (f.submit input).Within announced := by
  unfold submit
  split
  · split
    · exact within_startUser _
    · trivial
  · next hstep => exact h.resolve_right fun hnone => hnone.2 hstep
  · split
    · simp only [startAuthenticate]
      split
      · trivial
      · exact h
    · trivial

theorem within_step {p : Phase} {h : Hub}
    (store : h.repository.rows.Lead (Target.Within announced)) (hp : p.Within announced) :
    (p.step h).1.Within announced := by
  cases p with
  | describe f => exact hp
  | described f reply =>
    cases reply with
    | error err => exact Flow.Within.showUser (.inl hp) _
    | ok info => exact hp
  | login f t => exact hp
  | loggedIn f reply =>
    cases reply with
    | error err => exact Flow.Within.showAuthenticate hp _
    | ok u => exact within_create hp
  | findMatch f g =>
    simp only [step]
    split
    · trivial
    · next found hfound =>
      cases found with
      | none => exact within_proceed hp
      | some e =>
        obtain ⟨-, row, hrow, hdomain, hread⟩ := Repository.exists_row_of_found hfound
        simp only [afterMatch]
        split
        · trivial
        · exact leads_of_updates (store.of_read? hrow hdomain hread) hp
  | update f e =>
    simp only [step]
    split <;> trivial
  | listKnown f a =>
    simp only [step]
    split
    · trivial
    · next es hlist =>
      cases hfind : es.find? (isAbout h.loaded a) with
      | none => exact .inl (Target.within_of_announced hp)
      | some e =>
        obtain ⟨row, hrow, hdomain, hread⟩ :=
          (Repository.read?_of_ofDomain hlist).2 e (List.mem_of_find?_eq_some hfind)
        have leads := leads_of_updates (f := f) (g := .announced a)
          (store.of_read? hrow hdomain hread) hp
        simp only [afterKnown]
        split
        · trivial
        · exact leads
  | done f r => exact hp

theorem lead_step {p : Phase} {h : Hub}
    (store : h.repository.rows.Lead (Target.Within announced)) (hp : p.Within announced) :
    (p.step h).2.repository.rows.Lead (Target.Within announced) := by
  cases p with
  | update f e =>
    rw [hub_step_update]
    exact Repository.lead_updateEntry store hp
  | findMatch f g => simp only [step]; split <;> exact store
  | listKnown f a => simp only [step]; split <;> exact store
  | _ => exact store

end Phase

end Flow

/-! ### Calls -/

section Calls

variable {announced : List Announcement} {j : Job} {h : Hub}

/-- Whatever the call is about to show or to store leads to such a target. -/
def Stage.Within (announced : List Announcement) : Stage → Prop
  | .claim a => a ∈ announced
  | .run p => p.Within announced
  | .register f _ => f.Within announced
  | .check n => n.data.target.Within announced
  | .store _ e => e.data.Leads (Target.Within announced)
  | _ => True

/-- All entries of nodes and all registered flows lead to such targets. -/
structure Hub.Within (announced : List Announcement) (h : Hub) : Prop where
  rows : h.repository.rows.Lead (Target.Within announced)
  flows : ∀ id p, h.flows.flows.get? id = some p → p.flow.Within announced

namespace Job

theorem within_close (r : Except HubError FlowResponse) : (j.close r).stage.Within announced := by
  unfold close
  split <;> trivial

theorem within_advance {p : Flow.Phase} (hp : p.Within announced) :
    (j.advance p).stage.Within announced := by
  unfold advance
  split
  · unfold settle
    split
    · exact hp
    · exact hp
    · trivial
    · split
      · exact within_close _
      · trivial
  · exact hp

theorem within_step (hub : h.Within announced) (hj : j.stage.Within announced) :
    (j.step h).1.stage.Within announced := by
  obtain ⟨id, claimed, stage⟩ := j
  cases stage with
  | claim a =>
    simp only [step]
    split
    · trivial
    · exact within_advance hj
  | begin input =>
    simp only [step]
    split
    · trivial
    · next p hp =>
      split
      · trivial
      · exact within_advance (Flow.Phase.within_submit (hub.flows id p hp) input)
  | run p => exact within_advance (Flow.Phase.within_step hub.rows hj)
  | register f form => exact within_close _
  | check n =>
    simp only [step]
    split
    · trivial
    · trivial
    · split
      · trivial
      · next hbuild =>
        have hdata := (Flow.NewEntry.builds_of_build hbuild).1.data
        have leads : n.data.toJson.Leads (Target.Within announced) :=
          ⟨n.data.ofText_toJson, n.data.target, n.data.leadsTo_toJson, hj⟩
        show Json.Leads _ (Entry.data _)
        rw [hdata]
        exact leads
  | store n e => simp only [step]; split <;> trivial
  | recheck n err => simp only [step]; split <;> trivial
  | announce n e => trivial
  | finish result entry => exact within_close _
  | release err => exact within_close _
  | unclaim r => trivial
  | done r => trivial

theorem lead_step (hub : h.Within announced) (hj : j.stage.Within announced) :
    (j.step h).2.repository.rows.Lead (Target.Within announced) := by
  obtain ⟨id, claimed, stage⟩ := j
  cases stage with
  | claim a => simp only [step]; split <;> exact hub.rows
  | begin input =>
    simp only [step]
    split
    · exact hub.rows
    · split <;> exact hub.rows
  | run p => exact Flow.Phase.lead_step hub.rows hj
  | check n =>
    simp only [step]
    split
    · exact hub.rows
    · exact hub.rows
    · split <;> exact hub.rows
  | store n e =>
    rw [hub_step_store]
    exact Repository.lead_createEntry hub.rows hj h.supply
  | recheck n err => simp only [step]; split <;> exact hub.rows
  | _ => exact hub.rows

/-- A step registers its flow, or leaves flows as they are but for their marks. -/
theorem hub_within_step (hub : h.Within announced) (hj : j.stage.Within announced) :
    (j.step h).2.Within announced := by
  refine ⟨lead_step hub hj, fun f p hp => ?_⟩
  rw [j.get?_step h f] at hp
  split at hp
  · by_cases hst : ∃ g form, j.stage = .register g form
    · obtain ⟨g, form, hst⟩ := hst
      rw [hst] at hp hj
      cases hp
      exact hj
    · obtain ⟨q, hq, hflow⟩ := j.stage.flow_of_onTable (fun g form h => hst ⟨g, form, h⟩) hp
      exact hflow ▸ hub.flows f q hq
  · exact hub.flows f p hp

end Job

end Calls

/-! ### Sessions -/

namespace Action

/-- The node that a flow is started for, if it was announced. -/
def announced? : Action → Option Announcement
  | .init .zeroconf announcement => announcement
  | _ => none

/-- Whoever else works on the hub stores for nodes only data that are addressable, or that are
stored for a node already. -/
def Careful : Action → Prop
  | .elsewhere change => ∀ h : Hub, ∀ r ∈ (change h).repository.rows, r.domain = nativeApiDomain →
      r.Leads Target.Addressable ∨
        ∃ s ∈ h.repository.rows, s.domain = nativeApiDomain ∧ s.data = r.data
  | _ => True

end Action

namespace Session

variable {announced : List Announcement} {s : Session}

/-- The announcements that flows were started for. -/
def announcements (as : List Action) : List Announcement := as.filterMap Action.announced?

structure Within (announced : List Announcement) (s : Session) : Prop where
  hub : s.hub.Within announced
  jobs : ∀ j ∈ s.jobs, j.stage.Within announced

theorem Within.join {t : Session} {j : Job} (hs : s.Within announced)
    (hub : t.hub.Within announced) (hj : j.stage.Within announced) (hjobs : t.jobs = s.jobs ++ [j]) :
    t.Within announced := by
  refine ⟨hub, fun j' hj' => ?_⟩
  rw [hjobs] at hj'
  rcases List.mem_append.1 hj' with hj' | hj'
  · exact hs.jobs j' hj'
  · exact List.mem_singleton.1 hj' ▸ hj

theorem within_aside {h : Hub} (hub : h.Within announced) {change : Hub → Hub}
    (careful : (Action.elsewhere change).Careful) : (h.aside change).Within announced := by
  refine ⟨fun r hr hdomain => ?_, hub.flows⟩
  rcases careful h r hr hdomain with ⟨j, hj, hlasts, t, hleads, ht⟩ | ⟨s, hs, hdomain', hdata⟩
  · exact ⟨j, hj, hlasts, t, hleads, ht.within⟩
  · obtain ⟨j, hj, hleads⟩ := hub.rows s hs hdomain'
    exact ⟨j, hdata ▸ hj, hleads⟩

theorem Within.step (hs : s.Within announced) {act : Action}
    (heard : ∀ a, act.announced? = some a → a ∈ announced) (careful : act.Careful) :
    (s.step act).Within announced := by
  cases act with
  | init source announcement =>
    have hub : (s.hub.initJob source announcement).2.Within announced := by
      cases source <;> cases announcement <;> exact ⟨hs.hub.rows, hs.hub.flows⟩
    refine hs.join hub ?_ rfl
    cases source with
    | user => exact .inr ⟨rfl, nofun⟩
    | zeroconf =>
      cases announcement with
      | some a => exact heard a rfl
      | none => trivial
  | configure f input => exact hs.join (j := Hub.configureJob f input) hs.hub trivial rfl
  | get f => exact ⟨hs.hub, hs.jobs⟩
  | list => exact ⟨hs.hub, hs.jobs⟩
  | abort f =>
    refine ⟨?_, hs.jobs⟩
    simp only [Session.step, hubAfter, Hub.abortFlow]
    split
    · refine ⟨hs.hub.rows, fun id p hp => ?_⟩
      rw [FlowTable.get?_remove] at hp
      split at hp
      · cases hp
      · exact hs.hub.flows id p hp
    · exact hs.hub
  | advance i =>
    cases hj : s.jobs[i]? with
    | none => rw [step_advance_none hj]; exact hs
    | some j =>
      have hstage := hs.jobs j (List.mem_of_getElem? hj)
      rw [step_advance hj]
      refine ⟨Job.hub_within_step hs.hub hstage, fun j' hj' => ?_⟩
      rcases List.mem_or_eq_of_mem_set hj' with hj' | rfl
      · exact hs.jobs j' hj'
      · exact Job.within_step hs.hub hstage
  | nodes network => exact ⟨⟨hs.hub.rows, hs.hub.flows⟩, hs.jobs⟩
  | elsewhere change => exact ⟨within_aside hs.hub careful, hs.jobs⟩

theorem Within.run (hs : s.Within announced) (as : List Action)
    (heard : ∀ a ∈ announcements as, a ∈ announced) (careful : ∀ act ∈ as, act.Careful) :
    (s.run as).Within announced := by
  induction as generalizing s with
  | nil => exact hs
  | cons act as ih =>
    rw [run_cons]
    refine ih (hs.step (fun a ha => heard a ?_) (careful act List.mem_cons_self)) (fun a ha => heard a ?_)
      fun act' hact' => careful act' (List.mem_cons_of_mem act hact')
    · exact List.mem_filterMap.2 ⟨act, List.mem_cons_self, ha⟩
    · obtain ⟨act', hact', ha⟩ := List.mem_filterMap.1 ha
      exact List.mem_filterMap.2 ⟨act', List.mem_cons_of_mem act hact', ha⟩

theorem within_start {h : Hub} (store : h.repository.rows.Lead Target.Addressable) :
    (start h).Within announced where
  hub := ⟨store.mono fun _ ht => ht.within, fun _ _ hp => by cases hp⟩
  jobs _ hj := by cases hj

/-- If all entries of nodes are addressable when a session begins, the host of each is not blank or
came with an announcement, and so for its port. All are addressable still if all announced nodes
were. -/
theorem unaddressable_only_as_announced (h : Hub) (as : List Action)
    (store : h.repository.rows.Lead Target.Addressable) (careful : ∀ act ∈ as, act.Careful) :
    let after := ((start h).run as).hub.repository.rows
    after.Lead (Target.Within (announcements as)) ∧
      ((∀ a ∈ announcements as, a.target.Addressable) → after.Lead Target.Addressable) := by
  have within : ((start h).run as).Within (announcements as) :=
    (within_start store).run as (fun a ha => ha) careful
  exact ⟨within.hub.rows, fun hall => within.hub.rows.mono fun t ht => ht.addressable hall⟩

/-- A hub with an entry of a lamp. -/
def namedLamp : Hub := { (default : Hub) with repository := Register.repository [Register.lamp] }

theorem lead_namedLamp : namedLamp.repository.rows.Lead Target.Addressable := by
  intro r hr _
  rw [List.mem_singleton.1 hr]
  have hlasts := Register.storable_lamp.data
  exact ⟨Register.lamp.data, hlasts, hlasts, _, EntryData.leadsTo_toJson _, by decide +kernel⟩

/-- A flow for an announcement, and its call until the answer. -/
def found (a : Announcement) : List Action :=
  .init .zeroconf (some a) :: List.replicate 6 (.advance 0)

/-- The lamp is announced at another address, and its entry follows. -/
theorem addressable_lamp :
    let after := ((start namedLamp).run (found Flow.lampFound)).hub.repository.rows
    after.Lead Target.Addressable ∧ after.map Row.host? = [some "10.0.0.8"] := by
  refine ⟨(unaddressable_only_as_announced namedLamp (found Flow.lampFound) lead_namedLamp ?_).2 ?_,
    by decide +kernel⟩
  · intro act hact
    rcases List.mem_cons.1 hact with rfl | hact
    · trivial
    · rw [List.eq_of_mem_replicate hact]
      trivial
  · intro a ha
    obtain rfl : a = Flow.lampFound := by simpa [announcements, found, Action.announced?] using ha
    decide +kernel

/-- The lamp, announced without an address. -/
def lampLost : Announcement := ⟨"", 6053, "lamp.local.", .empty⟩

/-- A blank host is stored as it was announced. -/
theorem not_always_addressable :
    namedLamp.repository.rows.Lead Target.Addressable ∧
      ¬ ((start namedLamp).run (found lampLost)).hub.repository.rows.Lead Target.Addressable := by
  refine ⟨lead_namedLamp, fun store => ?_⟩
  have hblank : ∃ r ∈ ((start namedLamp).run (found lampLost)).hub.repository.rows,
      r.domain = nativeApiDomain ∧ r.host? = some "" := by decide +kernel
  obtain ⟨r, hr, hdomain, hhost⟩ := hblank
  obtain ⟨t, hthost, ht⟩ := store.exists_host hr hdomain hhost
  refine (Target.addressable_iff.1 ht).1 ?_
  rw [hthost]
  decide

end Session

end HomeHub
