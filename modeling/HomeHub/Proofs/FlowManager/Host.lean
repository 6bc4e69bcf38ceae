import HomeHub.Proofs.Entry.Rows
import HomeHub.Proofs.FlowManager.Created

/-!
# Hosts that are configured already

The first step for an announced node looks through the hosts of all entries. Any later step, and
every step of a flow that a user started, looks only for the unique id. So a host may be configured a
second time: by a user, or for an announced node whose host was configured in the meantime.
`Session.host_configured_unnoticed` says how each look missed the entries of the host.
-/

namespace HomeHub

/-- The host of the entry in a row. -/
def Row.host? (r : Row) : Option String := r.read?.bind Entry.host?

/-- The rows with an entry of a node of this host. -/
def Rows.ofHost (rows : Rows) (host : String) : Rows :=
  rows.filter fun r => r.domain = nativeApiDomain ∧ r.host? = some host

theorem Rows.mem_ofHost {rows : Rows} {host : String} {r : Row} :
    r ∈ rows.ofHost host ↔ r ∈ rows ∧ r.domain = nativeApiDomain ∧ r.host? = some host := by
  simp [ofHost]

theorem Flow.NewEntry.Builds.host? {n : Flow.NewEntry} {e : Entry} (h : n.Builds e) :
    e.host? = some n.data.host := by
  rw [Entry.host?, h.get?_data]
  rfl

namespace Flow.Phase

/-- The phase comes after the look through all entries, or leads past it. -/
def isPast : Phase → Bool
  | .findMatch _ (.announced _) | .update _ _ | .listKnown _ _ => false
  | .done _ (.ok (.abort _)) | .done _ (.error _) => false
  | _ => true

/-- No entry that can be queried is about the announced node. -/
def Unknown (h : Hub) (a : Announcement) : Prop :=
  ∃ es, h.repository.ofDomain nativeApiDomain = .ok es ∧ es.find? (isAbout h.loaded a) = none

theorem past_step {p : Phase} {h : Hub} (hp : (p.step h).1.isPast = true) :
    p.isPast = true ∨ ∃ f a, p = .listKnown f a ∧ Unknown h a := by
  cases p with
  | findMatch f g =>
    cases g with
    | described info => exact .inl rfl
    | announced a =>
      simp only [step] at hp
      split at hp
      · cases hp
      · next e _ =>
        cases e with
        | none => cases hp
        | some e =>
          simp only [afterMatch] at hp
          split at hp <;> cases hp
  | update f e =>
    simp only [step] at hp
    split at hp <;> cases hp
  | listKnown f a =>
    simp only [step] at hp
    split at hp
    · cases hp
    · next es hes =>
      cases hfind : es.find? (isAbout h.loaded a) with
      | none => exact .inr ⟨f, a, rfl, es, hes, hfind⟩
      | some e =>
        simp only [hfind, afterKnown] at hp
        split at hp <;> cases hp
  | done f r => exact .inl hp
  | _ => exact .inl rfl

end Flow.Phase

/-- The call is past the look through all entries, if its flow is about an announced node. -/
def Stage.isPast : Stage → Bool
  | .run p => p.isPast
  | .register _ _ | .check _ | .store _ _ | .recheck _ _ | .announce _ _ => true
  | _ => false

theorem Stage.isWorking_of_isPast {s : Stage} (h : s.isPast = true) : s.isWorking = true := by
  cases s with
  | begin input => cases h
  | unclaim r => cases h
  | done r => cases h
  | _ => rfl

namespace Job

variable {j : Job} {h : Hub}

theorem not_past_close (r : Except HubError FlowResponse) : (j.close r).stage.isPast = false := by
  unfold close
  split <;> rfl

theorem past_of_advance {p : Flow.Phase} (hp : (j.advance p).stage.isPast = true) :
    p.isPast = true := by
  unfold advance at hp
  split at hp
  · unfold settle at hp
    split at hp
    · rfl
    · rfl
    · cases hp
    · split at hp
      · rw [not_past_close] at hp; cases hp
      · cases hp
  · exact hp

/-- A call gets past the look through all entries by doing it, or because its flow is registered. -/
theorem past_step (hp : (j.step h).1.stage.isPast = true) :
    j.stage.isPast = true ∨ (h.flows.flows.get? j.flowId).isSome = true ∨
      ∃ f a, j.stage = .run (.listKnown f a) ∧ Flow.Phase.Unknown h a := by
  obtain ⟨id, claimed, stage⟩ := j
  cases stage with
  | claim a =>
    simp only [step] at hp
    split at hp
    · cases hp
    · have := past_of_advance hp
      cases this
  | begin input =>
    simp only [step] at hp
    split at hp
    · cases hp
    · next p hget => exact .inr (.inl (by rw [hget]; rfl))
  | run p =>
    rcases Flow.Phase.past_step (past_of_advance hp) with h | ⟨f, a, rfl, unknown⟩
    · exact .inl h
    · exact .inr (.inr ⟨f, a, rfl, unknown⟩)
  | finish result entry => rw [step, not_past_close] at hp; cases hp
  | release err => rw [step, not_past_close] at hp; cases hp
  | unclaim r => cases hp
  | done r => cases hp
  | _ => exact .inl rfl

/-- What a call stores is the entry that it has built. -/
theorem stage_of_stored {e : Entry} (hd : .stored e ∈ j.deeds h) :
    ∃ n, j.stage = .store n e ∧ (h.createEntry e).1 = .ok e := by
  rcases List.mem_append.1 hd with hd | hd
  · have hact : j.act? h = some (.stored e) := by simpa using hd
    unfold act? at hact
    split at hact
    · cases hact
    · cases hact
    · cases hact
    · next n e' hst =>
      obtain ⟨e'', he, heq⟩ := Option.map_eq_some_iff.1 hact
      cases heq
      have hok : (h.createEntry e').1 = .ok e := by
        cases hr : (h.createEntry e').1 with
        | error err => rw [hr] at he; cases he
        | ok e'' => rw [hr] at he; cases he; rfl
      cases Hub.createEntry_eq_of_ok hok
      exact ⟨n, hst, hok⟩
    · obtain ⟨e', -, heq⟩ := Option.map_eq_some_iff.1 hact
      cases heq
    · cases hact
  · have hreply : j.reply? h = some (.stored e) := by simpa using hd
    unfold reply? at hreply
    split at hreply
    · cases hreply
    · obtain ⟨r, -, heq⟩ := Option.map_eq_some_iff.1 hreply
      cases heq

end Job

/-- If no entry is about the announced node, none has its host or its address. -/
theorem Flow.Phase.Unknown.ofHost {h : Hub} {a : Announcement} (unknown : Unknown h a) :
    h.repository.rows.ofHost a.host = [] ∧ h.repository.rows.ofHost a.address = [] := by
  obtain ⟨es, hes, hfind⟩ := unknown
  have other {row : Row} (hrow : row ∈ h.repository.rows) (hdomain : row.domain = nativeApiDomain)
      {host : String} (hhost : row.host? = some host) : host ≠ a.host ∧ host ≠ a.address := by
    obtain ⟨e, he, hread⟩ := (Repository.read?_of_ofDomain hes).1 row hrow hdomain
    have hehost : e.host? = some host := by
      rw [Row.host?, hread] at hhost
      exact hhost
    have hnot := List.find?_eq_none.1 hfind e he
    simp only [isAbout, hehost, Bool.or_eq_true, beq_iff_eq, not_or] at hnot
    exact ⟨hnot.1.2, hnot.1.1⟩
  constructor
  · refine List.eq_nil_iff_forall_not_mem.2 fun row hmem => ?_
    obtain ⟨hrow, hdomain, hhost⟩ := Rows.mem_ofHost.1 hmem
    exact (other hrow hdomain hhost).1 rfl
  · refine List.eq_nil_iff_forall_not_mem.2 fun row hmem => ?_
    obtain ⟨hrow, hdomain, hhost⟩ := Rows.mem_ofHost.1 hmem
    exact (other hrow hdomain hhost).2 rfl

namespace Session

variable {h : Hub} {as bs : List Action} {act : Action} {f : Uuid} {a : Announcement}

/-- At some moment since the announcement no entry had its host or its address. -/
def Cleared (h : Hub) (as : List Action) (f : Uuid) (a : Announcement) : Prop :=
  ∃ bs, bs <+: as ∧ (trail (((start h).run bs).deeds f)).announced = some a ∧
    ((start h).run bs).hub.repository.rows.ofHost a.host = [] ∧
    ((start h).run bs).hub.repository.rows.ofHost a.address = []

theorem Cleared.concat (hc : Cleared h as f a) (act : Action) : Cleared h (as ++ [act]) f a := by
  obtain ⟨bs, hbs, hrest⟩ := hc
  exact ⟨bs, hbs.trans (List.prefix_append _ _), hrest⟩

/-- A flow for an announced node is registered, and a call of it is past the look through all
entries, only if no entry had the host when it was looked for. -/
structure Looked (h : Hub) (as : List Action) (f : Uuid) : Prop where
  flow : ∀ a p, (trail (((start h).run as).deeds f)).announced = some a →
    ((start h).run as).registered f = some p → Cleared h as f a
  call : ∀ a (i : Nat) (j : Job), (trail (((start h).run as).deeds f)).announced = some a →
    ((start h).run as).jobs[i]? = some j → j.flowId = f → j.stage.isPast = true → Cleared h as f a

/-- Only the start of a flow announces a node. -/
theorem announced_along (k : Trail) (j : Job) (hub : Hub) :
    (k.along j hub).announced = k.announced := by
  unfold Trail.along Job.act?
  split
  · rfl
  · rfl
  · rfl
  · cases (hub.createEntry _).1 <;> rfl
  · cases (hub.publish _ _ _).1 <;> rfl
  · rfl

theorem announced_advance {s : Session} {i : Nat} {j : Job} (hj : s.jobs[i]? = some j) (f : Uuid) :
    (trail ((s.step (.advance i)).deeds f)).announced = (trail (s.deeds f)).announced := by
  rw [deeds_advance hj]
  split
  · rw [j.trail_deeds, announced_along]
  · rfl

/-- An action that announces nothing, registers no flow and lets no call get on. -/
theorem Looked.congr (hl : Looked h as f)
    (hd : ((start h).run (as ++ [act])).deeds f = ((start h).run as).deeds f)
    (hr : ∀ p, ((start h).run (as ++ [act])).registered f = some p →
      ((start h).run as).registered f = some p)
    (hj : ∀ (i : Nat) (j : Job), ((start h).run (as ++ [act])).jobs[i]? = some j → j.flowId = f →
      j.stage.isPast = true → ((start h).run as).jobs[i]? = some j) : Looked h (as ++ [act]) f where
  flow a p ha hp := (hl.flow a p (hd ▸ ha) (hr p hp)).concat act
  call a i j ha hi hf hpast := (hl.call a i j (hd ▸ ha) (hj i j hi hf hpast) hf hpast).concat act

theorem Looked.init (hl : Looked h as f) (source : Source) (announcement : Option Announcement)
    (lasts : ((start h).run (as ++ [.init source announcement])).hub.supply.Lasts) :
    Looked h (as ++ [.init source announcement]) f := by
  have sound := sound_run h _ lasts f
  rw [run_concat] at lasts
  have hs := orderly_run h as (lasts.mono (drawn_le_step _ _))
  by_cases hf : f = .generated ((start h).run as).hub.supply.drawn
  · -- nothing is known of the flow yet but the call that starts it
    have fresh : ¬ ((start h).run as).Knows f := hf ▸ hs.not_knows lasts
    constructor
    · intro a p _ hp
      rw [run_concat, registered_init] at hp
      exact absurd (.inl (by rw [hp]; rfl)) fresh
    · intro a i j ha hi hflow hpast
      have hw := Stage.isWorking_of_isPast hpast
      have calls := sound.call i j hi ⟨hflow, hw⟩
      rw [run_concat] at hi
      rcases getElem?_concat_cases hi with hi | ⟨-, rfl⟩
      · exact absurd (.inr (.inl ⟨i, j, hi, hflow, hw⟩)) fresh
      · cases source with
        | user =>
          have early : (trail (((start h).run (as ++ [.init .user announcement])).deeds f)).Waits
              (Flow.showUser { source := .user } none).1 := by
            cases announcement <;> exact calls.1
          have := early.1.uniqueId
          rw [ha] at this
          cases this
        | zeroconf => cases announcement <;> cases hpast
  · refine hl.congr ?_ ?_ ?_
    · rw [run_concat, deeds_init, if_neg hf]
    · intro p hp
      rwa [run_concat, registered_init] at hp
    · intro i j hi hflow _
      rw [run_concat] at hi
      rcases getElem?_concat_cases hi with hi | ⟨-, rfl⟩
      · exact hi
      · exact absurd (hflow.symm.trans (flowId_initJob _ source announcement)) hf

theorem Looked.advance (hl : Looked h as f) (lasts : ((start h).run as).hub.supply.Lasts)
    (i : Nat) : Looked h (as ++ [.advance i]) f := by
  cases hj : ((start h).run as).jobs[i]? with
  | none =>
    have same : (start h).run (as ++ [.advance i]) = (start h).run as := by
      rw [run_concat, step_advance_none hj]
    exact hl.congr (by rw [same]) (fun p hp => by rwa [same] at hp)
      fun k j hk _ _ => by rwa [same] at hk
  | some j =>
  have sound := sound_run h as lasts f
  have announced {a : Announcement}
      (ha : (trail (((start h).run (as ++ [.advance i])).deeds f)).announced = some a) :
      (trail (((start h).run as).deeds f)).announced = some a := by
    rwa [run_concat, announced_advance hj] at ha
  constructor
  · intro a p ha hp
    rw [run_concat] at hp
    rcases registered_before hj hp with ⟨q, hq, -⟩ | ⟨hf, form, hst⟩
    · exact (hl.flow a q (announced ha) hq).concat _
    · exact (hl.call a i j (announced ha) hj hf.symm (by rw [hst]; rfl)).concat _
  · intro a k j' ha hk hflow hpast
    rw [run_concat, getElem?_jobs_advance hj] at hk
    split at hk
    · cases hk
      have hf : j.flowId = f := (j.flowId_step _).symm.trans hflow
      rcases Job.past_step hpast with hp | hreg | ⟨g, a', hst, unknown⟩
      · exact (hl.call a i j (announced ha) hj hf hp).concat _
      · obtain ⟨p, hp⟩ := Option.isSome_iff_exists.1 hreg
        exact (hl.flow a p (announced ha) (hf ▸ hp)).concat _
      · -- the look through all entries was made for the announcement of the flow
        have calls := sound.call i j hj ⟨hf, by rw [hst]; rfl⟩
        rw [hst] at calls
        cases (announced ha).symm.trans calls.2
        exact ⟨as, List.prefix_append _ _, announced ha, unknown.ofHost⟩
    · exact (hl.call a k j' (announced ha) hk hflow hpast).concat _

theorem looked_start (h : Hub) (f : Uuid) : Looked h [] f where
  flow _ _ _ hp := by cases hp
  call _ _ _ _ hi := by cases hi

theorem looked_run (h : Hub) (as : List Action) (lasts : ((start h).run as).hub.supply.Lasts)
    (f : Uuid) : Looked h as f := by
  refine prefix_induction (P := fun as => Looked h as f) (looked_start h f) ?_ as lasts
  intro as act hl lasts
  cases act with
  | init source announcement => exact hl.init source announcement lasts
  | advance i =>
    rw [run_concat] at lasts
    exact hl.advance (lasts.mono (drawn_le_step _ _)) i
  | configure g input =>
    refine hl.congr ?_ (fun p hp => ?_) fun i j hi _ hpast => ?_
    · rw [run_concat]
      exact deeds_of_notes_nil rfl f
    · rw [run_concat] at hp
      exact hp
    · rw [run_concat] at hi
      rcases getElem?_concat_cases hi with hi | ⟨-, rfl⟩
      · exact hi
      · cases hpast
  | abort g =>
    refine hl.congr ?_ (fun p hp => ?_) fun i j hi _ _ => ?_
    · rw [run_concat]
      exact deeds_of_notes_nil rfl f
    · rw [run_concat, registered_abort] at hp
      split at hp
      · cases hp
      · exact hp
    · rwa [run_concat] at hi
  | _ =>
    refine hl.congr ?_ (fun p hp => ?_) fun i j hi _ _ => ?_
    · rw [run_concat]
      exact deeds_of_notes_nil rfl f
    · rwa [run_concat] at hp
    · rwa [run_concat] at hi

theorem stage_of_noted_store {s : Session} {n : Note} {e : Entry} (noted : n ∈ s.notes act)
    (stores : n.deed = .stored e) : ∃ (i : Nat) (j : Job) (new : Flow.NewEntry),
      s.jobs[i]? = some j ∧ j.stage = .store new e ∧ j.flowId = n.flow ∧
        (s.hub.createEntry e).1 = .ok e := by
  cases act with
  | init source announcement =>
    rw [List.mem_singleton.1 noted] at stores
    cases stores
  | advance i =>
    cases hj : s.jobs[i]? with
    | none => simp [notes, hj] at noted
    | some j =>
      simp only [notes, hj] at noted
      obtain ⟨d, hd, rfl⟩ := List.mem_map.1 noted
      have stores : d = .stored e := stores
      obtain ⟨new, hst, hok⟩ := Job.stage_of_stored (stores ▸ hd)
      exact ⟨i, j, new, hj, hst, rfl, hok⟩
  | _ => cases noted

/-- An entry is stored for a host, and each look missed the entries that the host has. They have another
unique id than the new one, or none, and later looks are for the unique id only. For an announced node
the host is the announced one unless a request for a description failed. If it is, the look through all
entries came before them: at some moment after the announcement no entry had that host or the node's
address. -/
theorem host_configured_unnoticed (h : Hub) (as : List Action) {act : Action} {n : Note} {e : Entry}
    (lasts : ((start h).run as).hub.supply.Lasts)
    (noted : n ∈ ((start h).run as).notes act) (stores : n.deed = .stored e) :
    let s := (start h).run as
    let before := trail (s.deeds n.flow)
    let known := s.hub.repository.rows.ofHost
    ∃ host, e.host? = some host ∧
      (∀ row ∈ known host, row.uniqueId ≠ e.uniqueId) ∧
      ∀ a, before.announced = some a → (before.failed = false → host = a.host) ∧
        (host = a.host → ∃ bs, bs <+: as ∧
          (trail (((start h).run bs).deeds n.flow)).announced = some a ∧
          ((start h).run bs).hub.repository.rows.ofHost host = [] ∧
          ((start h).run bs).hub.repository.rows.ofHost a.address = []) := by
  intro s before known
  obtain ⟨i, j, new, hj, hst, hflow, hok⟩ := stage_of_noted_store noted stores
  have calls := (sound_run h as lasts n.flow).call i j hj ⟨hflow, by rw [hst]; rfl⟩
  rw [hst] at calls
  obtain ⟨⟨info, backs⟩, builds⟩ := calls
  refine ⟨new.data.host, builds.host?, fun row hmem same => ?_, fun a ha => ⟨?_, ?_⟩⟩
  · -- a row with the unique id would have kept the entry out
    obtain ⟨hrow, hdomain, -⟩ := Rows.mem_ofHost.1 hmem
    refine Repository.not_clashes_of_createEntry hok hrow (Row.clashes_iff.2 ⟨?_, ?_, same⟩)
    · exact hdomain.trans builds.domain.symm
    · rw [same, builds.uniqueId, backs.uniqueId]
      rfl
  · intro reached
    rcases backs.host a ha with hhost | hfailed
    · exact Option.some.inj hhost
    · cases reached.symm.trans hfailed
  · intro hhost
    rw [hhost]
    exact (looked_run h as lasts n.flow).call a i j ha hj hflow (by rw [hst]; rfl)

/-- The entry that was stored. -/
def stored? : Deed → Option Entry
  | .stored e => some e
  | _ => none

theorem exists_stored (ns : List Note) (host : String)
    (h : (ns.findSome? fun n => stored? n.deed).bind Entry.host? = some host) :
    ∃ n ∈ ns, ∃ e, n.deed = .stored e ∧ e.host? = some host := by
  obtain ⟨e, he, hhost⟩ := Option.bind_eq_some_iff.1 h
  obtain ⟨n, hn, hd⟩ := List.exists_of_findSome?_eq_some he
  refine ⟨n, hn, e, ?_, hhost⟩
  unfold stored? at hd
  split at hd
  · next hdeed => cases hd; exact hdeed
  · cases hd

/-- A node is announced, a user configures its host, and only then the announced node is confirmed.
The node gives another name than the announced one. -/
def configuredMeanwhile : List Action :=
  .init .zeroconf (some kitchen) :: (.replicate 5 (.advance 0) ++ .init .user none :: .advance 1 ::
    .configure (.generated 1) (.record [("host", .str "10.0.0.1")]) :: (.replicate 8 (.advance 2) ++
      .configure (.generated 0) (.record []) :: .replicate 5 (.advance 3)))

/-- All hosts are one node. -/
def deskEverywhere : Network :=
  { hosts := .empty, others := { info := some ⟨"desk", false, "", "", ""⟩ } }

theorem lasts_configuredMeanwhile :
    ((start (Hub.unused deskEverywhere)).run configuredMeanwhile).hub.supply.Lasts := by
  unfold Supply.Lasts
  decide +kernel

theorem taken_configuredMeanwhile : ((start (Hub.unused deskEverywhere)).run
    configuredMeanwhile).hub.repository.rows.ofHost "10.0.0.1" ≠ [] := by
  decide +kernel

theorem stored_configuredMeanwhile :
    ∃ n ∈ ((start (Hub.unused deskEverywhere)).run configuredMeanwhile).notes (.advance 3),
      ∃ e, n.deed = .stored e ∧ e.host? = some "10.0.0.1" :=
  exists_stored _ _ (by decide +kernel)

/-- The confirmed node was looked for in time, but the entry of its host has another unique id. -/
theorem host_configured_meanwhile :
    ∃ n ∈ ((start (Hub.unused deskEverywhere)).run configuredMeanwhile).notes (.advance 3),
      ∃ e, n.deed = .stored e ∧ e.host? = some "10.0.0.1" ∧
        (∃ row ∈ ((start (Hub.unused deskEverywhere)).run
            configuredMeanwhile).hub.repository.rows.ofHost "10.0.0.1",
          row.uniqueId ≠ e.uniqueId) ∧
        ∃ bs, bs <+: configuredMeanwhile ∧
          ((start (Hub.unused deskEverywhere)).run bs).hub.repository.rows.ofHost "10.0.0.1" =
            [] := by
  have hflow : ∀ n ∈ ((start (Hub.unused deskEverywhere)).run configuredMeanwhile).notes
      (.advance 3), n.flow = .generated 0 := by decide +kernel
  have hann : (trail (((start (Hub.unused deskEverywhere)).run configuredMeanwhile).deeds
      (.generated 0))).announced.map (·.host) = some "10.0.0.1" := by decide +kernel
  obtain ⟨n, hn, e, stores, hhost⟩ := stored_configuredMeanwhile
  obtain ⟨host, hhost', missed, looked⟩ := host_configured_unnoticed (Hub.unused deskEverywhere)
    configuredMeanwhile lasts_configuredMeanwhile hn stores
  cases hhost.symm.trans hhost'
  rw [hflow n hn] at looked
  obtain ⟨a, ha, hahost⟩ := Option.map_eq_some_iff.1 hann
  obtain ⟨bs, hbs, -, free, -⟩ := (looked a ha).2 hahost.symm
  obtain ⟨row, hrow⟩ := List.exists_mem_of_ne_nil _ taken_configuredMeanwhile
  exact ⟨n, hn, e, stores, hhost, ⟨row, hrow, missed row hrow⟩, bs, hbs, free⟩

/-- A host that an entry has may be configured again. -/
theorem not_always_new_host :
    ¬ ∀ (h : Hub) (as : List Action) (act : Action) (n : Note) (e : Entry) (host : String),
      ((start h).run as).hub.supply.Lasts → n ∈ ((start h).run as).notes act →
      n.deed = .stored e → e.host? = some host →
      ((start h).run as).hub.repository.rows.ofHost host = [] := by
  intro always
  obtain ⟨n, hn, e, stores, hhost⟩ := stored_configuredMeanwhile
  exact taken_configuredMeanwhile (always (Hub.unused deskEverywhere) configuredMeanwhile
    (.advance 3) n e "10.0.0.1" lasts_configuredMeanwhile hn stores hhost)

end Session

end HomeHub
