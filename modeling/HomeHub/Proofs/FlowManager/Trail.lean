import HomeHub.Proofs.FlowManager.Session
import HomeHub.Proofs.FlowManager.Step

/-!
# What a flow knows of its node

A flow collects host, port, password, name and unique id in different steps. `Trail` is what the
deeds of the flow tell about where these come from. Four predicates say what must have come before:
`Trail.Waits` for a flow that waits for a form, `Trail.Runs` for a running step, `Trail.Calls` for a
call, and `Trail.Backs` for the new entry. Each phase and each stage keeps them.
-/

namespace HomeHub

/-- What was done for a flow so far, as far as its data depends on it. -/
structure Trail where
  /-- The announcement that a zeroconf flow was started with. -/
  announced : Option Announcement := none
  /-- The last request for a description, and the reply. -/
  described : Option (Target × Except ContactError DeviceInfo) := none
  /-- The last call to a node. -/
  contact : Option Deed := none
  /-- Whether a request for a description failed. -/
  failed : Bool := false

def Trail.after (k : Trail) : Deed → Trail
  | .started .zeroconf a => { k with announced := a }
  | .described t reply =>
    { k with
      described := some (t, reply)
      contact := some (.described t reply)
      failed := k.failed || !reply.isOk }
  | .loggedIn t reply => { k with contact := some (.loggedIn t reply) }
  | _ => k

def trail (ds : List Deed) : Trail := ds.foldl Trail.after {}

theorem trail_append (ds es : List Deed) : trail (ds ++ es) = es.foldl Trail.after (trail ds) :=
  List.foldl_append

theorem trail_concat (ds : List Deed) (d : Deed) : trail (ds ++ [d]) = (trail ds).after d :=
  trail_append ds [d]

namespace Trail

variable (k : Trail) (f : Flow)

/-- The unique id of the node that described itself so. -/
def key (info : DeviceInfo) : String := (k.announced.map (·.nodeName)).getD info.name

/-- The flow is still about the announced host, or the node was not reached there. -/
def KeepsHost (host : Option String) : Prop :=
  ∀ a, k.announced = some a → host = some a.host ∨ k.failed = true

/-- The flow was not told anything by a node yet. -/
structure Early : Prop where
  password : f.password = none
  uniqueId : f.uniqueId = k.announced.map (·.nodeName)

/-- The node that the flow is about described itself so. -/
structure Late (info : DeviceInfo) : Prop where
  described : k.described = some (f.describeTarget, .ok info)
  name : f.name = some info.name
  uniqueId : f.uniqueId = some (k.key info)
  host : k.KeepsHost f.host

/-- What precedes the form that a flow waits for. The user form may change the host, so a zeroconf
flow gets there only after a failure. -/
def Waits : Prop :=
  match f.step with
  | .user => k.Early f ∧ k.KeepsHost none
  | .discoveryConfirm => k.Early f ∧ k.KeepsHost f.host
  | .authenticate => ∃ info, k.Late f info ∧ info.usesPassword = true

/-- What precedes a new entry. -/
structure Backs (n : Flow.NewEntry) (info : DeviceInfo) : Prop where
  described : k.described = some (⟨n.data.host, n.data.port, ""⟩, .ok info)
  title : n.title = info.name
  loggedIn : info.usesPassword = true → k.contact = some (.loggedIn n.data.target (.ok ()))
  password : info.usesPassword = false → n.data.password = ""
  uniqueId : n.uniqueId = some (k.key info)
  host : k.KeepsHost (some n.data.host)

/-- What precedes the outcome of a step. -/
def Yields : Except HubError Flow.Result → Prop
  | .ok (.form _) => k.Waits f
  | .ok (.createEntry n) => ∃ info, k.Backs n info
  | _ => True

/-- What precedes a phase of a step. -/
def Runs : Flow.Phase → Prop
  | .describe f => k.Early f ∧ k.KeepsHost f.host
  | .described f reply =>
    k.Early f ∧ k.KeepsHost f.host ∧ k.described = some (f.describeTarget, reply) ∧
      (reply.isOk = false → k.failed = true)
  | .login f t => f.target = .ok t ∧ ∃ info, k.Late f info ∧ info.usesPassword = true
  | .loggedIn f reply =>
    ∃ t, f.target = .ok t ∧ k.contact = some (.loggedIn t reply) ∧
      ∃ info, k.Late f info ∧ info.usesPassword = true
  | .findMatch f (.announced a) => k.Early f ∧ k.announced = some a
  | .findMatch f (.described info) => k.Late f info ∧ f.password = none
  | .update _ _ => True
  | .listKnown f a => k.Early f ∧ k.announced = some a
  | .done f r => k.Yields f r

/-- What precedes an answer. -/
def Accounts (result : Flow.Result) (entry : Option Entry) : Prop :=
  ∀ n, result = .createEntry n → (∃ info, k.Backs n info) ∧ ∃ e, entry = some e ∧ n.Builds e

/-- What precedes a stage of a call that works on its flow. -/
def Calls : Stage → Prop
  | .claim a => k.announced = some a
  | .run p => k.Runs p
  | .register f form => k.Waits f ∧ k.Accounts form none
  | .check n => ∃ info, k.Backs n info
  | .store n e | .announce n e => (∃ info, k.Backs n info) ∧ n.Builds e
  | .finish result entry => k.Accounts result entry
  | _ => True

/-! ### Phases -/

section Phases

variable {k : Trail} {f : Flow}

theorem waits_showUser (error : Option Flow.FormError) (early : k.Early f)
    (away : k.KeepsHost none) : k.Waits (f.showUser error).1 :=
  ⟨⟨early.password, early.uniqueId⟩, away⟩

theorem waits_showConfirm (early : k.Early f) (host : k.KeepsHost f.host) :
    k.Waits f.showConfirm.1 :=
  ⟨⟨early.password, early.uniqueId⟩, host⟩

theorem waits_showAuthenticate {info : DeviceInfo} (error : Option Flow.FormError)
    (late : k.Late f info) (locked : info.usesPassword = true) :
    k.Waits (f.showAuthenticate error).1 :=
  ⟨info, ⟨late.described, late.name, late.uniqueId, late.host⟩, locked⟩

/-- A step ends in a new entry only for a node that described itself and let the flow in. -/
theorem runs_create {info : DeviceInfo} (late : k.Late f info)
    (loggedIn : info.usesPassword = true →
      ∃ t, f.target = .ok t ∧ k.contact = some (.loggedIn t (.ok ())))
    (open_ : info.usesPassword = false → f.password = none) : k.Runs f.create := by
  cases hh : f.host with
  | none =>
    have hcreate : f.create = .fail f .emptyHost := by
      simp [Flow.create, Flow.newEntry, Flow.target, late.name, hh, Except.bind, bind]
    rw [hcreate]
    trivial
  | some host =>
    have htarget : f.target = .ok ⟨host, f.portOrDefault, f.password.getD ""⟩ := by
      simp [Flow.target, hh]
    have hcreate : f.create = .done f (.ok (.createEntry
        ⟨info.name, ⟨host, f.portOrDefault, f.password.getD ""⟩, f.uniqueId, f.source⟩)) := by
      simp [Flow.create, Flow.newEntry, late.name, htarget, bind, Except.bind, pure, Except.pure]
    rw [hcreate]
    refine ⟨info, ?_, rfl, ?_, ?_, late.uniqueId, ?_⟩
    · rw [late.described, Flow.describeTarget, hh]
      rfl
    · intro locked
      obtain ⟨t, ht, hc⟩ := loggedIn locked
      rw [htarget] at ht
      cases ht
      exact hc
    · intro unlocked
      show f.password.getD "" = ""
      rw [open_ unlocked]
      rfl
    · rw [← hh]
      exact late.host

theorem runs_proceed {info : DeviceInfo} (late : k.Late f info) (unset : f.password = none) :
    k.Runs (Flow.proceed f (.described info)) := by
  simp only [Flow.proceed]
  split
  · next locked => exact waits_showAuthenticate none late locked
  · next unlocked => exact runs_create late (fun locked => absurd locked unlocked) fun _ => unset

theorem runs_afterDescription {reply : Except ContactError DeviceInfo} (early : k.Early f)
    (host : k.KeepsHost f.host) (described : k.described = some (f.describeTarget, reply))
    (failed : reply.isOk = false → k.failed = true) : k.Runs (Flow.afterDescription f reply) := by
  cases reply with
  | error err => exact waits_showUser _ early fun _ _ => .inr (failed rfl)
  | ok info =>
    simp only [Flow.afterDescription, Flow.checkMatch]
    refine ⟨⟨described, rfl, ?_, host⟩, early.password⟩
    simp only [early.uniqueId, key]
    cases k.announced <;> rfl

theorem runs_afterMatch (g : Flow.Ground) (e : Option Entry) (h : k.Runs (.findMatch f g)) :
    k.Runs (Flow.afterMatch f g e) := by
  cases e with
  | none =>
    cases g with
    | announced a => exact h
    | described info => exact runs_proceed h.1 h.2
  | some e =>
    simp only [Flow.afterMatch]
    split <;> trivial

theorem runs_afterKnown (a : Announcement) (e : Option Entry) (h : k.Runs (.listKnown f a)) :
    k.Runs (Flow.afterKnown f a e) := by
  obtain ⟨early, ann⟩ := h
  cases e with
  | none =>
    refine waits_showConfirm ⟨early.password, early.uniqueId⟩ fun a' ha' => .inl ?_
    rw [ann] at ha'
    cases ha'
    rfl
  | some e =>
    simp only [Flow.afterKnown]
    split <;> trivial

/-- Whatever is submitted, the step that a waiting flow starts with it is preceded as it should. -/
theorem runs_submit (h : k.Waits f) (input : Json) : k.Runs (f.submit input) := by
  unfold Waits at h
  unfold Flow.submit
  cases hstep : f.step with
  | user =>
    rw [hstep] at h
    obtain ⟨early, away⟩ := h
    dsimp only
    split
    · next input' _ =>
      simp only [Flow.startUser]
      split
      · trivial
      · exact ⟨⟨early.password, early.uniqueId⟩, fun a ha => .inr ((away a ha).resolve_left nofun)⟩
    · trivial
  | discoveryConfirm =>
    rw [hstep] at h
    exact h
  | authenticate =>
    rw [hstep] at h
    obtain ⟨info, late, locked⟩ := h
    dsimp only
    split
    · next input' _ =>
      simp only [Flow.startAuthenticate]
      split
      · trivial
      · next t ht => exact ⟨ht, info, ⟨late.described, late.name, late.uniqueId, late.host⟩, locked⟩
    · trivial

/-- What follows from what precedes a phase still does after the call to a node that it makes. -/
theorem runs_step {p : Flow.Phase} (h : k.Runs p) (j : Job) (hub : Hub) (hj : j.stage = .run p) :
    ((j.act? hub).toList.foldl Trail.after k).Runs (p.step hub).1 := by
  cases p with
  | describe f =>
    simp only [Job.act?, hj]
    refine ⟨⟨h.1.password, h.1.uniqueId⟩, fun a ha => (h.2 a ha).imp_right fun hf => ?_, rfl,
      fun hr => ?_⟩
    · show (k.failed || _) = true
      rw [hf, Bool.true_or]
    · show (k.failed || !(hub.network.describe f.describeTarget).isOk) = true
      rw [hr, Bool.not_false, Bool.or_true]
  | described f reply =>
    simp only [Job.act?, hj]
    exact runs_afterDescription h.1 h.2.1 h.2.2.1 h.2.2.2
  | login f t =>
    simp only [Job.act?, hj]
    obtain ⟨ht, info, late, locked⟩ := h
    exact ⟨t, ht, rfl, info, ⟨late.described, late.name, late.uniqueId, late.host⟩, locked⟩
  | loggedIn f reply =>
    simp only [Job.act?, hj]
    obtain ⟨t, ht, hc, info, late, locked⟩ := h
    cases reply with
    | error err => exact waits_showAuthenticate _ late locked
    | ok u => exact runs_create late (fun _ => ⟨t, ht, hc⟩) fun open_ => by simp [locked] at open_
  | findMatch f g =>
    simp only [Job.act?, hj, Flow.Phase.step]
    split
    · trivial
    · exact runs_afterMatch g _ h
  | update f e =>
    simp only [Job.act?, hj, Flow.Phase.step]
    split <;> trivial
  | listKnown f a =>
    simp only [Job.act?, hj, Flow.Phase.step]
    split
    · trivial
    · exact runs_afterKnown a _ h
  | done f r =>
    simp only [Job.act?, hj]
    exact h

end Phases

/-! ### Stages -/

section Stages

variable {k : Trail}

theorem calls_close (j : Job) (r : Except HubError FlowResponse) : k.Calls (j.close r).stage := by
  unfold Job.close
  split <;> trivial

theorem calls_advance (j : Job) {p : Flow.Phase} (h : k.Runs p) : k.Calls (j.advance p).stage := by
  unfold Job.advance
  split
  · next f r =>
    unfold Job.settle
    split
    · exact ⟨h, nofun⟩
    · exact h
    · exact nofun
    · split
      · exact calls_close j _
      · trivial
  · exact h

/-- The trail after the next thing that a call does. -/
def along (k : Trail) (j : Job) (hub : Hub) : Trail := (j.act? hub).toList.foldl Trail.after k

/-- Only a running step calls nodes. -/
theorem along_of_not_run {j : Job} (hub : Hub) (h : ∀ p, j.stage ≠ .run p) : k.along j hub = k := by
  unfold along Job.act?
  split
  · next heq => exact absurd heq (h _)
  · next heq => exact absurd heq (h _)
  · rfl
  · cases (hub.createEntry _).1 <;> rfl
  · cases (hub.publish _ _ _).1 <;> rfl
  · rfl

theorem calls_step {j : Job} (working : j.stage.isWorking = true) (h : k.Calls j.stage)
    (hub : Hub) : (k.along j hub).Calls (j.step hub).1.stage := by
  obtain ⟨id, claimed, stage⟩ := j
  cases stage with
  | run p => exact calls_advance _ (runs_step h ⟨id, claimed, .run p⟩ hub rfl)
  | begin input => cases working
  | unclaim r => trivial
  | done r => trivial
  | claim a =>
    rw [along_of_not_run hub fun _ => Stage.noConfusion]
    simp only [Job.step]
    split
    · trivial
    · refine calls_advance _ ⟨⟨rfl, ?_⟩, h⟩
      rw [show k.announced = some a from h]
      rfl
  | check n =>
    rw [along_of_not_run hub fun _ => Stage.noConfusion]
    simp only [Job.step]
    split
    · trivial
    · intro m hm
      cases hm
    · split
      · trivial
      · next hbuild => exact ⟨h, (Flow.NewEntry.builds_of_build hbuild).1⟩
  | store n e =>
    rw [along_of_not_run hub fun _ => Stage.noConfusion]
    simp only [Job.step]
    split
    · next e' _ hok =>
      rw [Hub.createEntry_eq_of_ok (congrArg Prod.fst hok)]
      exact h
    · trivial
  | recheck n err =>
    rw [along_of_not_run hub fun _ => Stage.noConfusion]
    simp only [Job.step]
    split
    · trivial
    · intro m hm
      cases hm
    · trivial
  | announce n e =>
    rw [along_of_not_run hub fun _ => Stage.noConfusion]
    rintro m ⟨⟩
    exact ⟨h.1, e, rfl, h.2⟩
  | _ => exact calls_close _ _

theorem settled_close (j : Job) (r : Except HubError FlowResponse) :
    (j.close r).stage.settled? = some r := by
  unfold Job.close
  split <;> rfl

/-- Going on with a step answers at most with an error. -/
theorem settled_advance {j : Job} {p : Flow.Phase} {r : FlowResponse} :
    (j.advance p).stage.settled? ≠ some (.ok r) := by
  unfold Job.advance
  split
  · unfold Job.settle
    split
    · exact nofun
    · exact nofun
    · exact nofun
    · split
      · rw [settled_close]; exact nofun
      · exact nofun
  · exact nofun

theorem accounts_of_settled {j : Job} (working : j.stage.isWorking = true) (h : k.Calls j.stage)
    {hub : Hub} {r : FlowResponse} (hr : (j.step hub).1.stage.settled? = some (.ok r)) :
    (k.along j hub).Accounts r.result r.entry := by
  obtain ⟨id, claimed, stage⟩ := j
  cases stage with
  | begin input => cases working
  | unclaim r => cases working
  | done r => cases working
  | run p => exact absurd hr settled_advance
  | claim a =>
    simp only [Job.step] at hr
    split at hr
    · cases hr
      intro m hm
      cases hm
    · exact absurd hr settled_advance
  | register f form =>
    rw [along_of_not_run hub fun _ => Stage.noConfusion]
    rw [Job.step, settled_close] at hr
    cases hr
    exact h.2
  | finish result entry =>
    rw [along_of_not_run hub fun _ => Stage.noConfusion]
    rw [Job.step, settled_close] at hr
    cases hr
    exact h
  | release err =>
    rw [Job.step, settled_close] at hr
    cases hr
  | check n =>
    simp only [Job.step] at hr
    split at hr
    · cases hr
    · cases hr
    · split at hr <;> cases hr
  | store n e =>
    simp only [Job.step] at hr
    split at hr <;> cases hr
  | recheck n err =>
    simp only [Job.step] at hr
    split at hr <;> cases hr
  | announce n e => cases hr

end Stages

end Trail

end HomeHub
