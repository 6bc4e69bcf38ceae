import HomeHub.Proofs.FlowManager.Failure

/-!
# The wording of failures

Failures of storage and of nodes come with a text that somebody else has written. Hubs are alike
(`Hub.Alike`) if they differ in nothing but such texts. A running call may hold a failure for a
while, but what it does next never depends on the text (`Job.Alike.step`). So calls to hubs that are
alike stay alike to their end, whatever fails around them (`Job.Alike.runAmid`).
-/

namespace HomeHub

/-! ### Failures -/

/-- The same error, or two failures outside the domain. -/
inductive HubError.Alike : HubError → HubError → Prop
  | same (e : HubError) : Alike e e
  | storage (cause cause' : String) : Alike (.storage cause) (.storage cause')

/-- Failures of one kind. Host, address and reason may differ. -/
def ContactError.Alike (e e' : ContactError) : Prop := e.kind = e'.kind

theorem ContactError.Alike.isResolve {e e' : ContactError} (h : e.Alike e') :
    e.isResolve = e'.isResolve := by
  cases e <;> cases e' <;> first | rfl | simp [ContactError.Alike, kind] at h

/-- The same value, or errors that are related. -/
inductive Concur {ε α : Type} (r : ε → ε → Prop) : Except ε α → Except ε α → Prop
  | ok (x : α) : Concur r (.ok x) (.ok x)
  | error {e e' : ε} (h : r e e') : Concur r (.error e) (.error e')

namespace Concur

variable {ε α β : Type} {r : ε → ε → Prop} {x x' : Except ε α}

theorem refl (hr : ∀ e, r e e) (x : Except ε α) : Concur r x x := by
  cases x with
  | ok x => exact .ok x
  | error e => exact .error (hr e)

theorem bind {f f' : α → Except ε β} (hx : Concur r x x') (hf : ∀ a, Concur r (f a) (f' a)) :
    Concur r (x >>= f) (x' >>= f') := by
  cases hx with
  | ok a => exact hf a
  | error h => exact .error h

theorem map (hx : Concur r x x') (f : α → β) : Concur r (x.map f) (x'.map f) := by
  cases hx with
  | ok a => exact .ok (f a)
  | error h => exact .error h

end Concur

/-! ### The store -/

/-- The same fails, for whatever reasons. -/
structure StorageFaults.Alike (f f' : StorageFaults) : Prop where
  create : f.create.isSome = f'.create.isSome
  get : f.get.isSome = f'.get.isSome
  list : f.list.isSome = f'.list.isSome
  find : f.find.isSome = f'.find.isSome
  update : f.update.isSome = f'.update.isSome
  delete : f.delete.isSome = f'.delete.isSome
  rival : f.rival = f'.rival

namespace Repository

structure Alike (r r' : Repository) : Prop where
  rows : r.rows = r'.rows
  faults : r.faults.Alike r'.faults

theorem concur_guardFault {fault fault' : Option String} (h : fault.isSome = fault'.isSome) :
    Concur HubError.Alike (guardFault fault) (guardFault fault') := by
  cases fault <;> cases fault'
  · exact .ok ()
  · cases h
  · cases h
  · exact .error (.storage ..)

variable {r r' : Repository}

theorem Alike.all (h : r.Alike r') : Concur HubError.Alike r.all r'.all := by
  unfold Repository.all
  rw [h.rows]
  exact (concur_guardFault h.faults.list).bind fun _ => .refl .same _

theorem Alike.ofDomain (h : r.Alike r') (domain : String) :
    Concur HubError.Alike (r.ofDomain domain) (r'.ofDomain domain) := by
  unfold Repository.ofDomain
  rw [h.rows]
  exact (concur_guardFault h.faults.find).bind fun _ => .refl .same _

theorem Alike.findByUniqueId (h : r.Alike r') (domain id : String) :
    Concur HubError.Alike (r.findByUniqueId domain id) (r'.findByUniqueId domain id) :=
  (h.ofDomain domain).map _

theorem Alike.getEntry (h : r.Alike r') (id : Uuid) :
    Concur HubError.Alike (r.getEntry id) (r'.getEntry id) := by
  have found : Concur HubError.Alike (r.getById id) (r'.getById id) := by
    unfold Repository.getById
    rw [h.rows]
    exact (concur_guardFault h.faults.get).bind fun _ => .refl .same _
  exact found.bind fun _ => .refl .same _

/-- An entry is inserted in both stores or in none. -/
theorem Alike.insert (h : r.Alike r') (e : Entry) :
    (∃ err, r.insert e = .error err ∧ r'.insert e = .error err) ∨
      ∃ q q', r.insert e = .ok q ∧ r'.insert e = .ok q' ∧ q.Alike q' := by
  unfold Repository.insert
  rw [h.rows]
  cases r'.rows.insert? (.ofEntry e) with
  | none => exact .inl ⟨_, rfl, rfl⟩
  | some rows => exact .inr ⟨_, _, rfl, rfl, rfl, h.faults⟩

theorem Alike.afterRival (h : r.Alike r') (e : Entry) (supply : Supply) :
    (∃ err, r.afterRival e supply = (.error err, (r'.afterRival e supply).2) ∧
        r'.afterRival e supply = (.error err, (r'.afterRival e supply).2)) ∨
      ∃ q q', r.afterRival e supply = (.ok q, (r'.afterRival e supply).2) ∧
        r'.afterRival e supply = (.ok q', (r'.afterRival e supply).2) ∧ q.Alike q' := by
  unfold Repository.afterRival
  rw [h.faults.rival]
  split
  · obtain ⟨err, herr, herr'⟩ | ⟨q, q', hq, hq', hqq⟩ := h.insert { e with id := supply.draw.1 }
    · exact .inl ⟨err, Prod.ext herr rfl, Prod.ext herr' rfl⟩
    · exact .inr ⟨q, q', Prod.ext hq rfl, Prod.ext hq' rfl, hqq⟩
  · exact .inr ⟨r, r', rfl, rfl, h⟩

theorem Alike.create (h : r.Alike r') (e : Entry) (supply : Supply) :
    Concur HubError.Alike (r.create e supply).1 (r'.create e supply).1 ∧
      (r.create e supply).2.1.Alike (r'.create e supply).2.1 ∧
      (r.create e supply).2.2 = (r'.create e supply).2.2 := by
  unfold Repository.create
  obtain ⟨err, herr, herr'⟩ | ⟨q, q', hq, hq', hqq⟩ := h.afterRival e supply
  · rw [herr, herr']
    exact ⟨.error (.same err), h, rfl⟩
  rw [hq, hq']
  have guarded := concur_guardFault hqq.faults.create
  dsimp only
  generalize guardFault q.faults.create = x, guardFault q'.faults.create = x' at guarded
  cases guarded with
  | error herr => exact ⟨.error herr, hqq, rfl⟩
  | ok u =>
    obtain ⟨err, herr, herr'⟩ | ⟨p, p', hp, hp', hpp⟩ := hqq.insert e
    · rw [herr, herr']
      exact ⟨.error (.same err), hqq, rfl⟩
    · rw [hp, hp']
      exact ⟨.ok e, hpp, rfl⟩

theorem Alike.createEntry (h : r.Alike r') (e : Entry) (supply : Supply) :
    Concur HubError.Alike (r.createEntry e supply).1 (r'.createEntry e supply).1 ∧
      (r.createEntry e supply).2.1.Alike (r'.createEntry e supply).2.1 ∧
      (r.createEntry e supply).2.2 = (r'.createEntry e supply).2.2 := by
  unfold Repository.createEntry
  split
  · exact ⟨.error (.same _), h, rfl⟩
  · exact h.create e supply

theorem Alike.updateEntry (h : r.Alike r') (e : Entry) :
    Concur HubError.Alike (r.updateEntry e).1 (r'.updateEntry e).1 ∧
      (r.updateEntry e).2.Alike (r'.updateEntry e).2 := by
  unfold Repository.updateEntry
  split
  · exact ⟨.error (.same _), h⟩
  · have guarded := concur_guardFault h.faults.update
    unfold Repository.update
    generalize guardFault r.faults.update = x, guardFault r'.faults.update = x' at guarded
    cases guarded with
    | error herr => exact ⟨.error herr, h⟩
    | ok u =>
      dsimp only
      rw [h.rows]
      split
      · exact ⟨.error (.same _), h⟩
      · exact ⟨.error (.same _), h⟩
      · exact ⟨.ok e, rfl, h.faults⟩

theorem Alike.deleteEntry (h : r.Alike r') (id : Uuid) :
    Concur HubError.Alike (r.deleteEntry id).1 (r'.deleteEntry id).1 ∧
      (r.deleteEntry id).2.Alike (r'.deleteEntry id).2 := by
  have found := h.getEntry id
  unfold Repository.deleteEntry
  generalize r.getEntry id = x, r'.getEntry id = x' at found
  cases found with
  | error herr => exact ⟨.error herr, h⟩
  | ok e =>
    have guarded := concur_guardFault h.faults.delete
    dsimp only [Repository.delete]
    generalize guardFault r.faults.delete = x, guardFault r'.faults.delete = x' at guarded
    cases guarded with
    | error herr => exact ⟨.error herr, h⟩
    | ok u => exact ⟨.ok (), congrArg (Rows.delete · id.text) h.rows, h.faults⟩

end Repository

/-! ### Nodes -/

structure Behaviour.Alike (b b' : Behaviour) : Prop where
  info : b.info = b'.info
  error : Option.Rel ContactError.Alike b.error b'.error
  password : b.password = b'.password
  loginError : Option.Rel ContactError.Alike b.loginError b'.loginError

/-- Every host answers alike. -/
def Network.Alike (n n' : Network) : Prop := ∀ host, (n.behaviour host).Alike (n'.behaviour host)

theorem Network.Alike.describe {n n' : Network} (h : n.Alike n') (t : Target) :
    Concur ContactError.Alike (n.describe t) (n'.describe t) := by
  obtain ⟨info, error, -, -⟩ := h t.host
  unfold Network.describe
  dsimp only
  rw [info]
  generalize (n.behaviour t.host).error = e, (n'.behaviour t.host).error = e' at error
  cases error with
  | some herr => exact .error herr
  | none =>
    cases (n'.behaviour t.host).info with
    | none => exact .error rfl
    | some info => exact .ok info

theorem Network.Alike.login {n n' : Network} (h : n.Alike n') (t : Target) :
    Concur ContactError.Alike (n.login t) (n'.login t) := by
  obtain ⟨-, -, password, error⟩ := h t.host
  unfold Network.login
  dsimp only
  rw [password]
  generalize (n.behaviour t.host).loginError = e, (n'.behaviour t.host).loginError = e' at error
  cases error with
  | some herr => exact .error herr
  | none =>
    dsimp only
    split
    · exact .ok ()
    · exact .error rfl

/-! ### Hubs -/

structure Conditions.Alike (c c' : Conditions) : Prop where
  network : c.network.Alike c'.network
  faults : c.faults.Alike c'.faults

structure Publisher.Alike (p p' : Publisher) : Prop where
  bus : p.bus = p'.bus
  published : p.published = p'.published
  offered : p.offered = p'.offered
  refuses : ∀ n, (p.refuses n).isSome = (p'.refuses n).isSome

/-- The hubs differ in nothing but the texts of the failures that happen around them. -/
structure Hub.Alike (h h' : Hub) : Prop where
  supply : h.supply = h'.supply
  publisher : h.publisher.Alike h'.publisher
  states : h.states = h'.states
  repository : h.repository.Alike h'.repository
  loaded : h.loaded = h'.loaded
  network : h.network.Alike h'.network
  contacts : h.contacts = h'.contacts
  flows : h.flows = h'.flows

theorem Publisher.Alike.publish {p p' : Publisher} (h : p.Alike p') (e : Event) :
    Concur HubError.Alike (p.publish e).1 (p'.publish e).1 ∧
      (p.publish e).2.Alike (p'.publish e).2 := by
  have refuses := h.refuses p'.offered
  unfold Publisher.publish
  dsimp only
  rw [h.offered]
  cases hr : p.refuses p'.offered <;> cases hr' : p'.refuses p'.offered <;>
    rw [hr, hr'] at refuses
  · exact ⟨.ok (), congrArg (EventBus.publish · e) h.bus, congrArg (· ++ [e]) h.published, rfl,
      h.refuses⟩
  · cases refuses
  · cases refuses
  · exact ⟨.error (.storage _ _), h.bus, h.published, rfl, h.refuses⟩

namespace Hub.Alike

variable {h h' : Hub}

theorem under (ha : h.Alike h') {c c' : Conditions} (hc : c.Alike c') :
    (h.under c).Alike (h'.under c') :=
  { ha with network := hc.network, repository := ⟨ha.repository.rows, hc.faults⟩ }

theorem setFlows (ha : h.Alike h') {t t' : FlowTable} (ht : t = t') :
    Alike { h with flows := t } { h' with flows := t' } := { ha with flows := ht }

theorem draw (ha : h.Alike h') : h.draw.1 = h'.draw.1 ∧ h.draw.2.Alike h'.draw.2 :=
  ⟨congrArg (·.draw.1) ha.supply, { ha with supply := congrArg (·.draw.2) ha.supply }⟩

theorem describe (ha : h.Alike h') (t : Target) :
    Concur ContactError.Alike (h.describe t).1 (h'.describe t).1 ∧
      (h.describe t).2.Alike (h'.describe t).2 :=
  ⟨ha.network.describe t, { ha with contacts := congrArg (· ++ [_]) ha.contacts }⟩

theorem login (ha : h.Alike h') (t : Target) :
    Concur ContactError.Alike (h.login t).1 (h'.login t).1 ∧
      (h.login t).2.Alike (h'.login t).2 :=
  ⟨ha.network.login t, { ha with contacts := congrArg (· ++ [_]) ha.contacts }⟩

theorem createEntry (ha : h.Alike h') (e : Entry) :
    Concur HubError.Alike (h.createEntry e).1 (h'.createEntry e).1 ∧
      (h.createEntry e).2.Alike (h'.createEntry e).2 := by
  obtain ⟨answer, repository, supply⟩ := ha.repository.createEntry e h'.supply
  unfold Hub.createEntry
  rw [ha.supply]
  exact ⟨answer, { ha with repository, supply }⟩

theorem updateEntry (ha : h.Alike h') (e : Entry) :
    Concur HubError.Alike (h.updateEntry e).1 (h'.updateEntry e).1 ∧
      (h.updateEntry e).2.Alike (h'.updateEntry e).2 :=
  ⟨(ha.repository.updateEntry e).1, { ha with repository := (ha.repository.updateEntry e).2 }⟩

theorem deleteEntry (ha : h.Alike h') (id : Uuid) :
    Concur HubError.Alike (h.deleteEntry id).1 (h'.deleteEntry id).1 ∧
      (h.deleteEntry id).2.Alike (h'.deleteEntry id).2 :=
  ⟨(ha.repository.deleteEntry id).1, { ha with repository := (ha.repository.deleteEntry id).2 }⟩

theorem publish (ha : h.Alike h') (t : EventType) (id : Option String) (data : Json) :
    (h.publish t id data).2.Alike (h'.publish t id data).2 := by
  unfold Hub.publish
  rw [ha.supply]
  exact { ha with supply := rfl, publisher := (ha.publisher.publish _).2 }

end Hub.Alike

/-! ### Running steps -/

namespace Flow.Phase

/-- The phases differ at most in the text of a failure that they hold. -/
inductive Alike : Phase → Phase → Prop
  | same (p : Phase) : Alike p p
  | described (f : Flow) {reply reply' : Except ContactError DeviceInfo}
      (h : Concur ContactError.Alike reply reply') :
      Alike (.described f reply) (.described f reply')
  | loggedIn (f : Flow) {reply reply' : Except ContactError Unit}
      (h : Concur ContactError.Alike reply reply') :
      Alike (.loggedIn f reply) (.loggedIn f reply')
  | done (f : Flow) {r r' : Except HubError Result} (h : Concur HubError.Alike r r') :
      Alike (.done f r) (.done f r')

variable {p p' : Phase} {h h' : Hub}

theorem Alike.rank (hp : p.Alike p') : p.rank = p'.rank := by cases hp <;> rfl

/-- What goes wrong with a node is told by the kind of form alone. -/
theorem alike_afterDescription (f : Flow) {reply reply' : Except ContactError DeviceInfo}
    (hr : Concur ContactError.Alike reply reply') :
    (afterDescription f reply).Alike (afterDescription f reply') := by
  cases hr with
  | ok info => exact .same _
  | error herr =>
    unfold afterDescription
    dsimp only
    rw [herr.isResolve]
    exact .same _

theorem alike_afterLogin (f : Flow) {reply reply' : Except ContactError Unit}
    (hr : Concur ContactError.Alike reply reply') :
    (afterLogin f reply).Alike (afterLogin f reply') := by
  cases hr <;> exact .same _

theorem Alike.step (hp : p.Alike p') (ha : h.Alike h') :
    (p.step h).1.Alike (p'.step h').1 ∧ (p.step h).2.Alike (p'.step h').2 := by
  cases hp with
  | described f hr => exact ⟨alike_afterDescription f hr, ha⟩
  | loggedIn f hr => exact ⟨alike_afterLogin f hr, ha⟩
  | done f hr => exact ⟨.done f hr, ha⟩
  | same p =>
    cases p with
    | describe f => exact ⟨.described f (ha.describe _).1, (ha.describe _).2⟩
    | described f reply => exact ⟨.same _, ha⟩
    | login f t => exact ⟨.loggedIn f (ha.login t).1, (ha.login t).2⟩
    | loggedIn f reply => exact ⟨.same _, ha⟩
    | findMatch f g =>
      have found := ha.repository.findByUniqueId nativeApiDomain (f.uniqueId.getD "")
      simp only [Phase.step]
      generalize h.repository.findByUniqueId _ _ = x, h'.repository.findByUniqueId _ _ = x' at found
      cases found with
      | ok e => exact ⟨.same _, ha⟩
      | error herr => exact ⟨.done f (.error herr), ha⟩
    | update f e =>
      have updated := ha.updateEntry e
      simp only [Phase.step]
      generalize h.updateEntry e = x, h'.updateEntry e = x' at updated
      obtain ⟨x, h₁⟩ := x
      obtain ⟨x', h₁'⟩ := x'
      obtain ⟨answer, hubs⟩ := updated
      cases answer with
      | ok e => exact ⟨.same _, hubs⟩
      | error herr => exact ⟨.done f (.error herr), hubs⟩
    | listKnown f a =>
      have listed := ha.repository.ofDomain nativeApiDomain
      simp only [Phase.step, ha.loaded]
      generalize h.repository.ofDomain _ = x, h'.repository.ofDomain _ = x' at listed
      cases listed with
      | ok es => exact ⟨.same _, ha⟩
      | error herr => exact ⟨.done f (.error herr), ha⟩
    | done f r => exact ⟨.same _, ha⟩

end Flow.Phase

/-! ### Running calls -/

/-- The stages differ at most in the text of a failure that they hold. -/
inductive Stage.Alike : Stage → Stage → Prop
  | same (s : Stage) : Alike s s
  | run {p p' : Flow.Phase} (h : p.Alike p') : Alike (.run p) (.run p')
  | recheck (n : Flow.NewEntry) {err err' : HubError} (h : err.Alike err') :
      Alike (.recheck n err) (.recheck n err')
  | release {err err' : HubError} (h : err.Alike err') : Alike (.release err) (.release err')
  | unclaim {r r' : Except HubError FlowResponse} (h : Concur HubError.Alike r r') :
      Alike (.unclaim r) (.unclaim r')
  | done {r r' : Except HubError FlowResponse} (h : Concur HubError.Alike r r') :
      Alike (.done r) (.done r')

namespace Job

structure Alike (j j' : Job) : Prop where
  flowId : j.flowId = j'.flowId
  claimed : j.claimed = j'.claimed
  stage : j.stage.Alike j'.stage

variable {j j' : Job} {h h' : Hub}

theorem Alike.refl (j : Job) : j.Alike j := ⟨rfl, rfl, .same _⟩

theorem Alike.rank (hj : j.Alike j') : j.rank = j'.rank := by
  obtain ⟨id, claimed, s⟩ := j
  obtain ⟨id', claimed', s'⟩ := j'
  obtain ⟨-, -, hs⟩ := hj
  cases hs with
  | run hp => exact congrArg (6 + ·) hp.rank
  | _ => rfl

theorem Alike.answer? (hj : j.Alike j') :
    Option.Rel (Concur HubError.Alike) j.answer? j'.answer? := by
  obtain ⟨id, claimed, s⟩ := j
  obtain ⟨id', claimed', s'⟩ := j'
  obtain ⟨-, -, hs⟩ := hj
  cases hs with
  | done hr => exact .some hr
  | same s =>
    cases s with
    | done r => exact .some (.refl .same r)
    | _ => exact .none
  | _ => exact .none

theorem Alike.isSome_answer? (hj : j.Alike j') : j.answer?.isSome = j'.answer?.isSome := by
  have := hj.answer?
  generalize j.answer? = x, j'.answer? = x' at this
  cases this <;> rfl

theorem Alike.enter (hj : j.Alike j') {s s' : Stage} (hs : s.Alike s') :
    (j.enter s).Alike (j'.enter s') := ⟨hj.flowId, hj.claimed, hs⟩

theorem Alike.close (hj : j.Alike j') {r r' : Except HubError FlowResponse}
    (hr : Concur HubError.Alike r r') : (j.close r).Alike (j'.close r') := by
  unfold Job.close
  rw [hj.claimed]
  split
  · exact hj.enter (.unclaim hr)
  · exact hj.enter (.done hr)

theorem Alike.settle (hj : j.Alike j') (f : Flow) {r r' : Except HubError Flow.Result}
    (hr : Concur HubError.Alike r r') : (j.settle f r).Alike (j'.settle f r') := by
  cases hr with
  | ok result => cases result <;> exact hj.enter (.same _)
  | error herr =>
    unfold Job.settle
    dsimp only
    rw [hj.claimed]
    split
    · exact hj.close (.error herr)
    · exact hj.enter (.release herr)

theorem Alike.advance (hj : j.Alike j') {p p' : Flow.Phase} (hp : p.Alike p') :
    (j.advance p).Alike (j'.advance p') := by
  cases hp with
  | described f hr => exact hj.enter (.run (.described f hr))
  | loggedIn f hr => exact hj.enter (.run (.loggedIn f hr))
  | done f hr => exact hj.settle f hr
  | same p =>
    cases p with
    | done f r => exact hj.settle f (.refl .same r)
    | _ => exact hj.enter (.same _)

theorem alike_existing (ha : h.Alike h') (n : Flow.NewEntry) :
    Concur HubError.Alike (existing h n) (existing h' n) := by
  unfold existing
  split
  · exact ha.repository.findByUniqueId ..
  · exact .ok none

theorem alike_recheck {id : Uuid} {claimed : Option String} (n : Flow.NewEntry) {err err' : HubError}
    (herr : err.Alike err') (ha : h.Alike h') :
    (step ⟨id, claimed, .recheck n err⟩ h).1.Alike (step ⟨id, claimed, .recheck n err'⟩ h').1 ∧
      (step ⟨id, claimed, .recheck n err⟩ h).2.Alike (step ⟨id, claimed, .recheck n err'⟩ h').2 := by
  have known := alike_existing ha n
  simp only [Job.step]
  generalize existing h n = x, existing h' n = x' at known
  cases known with
  | error hfind => exact ⟨⟨rfl, rfl, .release hfind⟩, ha⟩
  | ok e =>
    cases e with
    | none => exact ⟨⟨rfl, rfl, .release herr⟩, ha⟩
    | some e => exact ⟨.refl _, ha⟩

/-- Nothing that a call does next depends on the text of a failure. -/
theorem Alike.step (hj : j.Alike j') (ha : h.Alike h') :
    (j.step h).1.Alike (j'.step h').1 ∧ (j.step h).2.Alike (j'.step h').2 := by
  obtain ⟨id, claimed, s⟩ := j
  obtain ⟨id', claimed', s'⟩ := j'
  obtain ⟨hid, hc, hs⟩ := hj
  cases hid
  cases hc
  have alike {s s' : Stage} (hs : s.Alike s') : Alike ⟨id, claimed, s⟩ ⟨id, claimed, s'⟩ :=
    ⟨rfl, rfl, hs⟩
  cases hs with
  | run hp =>
    obtain ⟨phases, hubs⟩ := hp.step ha
    exact ⟨(alike (.run hp)).advance phases, hubs⟩
  | recheck n herr => exact alike_recheck n herr ha
  | release herr =>
    exact ⟨(alike (.release herr)).close (.error herr),
      ha.setFlows (congrArg (FlowTable.setBusy · id false) ha.flows)⟩
  | unclaim hr =>
    exact ⟨alike (.done hr),
      ha.setFlows (congrArg (FlowTable.unclaim · (claimed.getD "")) ha.flows)⟩
  | done hr => exact ⟨alike (.done hr), ha⟩
  | same s =>
    cases s with
    | claim a =>
      simp only [Job.step, ha.flows]
      split
      · exact ⟨alike (.same _), ha⟩
      · exact ⟨.refl _, ha.setFlows rfl⟩
    | begin input =>
      simp only [Job.step, ha.flows]
      split
      · exact ⟨alike (.same _), ha⟩
      · split
        · exact ⟨alike (.same _), ha⟩
        · exact ⟨.refl _, ha.setFlows rfl⟩
    | run p =>
      obtain ⟨phases, hubs⟩ := (Flow.Phase.Alike.same p).step ha
      exact ⟨(Alike.refl _).advance phases, hubs⟩
    | register f form =>
      simp only [Job.step, ha.flows]
      exact ⟨.refl _, ha.setFlows rfl⟩
    | check n =>
      have known := alike_existing ha n
      simp only [Job.step]
      generalize existing h n = x, existing h' n = x' at known
      cases known with
      | error hfind => exact ⟨alike (.release hfind), ha⟩
      | ok e =>
        cases e with
        | some e => exact ⟨alike (.same _), ha⟩
        | none =>
          obtain ⟨fresh, hubs⟩ := ha.draw
          dsimp only
          rw [fresh, hubs.supply]
          split
          · exact ⟨alike (.same _), hubs⟩
          · exact ⟨alike (.same _), hubs⟩
    | store n e =>
      obtain ⟨answer, hubs⟩ := ha.createEntry e
      simp only [Job.step]
      generalize h.createEntry e = x, h'.createEntry e = x' at answer hubs
      obtain ⟨x, h₁⟩ := x
      obtain ⟨x', h₁'⟩ := x'
      cases answer with
      | ok e => exact ⟨alike (.same _), hubs⟩
      | error herr => exact ⟨alike (.recheck n herr), hubs⟩
    | recheck n err => exact alike_recheck n (.same err) ha
    | announce n e => exact ⟨alike (.same _), ha.publish ..⟩
    | finish result entry =>
      simp only [Job.step, ha.flows]
      exact ⟨.refl _, ha.setFlows rfl⟩
    | release err =>
      simp only [Job.step, ha.flows]
      exact ⟨.refl _, ha.setFlows rfl⟩
    | unclaim r =>
      simp only [Job.step, ha.flows]
      exact ⟨.refl _, ha.setFlows rfl⟩
    | done r => exact ⟨alike (.same _), ha⟩

/-- Calls that are alike stay so, whatever fails around them, if it fails in both worlds. -/
theorem Alike.runAmid {c c' : Nat → Conditions} (hc : ∀ k, (c k).Alike (c' k)) (left : Nat)
    (hj : j.Alike j') (ha : h.Alike h') :
    (j.runAmid c left h).1.Alike (j'.runAmid c' left h').1 ∧
      (j.runAmid c left h).2.Alike (j'.runAmid c' left h').2 := by
  induction left generalizing j j' h h' with
  | zero => exact ⟨hj, ha⟩
  | succ left ih =>
    unfold Job.runAmid
    rw [hj.isSome_answer?]
    split
    · exact ⟨hj, ha⟩
    · obtain ⟨jobs, hubs⟩ := hj.step (ha.under (hc left))
      exact ih jobs hubs

end Job

end HomeHub
