import HomeHub.Proofs.FlowManager.Step
import HomeHub.Proofs.FlowManager.Twin

/-!
# Refused passwords

A flow whose login the node refuses shows the password form again and keeps the password. That is
all that is left of it, so it makes no difference to anything later which passwords were refused
(`Session.refused_passwords_leave_no_trace`).
-/

namespace HomeHub

/-! ### Calls that are not interrupted -/

namespace Job

theorem step_of_answer {j : Job} (ended : j.answer?.isSome = true) (h : Hub) :
    j.step h = (j, h) := by
  obtain ⟨id, claimed, stage⟩ := j
  cases stage with
  | done r => rfl
  | _ => cases ended

theorem runUntil_of_answer {j : Job} (ended : j.answer?.isSome = true) (stop : Job → Bool)
    (fuel : Nat) (h : Hub) : j.runUntil stop fuel h = (j, h) := by
  cases fuel with
  | zero => rfl
  | succ fuel => rw [runUntil, ended, Bool.true_or, if_pos rfl]

theorem runUntil_succ (j : Job) (fuel : Nat) (h : Hub) :
    j.runUntil (fun _ => false) (fuel + 1) h =
      (j.step h).1.runUntil (fun _ => false) fuel (j.step h).2 := by
  by_cases ended : j.answer?.isSome = true
  · rw [step_of_answer ended, runUntil_of_answer ended, runUntil_of_answer ended]
  · rw [runUntil, Bool.or_false, if_neg ended]

end Job

namespace Session

variable {s : Session}

/-- A call goes on alone. -/
theorem run_replicate_advance {i : Nat} {j : Job} (hj : s.jobs[i]? = some j) (n : Nat) :
    (s.run (.replicate n (.advance i))).hub = (j.runUntil (fun _ => false) n s.hub).2 ∧
      (s.run (.replicate n (.advance i))).jobs =
        s.jobs.set i (j.runUntil (fun _ => false) n s.hub).1 := by
  induction n generalizing s j with
  | zero =>
    obtain ⟨hi, rfl⟩ := List.getElem?_eq_some_iff.1 hj
    exact ⟨rfl, (List.set_getElem_self hi).symm⟩
  | succ n ih =>
    have hi : i < s.jobs.length := (List.getElem?_eq_some_iff.1 hj).1
    have hstep := step_advance hj
    obtain ⟨hub, jobs⟩ := ih (s := s.step (.advance i)) (j := (j.step s.hub).1)
      (by rw [hstep]; exact List.getElem?_set_self hi)
    rw [List.replicate_succ, run_cons, Job.runUntil_succ, hub, jobs, hstep, List.set_set]
    exact ⟨rfl, rfl⟩

/-- The form of a flow is submitted, and nothing else happens until that call is over. -/
def submit (s : Session) (f : Uuid) (input : Json) : Session :=
  s.run (.configure f input ::
    .replicate (Hub.configureJob f input).rank (.advance s.jobs.length))

def submitAll (s : Session) (f : Uuid) (inputs : List Json) : Session :=
  inputs.foldl (fun s input => s.submit f input) s

theorem submitAll_cons (s : Session) (f : Uuid) (input : Json) (inputs : List Json) :
    s.submitAll f (input :: inputs) = (s.submit f input).submitAll f inputs := by
  rw [submitAll, submitAll, List.foldl_cons]

theorem submit_eq (s : Session) (f : Uuid) (input : Json) :
    let j := Hub.configureJob f input
    (s.submit f input).hub = (j.runUntil (fun _ => false) j.rank s.hub).2 ∧
      (s.submit f input).jobs = s.jobs ++ [(j.runUntil (fun _ => false) j.rank s.hub).1] := by
  intro j
  have made : (s.step (.configure f input)).jobs = s.jobs ++ [j] := rfl
  obtain ⟨hub, jobs⟩ := run_replicate_advance (s := s.step (.configure f input)) (j := j)
    (by rw [made]; exact List.getElem?_concat_length) j.rank
  rw [submit, run_cons, hub, jobs, made, List.set_append_right _ _ (Nat.le_refl _), Nat.sub_self]
  exact ⟨rfl, rfl⟩

end Session

/-! ### One refused password -/

/-- The node refuses the password of the submitted form. -/
def Flow.Refused (f : Flow) (network : Network) (input : Json) : Prop :=
  ∃ i host err, PasswordInput.parse input = .ok i ∧ f.host = some host ∧
    network.login ⟨host, f.portOrDefault, i.password⟩ = .error err

theorem Flow.Refused.of_masked {f f' : Flow} {network : Network} {input : Json}
    (h : f.Refused network input) (hmasked : f.masked = f'.masked) : f'.Refused network input := by
  have hhost : f'.host = f.host := by rw [← f'.masked_host, ← hmasked, f.masked_host]
  have hport : f'.port = f.port := by rw [← f'.masked_port, ← hmasked, f.masked_port]
  unfold Refused portOrDefault
  rw [hhost, hport]
  exact h

/-- A node that looks at nothing but the password refuses all but its own. -/
theorem Flow.refused_iff {f : Flow} {network : Network} {host : String} (hhost : f.host = some host)
    (answers : (network.behaviour host).loginError = none) (input : Json) :
    f.Refused network input ↔ ∃ i, PasswordInput.parse input = .ok i ∧
      i.password ≠ (network.behaviour host).password := by
  have hlogin (password : String) : (∃ err,
      network.login ⟨host, f.portOrDefault, password⟩ = .error err) ↔
        password ≠ (network.behaviour host).password := by
    unfold Network.login
    dsimp only
    rw [answers]
    by_cases same : password = (network.behaviour host).password <;> simp [same]
  constructor
  · rintro ⟨i, host', err, hi, hhost', herr⟩
    rw [hhost] at hhost'
    cases hhost'
    exact ⟨i, hi, (hlogin _).1 ⟨err, herr⟩⟩
  · rintro ⟨i, hi, hne⟩
    obtain ⟨err, herr⟩ := (hlogin _).2 hne
    exact ⟨i, host, err, hi, hhost, herr⟩

/-- The hub after a node has refused the login of a flow. -/
def Hub.refuse (h : Hub) (id : Uuid) (f : Flow) (t : Target) : Hub :=
  let (f, form) := Flow.showAuthenticate { f with password := some t.password } (some .invalidAuth)
  { (h.login t).2 with flows := (h.flows.setBusy id true).register id f form }

namespace Job

theorem runUntil_refused {h : Hub} {id : Uuid} {f : Flow} {last : Flow.Result} {input : Json}
    {i : Flow.PasswordInput} {host : String} {err : ContactError}
    (hp : h.flows.flows.get? id = some ⟨f, last, false⟩) (waits : f.step = .authenticate)
    (hi : Flow.PasswordInput.parse input = .ok i) (hhost : f.host = some host)
    (herr : h.network.login ⟨host, f.portOrDefault, i.password⟩ = .error err) :
    (Hub.configureJob id input).runUntil (fun _ => false) (Hub.configureJob id input).rank h =
      (⟨id, none, .done (.ok ⟨id, .form (.authenticate f.name (some .invalidAuth)), none⟩)⟩,
        h.refuse id f ⟨host, f.portOrDefault, i.password⟩) := by
  let t : Target := ⟨host, f.portOrDefault, i.password⟩
  let tried : Flow := { f with password := some i.password }
  let busy : Hub := { h with flows := h.flows.setBusy id true }
  have htry : f.submit input = .login tried t := by
    obtain ⟨source, step, host, port, password, name, uniqueId⟩ := f
    subst waits hhost
    simp only [Flow.submit, hi]
    rfl
  have begins : (Hub.configureJob id input).step h = (⟨id, none, .run (.login tried t)⟩, busy) := by
    simp only [Hub.configureJob, step, hp, htry]
    rfl
  have asks : (⟨id, none, .run (.login tried t)⟩ : Job).step busy =
      (⟨id, none, .run (.loggedIn tried (.error err))⟩, (busy.login t).2) := by
    simp only [step, Flow.Phase.step, Hub.login]
    rw [show busy.network.login t = .error err from herr]
    rfl
  rw [show (Hub.configureJob id input).rank = 11 + 1 from rfl, runUntil_succ, begins, runUntil_succ,
    asks]
  -- the answer is known now, so the rest computes
  rfl

end Job

namespace Session

variable {s : Session} {f : Uuid} {g : Flow} {input : Json}

/-- The flow waits on the password form, and no step of it runs. -/
def Waits (s : Session) (f : Uuid) (g : Flow) : Prop :=
  g.step = .authenticate ∧ ∃ last, s.registered f = some ⟨g, last, false⟩

/-- What a refused password does: the node was called, and the flow shows its form again. -/
theorem submit_refused (waits : s.Waits f g) (refused : g.Refused s.hub.network input) :
    (∃ t, (s.submit f input).hub = s.hub.refuse f g t) ∧
      (s.submit f input).jobs = s.jobs ++
        [⟨f, none, .done (.ok ⟨f, .form (.authenticate g.name (some .invalidAuth)), none⟩)⟩] := by
  obtain ⟨hstep, last, hp⟩ := waits
  obtain ⟨i, host, err, hi, hhost, herr⟩ := refused
  obtain ⟨hub, jobs⟩ := s.submit_eq f input
  rw [Job.runUntil_refused hp hstep hi hhost herr] at hub jobs
  exact ⟨⟨_, hub⟩, jobs⟩

/-- The flow waits again. -/
theorem Waits.submit (waits : s.Waits f g) (refused : g.Refused s.hub.network input) :
    (s.submit f input).hub.network = s.hub.network ∧
      ∃ g', (s.submit f input).Waits f g' ∧ g.masked = g'.masked := by
  obtain ⟨⟨t, hub⟩, -⟩ := submit_refused waits refused
  unfold Waits registered
  rw [hub]
  refine ⟨rfl, { g with password := some t.password, step := .authenticate },
    ⟨rfl, _, (FlowTable.get?_register ..).trans (if_pos rfl)⟩, ?_⟩
  rw [g.masked_of_authenticate waits.1, Flow.masked_of_authenticate rfl, ← waits.1]

end Session

/-! ### Twins -/

theorem Hub.Twin.refuse {before before' : List Contact} {h h' : Hub}
    (ht : h.Twin before before' h') (id : Uuid) {f f' : Flow} (waits : f.step = .authenticate)
    (hmasked : f.masked = f'.masked) (t t' : Target) :
    (h.refuse id f t).Twin (h.refuse id f t).contacts (h'.refuse id f' t').contacts
      (h'.refuse id f' t') := by
  have shown {h : Hub} {f : Flow} (waits : f.step = .authenticate) (t : Target) :
      (h.refuse id f t).flows.masked = (h.flows.masked.setBusy id true).register id f.masked
        (.form (.authenticate f.masked.name (some .invalidAuth))) := by
    obtain ⟨source, step, host, port, password, name, uniqueId⟩ := f
    subst waits
    rw [← FlowTable.masked_setBusy]
    exact FlowTable.masked_register ..
  have waits' : f'.step = .authenticate := by rw [← f'.masked_step, ← hmasked, f.masked_step, waits]
  exact { ht with
    flows := (shown waits t).trans (by rw [ht.flows, hmasked, shown waits'])
    contacts := ⟨[], (List.append_nil _).symm, (List.append_nil _).symm⟩ }

namespace Session

variable {s s' : Session} {f : Uuid} {g : Flow}

theorem Twin.waits {before before' : List Contact} (ht : s.Twin before before' s')
    (waits : s.Waits f g) : ∃ g', s'.Waits f g' ∧ g.masked = g'.masked := by
  obtain ⟨hstep, last, hp⟩ := waits
  obtain ⟨hnone, -⟩ | ⟨p, p', hsome, hp', hflow, -, hbusy⟩ := ht.hub.registered f
  · cases hnone.symm.trans hp
  · cases hsome.symm.trans hp
    obtain ⟨g', last', busy⟩ := p'
    cases hbusy
    refine ⟨g', ⟨?_, last', hp'⟩, hflow⟩
    rw [← g'.masked_step, ← hflow, g.masked_step, hstep]

theorem Twin.submit {input input' : Json} {before before' : List Contact}
    (ht : s.Twin before before' s') (waits : s.Waits f g)
    (refused : g.Refused s.hub.network input) (refused' : g.Refused s.hub.network input') :
    (s.submit f input).Twin (s.submit f input).hub.contacts (s'.submit f input').hub.contacts
      (s'.submit f input') := by
  obtain ⟨g', waits', hmasked⟩ := ht.waits waits
  have hname : g.name = g'.name := by rw [← g.masked_name, hmasked, g'.masked_name]
  obtain ⟨⟨t, hub⟩, jobs⟩ := submit_refused waits refused
  obtain ⟨⟨t', hub'⟩, jobs'⟩ :=
    submit_refused waits' (ht.hub.network ▸ refused'.of_masked hmasked)
  constructor
  · rw [hub, hub']
    exact ht.hub.refuse f waits.1 hmasked t t'
  · rw [jobs, jobs', ht.jobs, hname]

theorem Twin.submitAll (ht : s.Twin s.hub.contacts s'.hub.contacts s') (waits : s.Waits f g)
    {inputs inputs' : List Json} (length : inputs.length = inputs'.length)
    (refused : ∀ input ∈ inputs, g.Refused s.hub.network input)
    (refused' : ∀ input ∈ inputs', g.Refused s.hub.network input) :
    (s.submitAll f inputs).Twin (s.submitAll f inputs).hub.contacts
      (s'.submitAll f inputs').hub.contacts (s'.submitAll f inputs') := by
  -- after each pair of inputs the flow waits again, and the sessions are twins
  induction inputs generalizing s s' g inputs' with
  | nil =>
    cases List.length_eq_zero_iff.1 length.symm
    exact ht
  | cons input inputs ih =>
    cases inputs' with
    | nil => cases length
    | cons input' inputs' =>
      obtain ⟨first, rest⟩ := List.forall_mem_cons.1 refused
      obtain ⟨first', rest'⟩ := List.forall_mem_cons.1 refused'
      obtain ⟨network, g₁, waits₁, hmasked⟩ := waits.submit first
      rw [submitAll_cons, submitAll_cons]
      refine ih (ht.submit waits first first') waits₁ (Nat.succ.inj length) ?_ ?_
      · rw [network]
        exact fun input hinput => (rest input hinput).of_masked hmasked
      · rw [network]
        exact fun input hinput => (rest' input hinput).of_masked hmasked

/-- Two equally long rows of refused passwords come to the same: whatever is asked afterwards, all
calls stand alike and have the same answers, the same is stored and published, and the nodes are
called alike. Lists of flows are the same where both sides keep flows in one order, as `FlowTable`
does. -/
theorem refused_passwords_leave_no_trace (waits : s.Waits f g) (inputs inputs' : List Json)
    (length : inputs.length = inputs'.length)
    (refused : ∀ input ∈ inputs ++ inputs', g.Refused s.hub.network input)
    {as : List Action} (blind : ∀ a ∈ as, a.Blind) :
    let t := s.submitAll f inputs
    let t' := s.submitAll f inputs'
    (t.run as).jobs = (t'.run as).jobs ∧ t.glances as = t'.glances as ∧
      (t.run as).hub.repository = (t'.run as).hub.repository ∧
      (t.run as).hub.publisher = (t'.run as).hub.publisher ∧
      ∃ later, (t.run as).hub.contacts = t.hub.contacts ++ later ∧
        (t'.run as).hub.contacts = t'.hub.contacts ++ later := by
  intro t t'
  obtain ⟨left, right⟩ := List.forall_mem_append.1 refused
  have tried : t.Twin t.hub.contacts t'.hub.contacts t' :=
    (Twin.refl s).submitAll waits length left right
  have after := tried.run blind
  exact ⟨after.jobs, tried.glances blind, after.hub.repository, after.hub.publisher,
    after.hub.contacts⟩

/-- One of two wrong passwords, then the right one, which creates the entry once the storage works
again. -/
theorem refused_passwords_leave_no_trace_locked :
    let s := (start (Hub.unused lockedNode)).run
      (submitting "10.0.0.1" ++ .replicate 4 (.advance 1))
    let storage (create : Option String) : Action :=
      .elsewhere fun h => { h with repository := { h.repository with faults := { create } } }
    let password (text : String) : Json := .record [("password", .str text)]
    let login (call : Nat) : List Action :=
      .configure (.generated 0) (password "pw") :: .replicate 8 (.advance call)
    let as := storage (some "disk full") :: (login 3 ++ .get (.generated 0) :: .list ::
      storage none :: login 4)
    let t := s.submitAll (.generated 0) [password "a"]
    let t' := s.submitAll (.generated 0) [password "b"]
    (t.run as).jobs = (t'.run as).jobs ∧ t.glances as = t'.glances as ∧
      (t.run as).hub.repository = (t'.run as).hub.repository ∧
      (t.run as).hub.repository.rows.length = 1 := by
  intro s storage password login as t t'
  let g : Flow :=
    ⟨.user, .authenticate, some "10.0.0.1", some 6053, none, some "desk", some "desk"⟩
  have waits : s.Waits (.generated 0) g :=
    ⟨rfl, .form (.authenticate (some "desk") none), by decide +kernel⟩
  have refused (text : String) (hne : text ≠ "pw") : g.Refused s.hub.network (password text) := by
    rw [show s.hub.network = lockedNode by decide +kernel]
    exact (Flow.refused_iff rfl rfl _).2 ⟨⟨text⟩, rfl, hne⟩
  have answered (call : Nat) : ∀ a ∈ login call, a.Blind := by
    intro a ha
    rcases List.mem_cons.1 ha with rfl | ha
    · trivial
    · rw [List.eq_of_mem_replicate ha]
      trivial
  have blind : ∀ a ∈ as, a.Blind := by
    simp only [as, List.forall_mem_cons, List.forall_mem_append]
    exact ⟨fun _ _ _ => rfl, answered 3, trivial, trivial, fun _ _ _ => rfl, answered 4⟩
  obtain ⟨jobs, glances, repository, -⟩ := refused_passwords_leave_no_trace waits [password "a"]
    [password "b"] rfl (List.forall_mem_cons.2 ⟨refused "a" (by decide),
      List.forall_mem_singleton.2 (refused "b" (by decide))⟩) blind
  exact ⟨jobs, glances, repository, by decide +kernel⟩

end Session

end HomeHub
