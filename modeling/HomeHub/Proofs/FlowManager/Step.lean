import HomeHub.FlowManager.Calls

/-!
# What a step of a call changes

Of the table of flows a step touches only the flow that the call is about, and `Stage.onTable` says
how. A call is working on its flow from the access to the table that lets it in to the access that
ends its step; `isWorking` is that stretch. The identifiers that were drawn only grow.
-/

namespace HomeHub

/-- What the next thing that a call does makes of the registration of its flow. -/
def Stage.onTable : Stage → Option InProgress → Option InProgress
  | .begin _, r => r.map fun p => { p with busy := true }
  | .register f form, _ => some ⟨f, form, false⟩
  | .finish _ _, _ => none
  | .release _, r => r.map fun p => { p with busy := false }
  | _, r => r

/-- A flow that is gone comes back only with a form. -/
theorem Stage.onTable_none (s : Stage) (h : ∀ f form, s ≠ .register f form) :
    s.onTable none = none := by
  cases s with
  | register f form => exact absurd rfl (h f form)
  | _ => rfl

/-- Only with a form another flow gets registered. -/
theorem Stage.flow_of_onTable (s : Stage) (h : ∀ f form, s ≠ .register f form)
    {r : Option InProgress} {p : InProgress} (hp : s.onTable r = some p) :
    ∃ q, r = some q ∧ p.flow = q.flow := by
  cases s with
  | register f form => exact absurd rfl (h f form)
  | begin input =>
    obtain ⟨q, hq, rfl⟩ := Option.map_eq_some_iff.1 hp
    exact ⟨q, hq, rfl⟩
  | release err =>
    obtain ⟨q, hq, rfl⟩ := Option.map_eq_some_iff.1 hp
    exact ⟨q, hq, rfl⟩
  | finish result entry => cases hp
  | _ => exact ⟨p, hp, rfl⟩

/-- Whether a call at this stage is in the middle of a step of its flow. -/
def Stage.isWorking : Stage → Bool
  | .begin _ | .unclaim _ | .done _ => false
  | _ => true

/-- The call is in the middle of a step of this flow. -/
def Job.WorksOn (j : Job) (f : Uuid) : Prop := j.flowId = f ∧ j.stage.isWorking = true

instance (j : Job) (f : Uuid) : Decidable (j.WorksOn f) := inferInstanceAs (Decidable (_ ∧ _))

/-! ### The parts of the hub that stay -/

namespace Hub

variable (h : Hub)

theorem publish_flows (t : EventType) (id : Option String) (data : Json) :
    (h.publish t id data).2.flows = h.flows := rfl

theorem createEntry_flows (e : Entry) : (h.createEntry e).2.flows = h.flows := rfl

theorem updateEntry_flows (e : Entry) : (h.updateEntry e).2.flows = h.flows := rfl

theorem drawn_le_createEntry (e : Entry) :
    h.supply.drawn ≤ (h.createEntry e).2.supply.drawn := by
  simp only [createEntry, Repository.createEntry]
  split
  · exact Nat.le_refl _
  · have hr : h.supply.drawn ≤ (h.repository.afterRival e h.supply).2.drawn := by
      simp only [Repository.afterRival]
      split
      · exact Nat.le_succ _
      · exact Nat.le_refl _
    simp only [Repository.create]
    split
    · next heq => rw [heq] at hr; exact hr
    · next heq =>
      rw [heq] at hr
      split
      · exact hr
      · split <;> exact hr

/-- An entry is stored as it is given. -/
theorem createEntry_eq_of_ok {h : Hub} {e e' : Entry} (heq : (h.createEntry e).1 = .ok e') :
    e' = e := by
  simp only [createEntry, Repository.createEntry] at heq
  split at heq
  · cases heq
  · simp only [Repository.create] at heq
    split at heq
    · cases heq
    · split at heq
      · cases heq
      · split at heq
        · cases heq
        · cases heq; rfl

end Hub

/-- The entry says what the new one does. -/
structure Flow.NewEntry.Builds (n : Flow.NewEntry) (e : Entry) : Prop where
  domain : e.domain = nativeApiDomain
  title : e.title = n.title
  uniqueId : e.uniqueId = n.uniqueId
  data : e.data = n.data.toJson

theorem Flow.NewEntry.builds_of_build {n : Flow.NewEntry} {fresh : Uuid} {now : Timestamp}
    {e : Entry} (h : n.build fresh now = .ok e) :
    n.Builds e ∧ e.id = fresh ∧ e.validate = .ok () := by
  simp only [build, Entry.Draft.build, bind, Except.bind, pure, Except.pure] at h
  split at h
  · cases h
  · next hvalid =>
    cases h
    exact ⟨⟨rfl, rfl, rfl, rfl⟩, rfl, hvalid⟩

namespace Flow.Phase

theorem hub_step_update (f : Flow) (e : Entry) (h : Hub) :
    ((Phase.update f e).step h).2 = (h.updateEntry e).2 := by
  simp only [step]
  split
  · next heq => rw [heq]
  · next heq => rw [heq]

theorem step_flows (p : Phase) (h : Hub) : (p.step h).2.flows = h.flows := by
  cases p with
  | findMatch f g => simp only [step]; split <;> rfl
  | update f e => rw [hub_step_update, h.updateEntry_flows]
  | listKnown f a => simp only [step]; split <;> rfl
  | _ => rfl

theorem step_supply (p : Phase) (h : Hub) : (p.step h).2.supply = h.supply := by
  cases p with
  | findMatch f g => simp only [step]; split <;> rfl
  | update f e => rw [hub_step_update]; rfl
  | listKnown f a => simp only [step]; split <;> rfl
  | _ => rfl

end Flow.Phase

/-! ### The table of flows -/

namespace FlowTable

variable (t : FlowTable) (id f : Uuid)

theorem get?_register (flow : Flow) (last : Flow.Result) :
    (t.register id flow last).flows.get? f =
      if f = id then some ⟨flow, last, false⟩ else t.flows.get? f := by
  simp [register, Table.get?_insert]

theorem get?_remove :
    (t.remove id).flows.get? f = if f = id then none else t.flows.get? f := by
  simp [remove, Table.get?_erase]

theorem get?_setBusy (busy : Bool) :
    (t.setBusy id busy).flows.get? f =
      if f = id then (t.flows.get? f).map fun p => { p with busy } else t.flows.get? f := by
  simp only [setBusy, Table.modify]
  cases hid : t.flows.get? id with
  | none => by_cases h : f = id <;> simp [h, hid]
  | some p =>
    by_cases h : f = id <;>
      simp [h, hid, Table.get?_insert]

end FlowTable

namespace Job

variable (j : Job) (h : Hub)

@[simp] theorem flowId_enter (s : Stage) : (j.enter s).flowId = j.flowId := rfl

@[simp] theorem flowId_close (r : Except HubError FlowResponse) :
    (j.close r).flowId = j.flowId := by
  unfold close
  split <;> rfl

@[simp] theorem flowId_settle (f : Flow) (r : Except HubError Flow.Result) :
    (j.settle f r).flowId = j.flowId := by
  unfold settle
  split
  · rfl
  · rfl
  · rfl
  · split
    · exact flowId_close j _
    · rfl

@[simp] theorem flowId_advance (p : Flow.Phase) : (j.advance p).flowId = j.flowId := by
  unfold advance
  split
  · exact flowId_settle j _ _
  · rfl

@[simp] theorem claimed_close (r : Except HubError FlowResponse) :
    (j.close r).claimed = j.claimed := by
  unfold close
  split <;> rfl

@[simp] theorem claimed_advance (p : Flow.Phase) : (j.advance p).claimed = j.claimed := by
  unfold advance
  split
  · unfold settle
    split
    · rfl
    · rfl
    · rfl
    · split
      · exact claimed_close j _
      · rfl
  · rfl

/-- A call stays with its flow. -/
theorem flowId_step : (j.step h).1.flowId = j.flowId := by
  obtain ⟨id, claimed, stage⟩ := j
  cases stage with
  | claim a => simp only [step]; split <;> simp
  | begin input =>
    simp only [step]
    split
    · rfl
    · split <;> simp
  | run p => simp [step]
  | register f form => simp [step]
  | check n =>
    simp only [step]
    split
    · rfl
    · rfl
    · split <;> rfl
  | store n e => simp only [step]; split <;> rfl
  | recheck n err => simp only [step]; split <;> rfl
  | announce n e => rfl
  | finish result entry => simp [step]
  | release err => simp [step]
  | unclaim r => rfl
  | done r => rfl

theorem hub_step_store (id : Uuid) (claimed : Option String) (n : Flow.NewEntry) (e : Entry) :
    (step ⟨id, claimed, .store n e⟩ h).2 = (h.createEntry e).2 := by
  simp only [step]
  split
  · next heq => rw [heq]
  · next heq => rw [heq]

theorem drawn_le_step : h.supply.drawn ≤ (j.step h).2.supply.drawn := by
  obtain ⟨id, claimed, stage⟩ := j
  cases stage with
  | claim a => simp only [step]; split <;> exact Nat.le_refl _
  | begin input =>
    simp only [step]
    split
    · exact Nat.le_refl _
    · split <;> exact Nat.le_refl _
  | run p => simp only [step, Flow.Phase.step_supply]; exact Nat.le_refl _
  | check n =>
    simp only [step]
    split
    · exact Nat.le_refl _
    · exact Nat.le_refl _
    · split <;> exact Nat.le_succ _
  | store n e => rw [hub_step_store]; exact h.drawn_le_createEntry e
  | recheck n err => simp only [step]; split <;> exact Nat.le_refl _
  | announce n e => exact Nat.le_succ _
  | _ => exact Nat.le_refl _

/-- What a step makes of the table of flows. -/
theorem get?_step (f : Uuid) :
    (j.step h).2.flows.flows.get? f =
      if f = j.flowId then j.stage.onTable (h.flows.flows.get? f) else h.flows.flows.get? f := by
  obtain ⟨id, claimed, stage⟩ := j
  cases stage with
  | claim a => simp only [step]; split <;> simp [Stage.onTable, FlowTable.claim]
  | begin input =>
    simp only [step]
    split
    · next hn => by_cases hf : f = id <;> simp [Stage.onTable, hf, hn]
    · next p hp =>
      split
      · next hb =>
        by_cases hf : f = id
        · subst hf
          rw [if_pos rfl, hp]
          simp [Stage.onTable, ← hb]
        · rw [if_neg hf]
      · exact FlowTable.get?_setBusy _ _ _ _
  | run p => simp [step, Stage.onTable, Flow.Phase.step_flows]
  | register f' form => exact FlowTable.get?_register _ _ _ _ _
  | check n =>
    have hd : h.draw.2.flows = h.flows := rfl
    simp only [step]
    split
    · simp [Stage.onTable]
    · simp [Stage.onTable]
    · split <;> simp [Stage.onTable, hd]
  | store n e => rw [hub_step_store, h.createEntry_flows]; simp [Stage.onTable]
  | recheck n err => simp only [step]; split <;> simp [Stage.onTable]
  | announce n e => simp [step, Stage.onTable, Hub.publish_flows]
  | finish result entry => exact FlowTable.get?_remove _ _ _
  | release err => exact FlowTable.get?_setBusy _ _ _ _
  | unclaim r => simp [step, Stage.onTable, FlowTable.unclaim]
  | done r => simp [step, Stage.onTable]

theorem get?_step_self :
    (j.step h).2.flows.flows.get? j.flowId = j.stage.onTable (h.flows.flows.get? j.flowId) := by
  rw [get?_step, if_pos rfl]

/-! ### Who works on a flow -/

theorem isWorking_close (r : Except HubError FlowResponse) :
    (j.close r).stage.isWorking = false := by
  unfold close
  split <;> rfl

/-- A call comes to work on its flow only where it is let in: at an idle flow. -/
theorem working_of_step (hw : (j.step h).1.stage.isWorking = true) :
    j.stage.isWorking = true ∨ ∃ input p, j.stage = .begin input ∧
      h.flows.flows.get? j.flowId = some p ∧ p.busy = false := by
  obtain ⟨id, claimed, stage⟩ := j
  cases stage with
  | begin input =>
    right
    simp only [step] at hw
    split at hw
    · cases hw
    · next p hp =>
      split at hw
      · cases hw
      · next hb => exact ⟨input, p, rfl, hp, by simpa using hb⟩
  | unclaim r => cases hw
  | done r => cases hw
  | _ => exact .inl rfl

/-- A call that goes on working leaves its flow busy if it is registered, and idle only if it was
idle before. -/
theorem idle_of_step {p : InProgress} (hw : (j.step h).1.stage.isWorking = true)
    (hp : (j.step h).2.flows.flows.get? j.flowId = some p) (hb : p.busy = false) :
    j.stage.isWorking = true ∧ h.flows.flows.get? j.flowId = some p := by
  rw [get?_step_self] at hp
  obtain ⟨id, claimed, stage⟩ := j
  cases stage with
  | begin input =>
    obtain ⟨q, -, rfl⟩ := Option.map_eq_some_iff.1 hp
    cases hb
  | register f form => rw [step, isWorking_close] at hw; cases hw
  | finish result entry => rw [step, isWorking_close] at hw; cases hw
  | release err => rw [step, isWorking_close] at hw; cases hw
  | unclaim r => cases hw
  | done r => cases hw
  | _ => exact ⟨rfl, hp⟩

theorem rank_stage_le (s : Stage) : s.rank ≤ 12 := by
  cases s with
  | run p =>
    have := p.rank_le
    simp only [Stage.rank]
    omega
  | _ => simp [Stage.rank]

/-- Only a call that has done nothing yet has all its steps left. -/
theorem rank_step_lt_twelve : (j.step h).1.rank < 12 := by
  have hold : j.rank ≤ 12 := rank_stage_le j.stage
  rcases Nat.eq_zero_or_pos j.rank with hzero | hpos
  · obtain ⟨id, claimed, stage⟩ := j
    cases stage with
    | done r => exact Nat.succ_pos 11
    | _ => simp [rank, Stage.rank] at hzero
  · have := j.rank_step_lt h hpos
    omega

/-- No step leads to a call that is still to be let in. -/
theorem not_begin_of_step (input : Json) : (j.step h).1.stage ≠ .begin input := by
  intro heq
  have hnew : (j.step h).1.rank = 12 := by rw [rank, heq]; rfl
  have := j.rank_step_lt_twelve h
  omega

/-- No step leads to a call that is still to claim a name. -/
theorem not_claim_of_step (a : Announcement) : (j.step h).1.stage ≠ .claim a := by
  intro heq
  have hnew : (j.step h).1.rank = 12 := by rw [rank, heq]; rfl
  have := j.rank_step_lt_twelve h
  omega

/-- A description is asked for only at the beginning of a step. -/
theorem not_describe_of_step (working : j.stage.isWorking = true) (f : Flow) :
    (j.step h).1.stage ≠ .run (.describe f) := by
  intro heq
  have hnew : (j.step h).1.rank = 11 := by rw [rank, heq]; rfl
  have less := j.rank_step_lt h
  rw [hnew] at less
  obtain ⟨id, claimed, stage⟩ := j
  cases stage with
  | begin input => cases working
  | unclaim r => cases working
  | done r => cases working
  | claim a =>
    simp only [step] at heq
    split at heq <;> cases heq
  | run p =>
    have hp := p.rank_le
    simp only [rank, Stage.rank] at less
    omega
  | _ =>
    simp only [rank, Stage.rank] at less
    omega

end Job

end HomeHub
