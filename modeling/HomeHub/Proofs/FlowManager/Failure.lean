import HomeHub.Proofs.Entry.Rows
import HomeHub.Proofs.FlowManager.Step

/-!
# Calls that fail

A call that starts a flow or submits a form talks to a node and to the entry store several times
before it may fail. All that it has changed until then is one mark in the table of flows: its flow
is busy, or the name of its node is claimed. `Job.Tentative` says so of every stage from which a call
may still fail, and `Job.unchanged_of_error` that a call which fails has taken its mark back.
-/

namespace HomeHub

/-- What may change around a call at any time: how nodes answer, and what fails in storage. -/
structure Conditions where
  network : Network
  faults : StorageFaults

namespace Hub

def conditions (h : Hub) : Conditions := ⟨h.network, h.repository.faults⟩

def under (h : Hub) (c : Conditions) : Hub :=
  { h with network := c.network, repository := { h.repository with faults := c.faults } }

/-- Flows, entries, states, what is known of nodes, and the events are the same. Identifiers may have
been drawn and nodes called. -/
structure Unchanged (before after : Hub) : Prop where
  flows : after.flows = before.flows
  rows : after.repository.rows = before.repository.rows
  states : after.states = before.states
  loaded : after.loaded = before.loaded
  publisher : after.publisher = before.publisher

variable {h h' h'' : Hub}

theorem Unchanged.refl (h : Hub) : h.Unchanged h := ⟨rfl, rfl, rfl, rfl, rfl⟩

theorem Unchanged.trans (hu : h.Unchanged h') (hu' : h'.Unchanged h'') : h.Unchanged h'' where
  flows := hu'.flows.trans hu.flows
  rows := hu'.rows.trans hu.rows
  states := hu'.states.trans hu.states
  loaded := hu'.loaded.trans hu.loaded
  publisher := hu'.publisher.trans hu.publisher

theorem unchanged_under (h : Hub) (c : Conditions) : h.Unchanged (h.under c) :=
  ⟨rfl, rfl, rfl, rfl, rfl⟩

theorem under_conditions (h : Hub) : h.under h.conditions = h := rfl

/-- An unchanged hub is the very same once identifiers, clock, calls and conditions are. -/
theorem Unchanged.under_eq (hu : h.Unchanged h') (c : Conditions) :
    { h' with supply := h.supply, contacts := h.contacts }.under c = h.under c := by
  obtain ⟨supply, publisher, states, ⟨rows, faults⟩, loaded, network, contacts, flows⟩ := h'
  obtain ⟨rfl, rfl, rfl, rfl, rfl⟩ := hu
  rfl

theorem unchanged_updateEntry {e : Entry} {err : HubError}
    (failed : (h.updateEntry e).1 = .error err) : h.Unchanged (h.updateEntry e).2 where
  flows := rfl
  rows := congrArg Repository.rows (Repository.updateEntry_of_error failed)
  states := rfl
  loaded := rfl
  publisher := rfl

theorem unchanged_createEntry {e : Entry} {err : HubError} (alone : h.repository.faults.rival = false)
    (failed : (h.createEntry e).1 = .error err) : h.Unchanged (h.createEntry e).2 where
  flows := rfl
  rows := congrArg (fun p => p.1.rows) (Repository.createEntry_of_error alone failed)
  states := rfl
  loaded := rfl
  publisher := rfl

end Hub

/-! ### Marks -/

namespace FlowTable

variable {t : FlowTable}

/-- Marking an idle flow and taking the mark back leaves the table as it was. -/
theorem setBusy_setBusy {id : Uuid} {p : InProgress} (hp : t.flows.get? id = some p)
    (idle : p.busy = false) : (t.setBusy id true).setBusy id false = t := by
  have same : ((t.setBusy id true).setBusy id false).flows = t.flows := by
    refine Table.eq_of_get? fun f => ?_
    rw [get?_setBusy]
    split
    · next hf =>
      subst hf
      rw [get?_setBusy, if_pos rfl, hp, ← idle]
      rfl
    · next hf => rw [get?_setBusy, if_neg hf]
  exact congrArg (fun flows => { t with flows }) same

theorem unclaim_claim {name : String} (free : name ∉ t.claimed) :
    (t.claim name).unclaim name = t := by
  have same : (name :: t.claimed).filter (· != name) = t.claimed := by
    rw [List.filter_cons_of_neg (by simp)]
    refine List.filter_eq_self.2 fun other hmem => bne_iff_ne.2 ?_
    rintro rfl
    exact free hmem
  exact congrArg (fun claimed => { t with claimed }) same

theorem not_mem_claimed {name : String} (free : t.inProgress name = false) : name ∉ t.claimed := by
  intro hmem
  simp [inProgress, hmem] at free

end FlowTable

namespace Flow.Phase

/-- A phase of the first step for an announced node: no such step ends in an entry. -/
def Discovers : Phase → Prop
  | .findMatch _ (.announced _) | .update _ _ | .listKnown _ _ => True
  | .done _ r => ∀ n, r ≠ .ok (.createEntry n)
  | _ => False

theorem discovers_step {p : Phase} (hp : p.Discovers) (h : Hub) : (p.step h).1.Discovers := by
  cases p with
  | findMatch f g =>
    cases g with
    | described info => cases hp
    | announced a =>
      simp only [step]
      split
      · rintro n ⟨⟩
      · next e _ =>
        cases e with
        | none => trivial
        | some e =>
          simp only [afterMatch]
          split
          · rintro n ⟨⟩
          · trivial
  | update f e =>
    simp only [step]
    split <;> rintro n ⟨⟩
  | listKnown f a =>
    simp only [step]
    split
    · rintro n ⟨⟩
    · simp only [afterKnown]
      split
      · rintro n ⟨⟩
      · split
        · rintro n ⟨⟩
        · trivial
  | done f r => exact hp
  | _ => cases hp

/-- A step changes an entry only to end with that. -/
theorem unchanged_step (p : Phase) (h : Hub) :
    h.Unchanged (p.step h).2 ∨ ∃ f, (p.step h).1 = .alreadyConfigured f := by
  cases p with
  | findMatch f g =>
    simp only [step]
    split <;> exact .inl (.refl h)
  | update f e =>
    simp only [step]
    split
    · next heq =>
      have := Hub.unchanged_updateEntry (congrArg Prod.fst heq)
      rw [heq] at this
      exact .inl this
    · exact .inr ⟨f, rfl⟩
  | listKnown f a =>
    simp only [step]
    split <;> exact .inl (.refl h)
  | _ => exact .inl ⟨rfl, rfl, rfl, rfl, rfl⟩

theorem conditions_step (p : Phase) (h : Hub) : (p.step h).2.conditions = h.conditions := by
  cases p with
  | findMatch f g => simp only [step]; split <;> rfl
  | update f e =>
    rw [hub_step_update]
    exact congrArg (Conditions.mk h.network) (Repository.updateEntry_faults e)
  | listKnown f a => simp only [step]; split <;> rfl
  | _ => rfl

end Flow.Phase

namespace Job

/-- What the call has made of the table of flows. -/
def Marks (j : Job) (before after : FlowTable) : Prop :=
  match j.claimed with
  | some name => name ∉ before.claimed ∧ after = before.claim name
  | none => ∃ p, before.flows.get? j.flowId = some p ∧ p.busy = false ∧
      after = before.setBusy j.flowId true

/-- The call has set its mark and changed nothing else. -/
def Attempts (j : Job) (before after : Hub) : Prop :=
  j.Marks before.flows after.flows ∧ { before with flows := after.flows }.Unchanged after

/-- As long as a call may fail, it has changed nothing but its mark. -/
def Tentative (j : Job) (before after : Hub) : Prop :=
  match j.stage with
  | .claim _ | .begin _ => j.claimed = none ∧ before.Unchanged after
  | .run p => j.Attempts before after ∧ (j.claimed.isSome = true → p.Discovers)
  | .check _ | .store _ _ | .recheck _ _ | .release _ => j.Attempts before after ∧ j.claimed = none
  | .unclaim (.error _) => j.Attempts before after ∧ j.claimed.isSome = true
  | .done (.error _) => before.Unchanged after
  | _ => True

variable {j : Job} {before h h' : Hub}

theorem Attempts.of_unchanged (ha : j.Attempts before h) (hu : h.Unchanged h') :
    j.Attempts before h' := by
  refine ⟨hu.flows ▸ ha.1, ?_⟩
  obtain ⟨-, hr⟩ := ha
  exact ⟨rfl, hu.rows.trans hr.rows, hu.states.trans hr.states, hu.loaded.trans hr.loaded,
    hu.publisher.trans hr.publisher⟩

theorem Tentative.of_unchanged (ht : j.Tentative before h) (hu : h.Unchanged h') :
    j.Tentative before h' := by
  unfold Tentative at ht ⊢
  split at ht
  · exact ⟨ht.1, ht.2.trans hu⟩
  · exact ⟨ht.1, ht.2.trans hu⟩
  · exact ⟨ht.1.of_unchanged hu, ht.2⟩
  · exact ⟨ht.1.of_unchanged hu, ht.2⟩
  · exact ⟨ht.1.of_unchanged hu, ht.2⟩
  · exact ⟨ht.1.of_unchanged hu, ht.2⟩
  · exact ⟨ht.1.of_unchanged hu, ht.2⟩
  · exact ⟨ht.1.of_unchanged hu, ht.2⟩
  · exact ht.trans hu
  · trivial

theorem tentative_close_ok (r : FlowResponse) : (j.close (.ok r)).Tentative before h := by
  unfold close
  split <;> trivial

theorem tentative_advance {p : Flow.Phase} (ha : j.Attempts before h)
    (hp : j.claimed.isSome = true → p.Discovers) : (j.advance p).Tentative before h := by
  unfold advance
  split
  · next f r =>
    unfold settle
    split
    · trivial
    · next n =>
      refine ⟨ha, Option.not_isSome_iff_eq_none.1 fun hc => ?_⟩
      exact hp hc n rfl
    · trivial
    · split
      · next hc =>
        unfold close
        split
        · exact ⟨ha, hc⟩
        · next hnone => rw [hnone] at hc; cases hc
      · next hc => exact ⟨ha, Option.not_isSome_iff_eq_none.1 hc⟩
  · exact ⟨ha, hp⟩

theorem tentative_step (ht : j.Tentative before h) (alone : h.repository.faults.rival = false) :
    (j.step h).1.Tentative before (j.step h).2 := by
  obtain ⟨id, claimed, stage⟩ := j
  cases stage with
  | claim a =>
    obtain ⟨-, hu⟩ := ht
    simp only [step]
    split
    · trivial
    · next free =>
      have marked : (⟨id, some a.nodeName, .claim a⟩ : Job).Marks before.flows
          (h.flows.claim a.nodeName) := by
        rw [← hu.flows]
        exact ⟨FlowTable.not_mem_claimed (by simpa using free), rfl⟩
      have attempts : (⟨id, some a.nodeName, .claim a⟩ : Job).Attempts before
          { h with flows := h.flows.claim a.nodeName } :=
        ⟨marked, rfl, hu.rows, hu.states, hu.loaded, hu.publisher⟩
      have discovers : (Flow.startZeroconf { source := .zeroconf } a).Discovers := trivial
      exact tentative_advance attempts fun _ => discovers
  | begin input =>
    obtain ⟨hc, hu⟩ := ht
    have hc : claimed = none := hc
    subst hc
    simp only [step]
    split
    · exact hu
    · next p hp =>
      split
      · exact hu
      · next idle =>
        have marked : (⟨id, none, .begin input⟩ : Job).Marks before.flows (h.flows.setBusy id true) := by
          rw [← hu.flows]
          exact ⟨p, hp, by simpa using idle, rfl⟩
        have attempts : (⟨id, none, .begin input⟩ : Job).Attempts before
            { h with flows := h.flows.setBusy id true } :=
          ⟨marked, rfl, hu.rows, hu.states, hu.loaded, hu.publisher⟩
        exact tentative_advance attempts fun claimed => by cases claimed
  | run p =>
    obtain ⟨ha, hp⟩ := ht
    rcases p.unchanged_step h with hu | ⟨f, heq⟩
    · exact tentative_advance (ha.of_unchanged hu) fun hc => Flow.Phase.discovers_step (hp hc) h
    · simp only [step, heq]
      trivial
  | register f form => exact tentative_close_ok _
  | check n =>
    obtain ⟨ha, hc⟩ := ht
    simp only [step]
    split
    · exact ⟨ha, hc⟩
    · trivial
    · have drawn : h.Unchanged h.draw.2 := ⟨rfl, rfl, rfl, rfl, rfl⟩
      split <;> exact ⟨ha.of_unchanged drawn, hc⟩
  | store n e =>
    obtain ⟨ha, hc⟩ := ht
    simp only [step]
    split
    · trivial
    · next heq =>
      have hu := Hub.unchanged_createEntry alone (congrArg Prod.fst heq)
      rw [heq] at hu
      exact ⟨ha.of_unchanged hu, hc⟩
  | recheck n err =>
    obtain ⟨ha, hc⟩ := ht
    simp only [step]
    split
    · exact ⟨ha, hc⟩
    · trivial
    · exact ⟨ha, hc⟩
  | announce n e => trivial
  | finish result entry => exact tentative_close_ok _
  | release err =>
    obtain ⟨⟨hmark, hr⟩, hc⟩ := ht
    have hc : claimed = none := hc
    subst hc
    obtain ⟨p, hp, idle, hflows⟩ := hmark
    refine ⟨?_, hr.rows, hr.states, hr.loaded, hr.publisher⟩
    show h.flows.setBusy id false = before.flows
    rw [hflows]
    exact FlowTable.setBusy_setBusy hp idle
  | unclaim r =>
    cases r with
    | ok r => trivial
    | error err =>
      obtain ⟨⟨hmark, hr⟩, hc⟩ := ht
      obtain ⟨name, hc⟩ := Option.isSome_iff_exists.1 hc
      have hc : claimed = some name := hc
      subst hc
      obtain ⟨free, hflows⟩ := hmark
      refine ⟨?_, hr.rows, hr.states, hr.loaded, hr.publisher⟩
      show h.flows.unclaim name = before.flows
      rw [hflows]
      exact FlowTable.unclaim_claim free
  | done r => exact ht

/-! ### Whole calls -/

/-- Does at most so many steps, the next one under the conditions of the number of those that are
left then. -/
def runAmid (c : Nat → Conditions) : Nat → Job → Hub → Job × Hub
  | 0, j, h => (j, h)
  | left + 1, j, h =>
    if j.answer?.isSome then (j, h) else
    let (j, h) := j.step (h.under (c left))
    runAmid c left j h

theorem answer?_of_rank (hj : j.rank = 0) : j.answer?.isSome = true := by
  obtain ⟨id, claimed, stage⟩ := j
  cases stage with
  | done r => rfl
  | _ => simp [rank, Stage.rank] at hj

/-- Every call gets to its end. -/
theorem answer?_runAmid (c : Nat → Conditions) {left : Nat} (hj : j.rank ≤ left) (h : Hub) :
    (j.runAmid c left h).1.answer?.isSome = true := by
  induction left generalizing j h with
  | zero => exact answer?_of_rank (Nat.le_zero.1 hj)
  | succ left ih =>
    unfold runAmid
    split
    · assumption
    · next running =>
      refine ih ?_ _
      have : 0 < j.rank := Nat.pos_of_ne_zero fun hzero => running (answer?_of_rank hzero)
      exact Nat.le_of_lt_succ (Nat.lt_of_lt_of_le (j.rank_step_lt _ this) hj)

theorem tentative_runAmid {c : Nat → Conditions} (alone : ∀ k, (c k).faults.rival = false)
    (left : Nat) (ht : j.Tentative before h) :
    (j.runAmid c left h).1.Tentative before (j.runAmid c left h).2 := by
  induction left generalizing j h with
  | zero => exact ht
  | succ left ih =>
    unfold runAmid
    split
    · exact ht
    · exact ih (tentative_step (ht.of_unchanged (h.unchanged_under _)) (alone left))

/-- A call that fails leaves everything as it was. -/
theorem unchanged_of_error {c : Nat → Conditions} (alone : ∀ k, (c k).faults.rival = false)
    {left : Nat} (ht : j.Tentative before h) {err : HubError}
    (failed : (j.runAmid c left h).1.answer? = some (.error err)) :
    before.Unchanged (j.runAmid c left h).2 := by
  have hend := tentative_runAmid alone left ht
  unfold answer? at failed
  split at failed
  · next hst =>
    cases failed
    rw [Tentative, hst] at hend
    exact hend
  · cases failed

/-! ### Conditions that stay -/

theorem conditions_step (j : Job) (h : Hub) : (j.step h).2.conditions = h.conditions := by
  obtain ⟨id, claimed, stage⟩ := j
  cases stage with
  | claim a => simp only [step]; split <;> rfl
  | begin input =>
    simp only [step]
    split
    · rfl
    · split <;> rfl
  | run p => exact p.conditions_step h
  | check n =>
    simp only [step]
    split
    · rfl
    · rfl
    · split <;> rfl
  | store n e =>
    rw [hub_step_store]
    exact congrArg (Conditions.mk h.network) (Repository.createEntry_faults e h.supply)
  | recheck n err => simp only [step]; split <;> rfl
  | _ => rfl

/-- If nothing changes around a call, it runs as it does on its own. -/
theorem runAmid_conditions (left : Nat) (j : Job) (h : Hub) :
    j.runAmid (fun _ => h.conditions) left h = j.runUntil (fun _ => false) left h := by
  induction left generalizing j h with
  | zero => rfl
  | succ left ih =>
    rw [runAmid, runUntil, h.under_conditions, Bool.or_false]
    split
    · rfl
    · rw [← j.conditions_step h]
      exact ih _ _

end Job

end HomeHub
