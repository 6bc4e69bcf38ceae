import HomeHub.Proofs.FlowManager.Abort

/-!
# What running calls hold

While the step of a submitted form runs, its flow is marked busy. While the first step for an
announced node runs, the name of the node is claimed. `Session.marks_of_running_calls` says that
either mark stands exactly as long as such a step runs, whatever fails meanwhile, so no flow and no
node is ever locked out.
-/

namespace HomeHub

namespace Job

/-- The call has claimed the name and not given it up yet. -/
def Holds (j : Job) (name : String) : Prop := j.claimed = some name ∧ j.answer? = none

/-- A call starts without a claim, and only a claim that it has is given up. -/
def Poised (j : Job) : Prop :=
  match j.stage with
  | .claim _ | .begin _ => j.claimed = none
  | .unclaim _ => j.claimed.isSome = true
  | _ => True

section Claims

variable (j : Job) (h : Hub)

theorem poised_close (r : Except HubError FlowResponse) : (j.close r).Poised := by
  unfold close
  split
  · next hc => exact Option.isSome_iff_exists.2 ⟨_, hc⟩
  · trivial

theorem poised_advance (p : Flow.Phase) : (j.advance p).Poised := by
  unfold advance
  split
  · unfold settle
    split
    · trivial
    · trivial
    · trivial
    · split
      · exact poised_close j _
      · trivial
  · trivial

theorem poised_step : (j.step h).1.Poised := by
  obtain ⟨id, claimed, stage⟩ := j
  cases stage with
  | claim a =>
    simp only [step]
    split
    · trivial
    · exact poised_advance _ (Flow.startZeroconf { source := .zeroconf } a)
  | begin input =>
    simp only [step]
    split
    · trivial
    · split
      · trivial
      · exact poised_advance _ _
  | run p => exact poised_advance _ _
  | check n =>
    simp only [step]
    split
    · trivial
    · trivial
    · split <;> trivial
  | store n e => simp only [step]; split <;> trivial
  | recheck n err => simp only [step]; split <;> trivial
  | announce n e => trivial
  | unclaim r => trivial
  | done r => trivial
  | _ => exact poised_close _ _

variable {j h}

theorem not_holds_of_unclaimed {name : String} (hc : j.claimed = none) : ¬ j.Holds name := by
  rintro ⟨heq, -⟩
  cases hc.symm.trans heq

theorem holds_close {r : Except HubError FlowResponse} {name : String} :
    (j.close r).Holds name ↔ j.claimed = some name := by
  unfold Holds
  rw [claimed_close, and_iff_left_iff_imp]
  intro hc
  simp only [close, hc]
  rfl

theorem holds_advance {p : Flow.Phase} {name : String} :
    (j.advance p).Holds name ↔ j.claimed = some name := by
  unfold advance
  split
  · unfold settle
    split
    · exact and_iff_left rfl
    · exact and_iff_left rfl
    · exact and_iff_left rfl
    · split
      · exact holds_close
      · exact and_iff_left rfl
  · exact and_iff_left rfl

/-- What a step does to the claimed names: it claims one, gives one up, or leaves all as they are.
-/
theorem claim_cases (hj : j.Poised) :
    (∃ a, j.stage = .claim a ∧ h.flows.inProgress a.nodeName = false ∧
      (∀ name, (j.step h).1.Holds name ↔ name = a.nodeName) ∧
      (j.step h).2.flows.claimed = a.nodeName :: h.flows.claimed) ∨
    (∃ r name, j.stage = .unclaim r ∧ j.claimed = some name ∧ (∀ other, ¬ (j.step h).1.Holds other) ∧
      (j.step h).2.flows.claimed = h.flows.claimed.filter (· != name)) ∨
    (∀ name, (j.step h).1.Holds name ↔ j.Holds name) ∧
      (j.step h).2.flows.claimed = h.flows.claimed := by
  obtain ⟨id, claimed, stage⟩ := j
  -- a stage that is not over holds what it has claimed
  have opened (s : Stage) (hs : ∀ r, s ≠ .done r) (name : String) :
      claimed = some name ↔ (⟨id, claimed, s⟩ : Job).Holds name := by
    refine (and_iff_left ?_).symm
    unfold answer?
    split
    · next r heq => exact absurd heq (hs r)
    · rfl
  have unheld (s s' : Stage) (name : String) :
      (⟨id, none, s⟩ : Job).Holds name ↔ (⟨id, none, s'⟩ : Job).Holds name :=
    iff_of_false (not_holds_of_unclaimed rfl) (not_holds_of_unclaimed rfl)
  cases stage with
  | claim a =>
    have hc : claimed = none := hj
    subst hc
    simp only [step]
    split
    · exact .inr (.inr ⟨fun name => unheld _ _ name, rfl⟩)
    · next hfree =>
      refine .inl ⟨a, rfl, by simpa using hfree, fun name => ?_, rfl⟩
      rw [holds_advance]
      exact ⟨fun heq => (Option.some.inj heq).symm, congrArg some ∘ Eq.symm⟩
  | begin input =>
    have hc : claimed = none := hj
    subst hc
    simp only [step]
    split
    · exact .inr (.inr ⟨fun name => unheld _ _ name, rfl⟩)
    · split
      · exact .inr (.inr ⟨fun name => unheld _ _ name, rfl⟩)
      · refine .inr (.inr ⟨fun name => ?_, rfl⟩)
        rw [holds_advance]
        exact opened _ (fun r => Stage.noConfusion) name
  | run p =>
    refine .inr (.inr ⟨fun name => ?_, congrArg FlowTable.claimed (p.step_flows h)⟩)
    exact holds_advance.trans (opened _ (fun r => Stage.noConfusion) name)
  | check n =>
    simp only [step]
    split
    · exact .inr (.inr ⟨fun name => Iff.rfl, rfl⟩)
    · exact .inr (.inr ⟨fun name => Iff.rfl, rfl⟩)
    · split <;> exact .inr (.inr ⟨fun name => Iff.rfl, rfl⟩)
  | store n e =>
    refine .inr (.inr ⟨fun name => ?_, ?_⟩)
    · simp only [step]
      split <;> exact Iff.rfl
    · rw [hub_step_store, h.createEntry_flows]
  | recheck n err =>
    simp only [step]
    split <;> exact .inr (.inr ⟨fun name => Iff.rfl, rfl⟩)
  | announce n e => exact .inr (.inr ⟨fun name => Iff.rfl, rfl⟩)
  | unclaim r =>
    obtain ⟨name, hc⟩ := Option.isSome_iff_exists.1 hj
    have hc : claimed = some name := hc
    subst hc
    exact .inr (.inl ⟨r, name, rfl, rfl, fun other ho => (by cases ho.2), rfl⟩)
  | done r => exact .inr (.inr ⟨fun name => Iff.rfl, rfl⟩)
  | _ => exact .inr (.inr ⟨fun name => holds_close.trans (opened _ (fun r => Stage.noConfusion) name), rfl⟩)

/-- Only the access that claims a name changes what a call has claimed. -/
theorem claimed_step (hs : ∀ a, j.stage ≠ .claim a) : (j.step h).1.claimed = j.claimed := by
  obtain ⟨id, claimed, stage⟩ := j
  cases stage with
  | claim a => exact absurd rfl (hs a)
  | begin input =>
    simp only [step]
    split
    · rfl
    · split
      · rfl
      · exact claimed_advance _ _
  | run p => exact claimed_advance _ _
  | check n =>
    simp only [step]
    split
    · rfl
    · rfl
    · split <;> rfl
  | store n e => simp only [step]; split <;> rfl
  | recheck n err => simp only [step]; split <;> rfl
  | announce n e => rfl
  | unclaim r => rfl
  | done r => rfl
  | _ => exact claimed_close _ _

end Claims

/-! ### Busy flows -/

section Busy

variable {j : Job} {h : Hub}

/-- Without a claim, going on with a step is going on to work. -/
theorem isWorking_advance (hc : j.claimed = none) (p : Flow.Phase) :
    (j.advance p).stage.isWorking = true := by
  unfold advance
  split
  · unfold settle
    split
    · rfl
    · rfl
    · rfl
    · rw [hc]; rfl
  · rfl

/-- A call without a claim ends its step with an access that leaves the flow idle or removes it. -/
theorem idle_of_end (hc : j.claimed = none) (entered : ∀ a, j.stage ≠ .claim a)
    (working : j.stage.isWorking = true) (ends : (j.step h).1.stage.isWorking = false)
    {r : Option InProgress} {p : InProgress} (hp : j.stage.onTable r = some p) : p.busy = false := by
  obtain ⟨id, claimed, stage⟩ := j
  cases stage with
  | claim a => exact absurd rfl (entered a)
  | begin input => cases working
  | unclaim r => cases working
  | done r => cases working
  | register f form => cases hp; rfl
  | finish result entry => cases hp
  | release err =>
    obtain ⟨q, -, rfl⟩ := Option.map_eq_some_iff.1 hp
    rfl
  | run p => cases (isWorking_advance hc _).symm.trans ends
  | check n =>
    simp only [step] at ends
    split at ends
    · cases ends
    · cases ends
    · split at ends <;> cases ends
  | store n e => simp only [step] at ends; split at ends <;> cases ends
  | recheck n err => simp only [step] at ends; split at ends <;> cases ends
  | announce n e => cases ends

end Busy

/-- How far a call that starts a flow for an announced node has come: it is still to claim the name,
it has claimed it, or it is over. -/
def Opening (j : Job) (a : Announcement) : Prop :=
  (j.stage = .claim a ∧ j.claimed = none) ∨
    (j.claimed = some a.nodeName ∧ ∀ b, j.stage ≠ .claim b) ∨ ∃ r, j.stage = .done r

theorem Opening.step {j : Job} {a : Announcement} (ho : j.Opening a) (h : Hub) :
    (j.step h).1.Opening a := by
  rcases ho with ⟨hs, hc⟩ | ⟨hc, hs⟩ | ⟨r, hs⟩
  · obtain ⟨id, claimed, stage⟩ := j
    cases hs
    simp only [Job.step]
    split
    · exact .inr (.inr ⟨_, rfl⟩)
    · next hfree =>
      refine .inr (.inl ⟨claimed_advance _ _, fun b hb => ?_⟩)
      refine not_claim_of_step ⟨id, claimed, .claim a⟩ h b ?_
      simp only [Job.step, if_neg hfree]
      exact hb
  · exact .inr (.inl ⟨(claimed_step hs).trans hc, j.not_claim_of_step h⟩)
  · refine .inr (.inr ⟨r, ?_⟩)
    simp only [Job.step, hs]
    rfl

end Job

namespace Session

/-- The call starts a flow for an announced node. -/
def Starts (s : Session) (i : Nat) (a : Announcement) : Prop :=
  ∃ n ∈ s.log, n.call = i ∧ n.deed = .started .zeroconf (some a)

/-- The call starts no flow, so it submits a form. -/
def Submits (s : Session) (i : Nat) : Prop := ∀ n ∈ s.log, n.call = i → n.deed.isStart = false

/-- The call submits a form of the flow, and is between the access that begins the step and the one
that ends it. -/
def Configures (s : Session) (i : Nat) (f : Uuid) : Prop := s.Submits i ∧ s.Engaged f i

/-- The call starts a flow for a node of this name, and is between the access that claims the name
and the one that gives it up. -/
def Claims (s : Session) (i : Nat) (name : String) : Prop :=
  ∃ a j, s.Starts i a ∧ a.nodeName = name ∧ s.jobs[i]? = some j ∧ j.stage ≠ .claim a ∧
    j.answer? = none

/-- Each mark is that of a running call. -/
structure Marked (s : Session) : Prop where
  numbered : ∀ n ∈ s.log, n.call < s.jobs.length
  poised : ∀ (i : Nat) (j : Job), s.jobs[i]? = some j → j.Poised
  /-- Who is to be let in submits a form. -/
  entering : ∀ (i : Nat) (j : Job) input, s.jobs[i]? = some j → j.stage = .begin input → s.Submits i
  opening : ∀ (i : Nat) (j : Job) a, s.jobs[i]? = some j → s.Starts i a → j.Opening a
  unclaimed : ∀ (i : Nat) (j : Job), s.jobs[i]? = some j → (∀ a, ¬ s.Starts i a) →
    j.claimed = none ∧ ∀ a, j.stage ≠ .claim a
  busy : ∀ f p, s.registered f = some p → p.busy = true → ∃ i, s.Configures i f
  claimed : ∀ name, name ∈ s.hub.flows.claimed ↔ ∃ (i : Nat) (j : Job), s.jobs[i]? = some j ∧ j.Holds name
  sole : ∀ name (i k : Nat) (j j' : Job), s.jobs[i]? = some j → s.jobs[k]? = some j' →
    j.Holds name → j'.Holds name → i = k

variable {s t : Session}

/-! ### Which calls start flows -/

theorem start_of_mem_notes {act : Action} {n : Note} (hn : n ∈ s.notes act)
    (hs : n.deed.isStart = true) : ∃ source announcement, act = .init source announcement ∧
      n.call = s.jobs.length ∧ n.deed = .started source announcement := by
  cases act with
  | init source announcement =>
    rw [List.mem_singleton.1 hn]
    exact ⟨source, announcement, rfl, rfl, rfl⟩
  | advance i =>
    cases hj : s.jobs[i]? with
    | none => simp [notes, hj] at hn
    | some j =>
      simp only [notes, hj] at hn
      obtain ⟨d, hd, rfl⟩ := List.mem_map.1 hn
      cases (Job.not_isStart_of_mem_deeds hd).symm.trans hs
  | _ => cases hn

theorem starts_advance {i k : Nat} {a : Announcement} :
    (s.step (.advance k)).Starts i a ↔ s.Starts i a := by
  constructor
  · rintro ⟨n, hn, hi, hd⟩
    rw [step_log] at hn
    rcases List.mem_append.1 hn with hn | hn
    · exact ⟨n, hn, hi, hd⟩
    · obtain ⟨source, announcement, heq, -⟩ := start_of_mem_notes hn (by rw [hd]; rfl)
      cases heq
  · rintro ⟨n, hn, h⟩
    exact ⟨n, List.mem_append_left _ hn, h⟩

theorem submits_advance {i k : Nat} : (s.step (.advance k)).Submits i ↔ s.Submits i := by
  constructor
  · intro h n hn
    exact h n (List.mem_append_left _ hn)
  · intro h n hn hi
    rw [step_log] at hn
    rcases List.mem_append.1 hn with hn | hn
    · exact h n hn hi
    · refine Bool.eq_false_iff.2 fun hs => ?_
      obtain ⟨source, announcement, heq, -⟩ := start_of_mem_notes hn hs
      cases heq

theorem Submits.not_starts {i : Nat} (h : s.Submits i) (a : Announcement) : ¬ s.Starts i a := by
  rintro ⟨n, hn, hi, hd⟩
  have := h n hn hi
  rw [hd] at this
  cases this

/-- Whoever holds a name is the call that started a flow for a node of that name. -/
theorem Marked.holds_iff (hm : s.Marked) {i : Nat} {j : Job} (hj : s.jobs[i]? = some j)
    (name : String) : j.Holds name ↔ s.Claims i name := by
  constructor
  · rintro ⟨hc, open_⟩
    by_cases hst : ∃ a, s.Starts i a
    · obtain ⟨a, ha⟩ := hst
      rcases hm.opening i j a hj ha with ⟨-, hnone⟩ | ⟨hsome, hs⟩ | ⟨r, hdone⟩
      · cases hnone.symm.trans hc
      · exact ⟨a, j, ha, Option.some.inj (hsome.symm.trans hc), hj, hs a, open_⟩
      · simp [Job.answer?, hdone] at open_
    · have hnone := (hm.unclaimed i j hj fun a ha => hst ⟨a, ha⟩).1
      cases hnone.symm.trans hc
  · rintro ⟨a, j', ha, rfl, hj', hs, open_⟩
    cases hj.symm.trans hj'
    rcases hm.opening i j a hj ha with ⟨hclaim, -⟩ | ⟨hsome, -⟩ | ⟨r, hdone⟩
    · exact absurd hclaim hs
    · exact ⟨hsome, open_⟩
    · simp [Job.answer?, hdone] at open_

/-! ### Single actions -/

/-- An action that changes no call and no claim, and marks no flow. -/
theorem Marked.congr (hm : s.Marked) (hj : t.jobs = s.jobs) (hl : t.log = s.log)
    (hr : ∀ f p, t.registered f = some p → s.registered f = some p)
    (hc : t.hub.flows.claimed = s.hub.flows.claimed) : t.Marked where
  numbered := by rw [hj, hl]; exact hm.numbered
  poised := by rw [hj]; exact hm.poised
  entering := by simp only [Submits, hj, hl]; exact hm.entering
  opening := by simp only [Starts, hj, hl]; exact hm.opening
  unclaimed := by simp only [Starts, hj, hl]; exact hm.unclaimed
  busy f p hp hb := by
    simp only [Configures, Submits, Engaged, hj, hl]
    exact hm.busy f p (hr f p hp) hb
  claimed name := by rw [hj, hc]; exact hm.claimed name
  sole := by rw [hj]; exact hm.sole

/-- An action that makes a call. -/
theorem Marked.join (hm : s.Marked) {x : Job} {news : List Note} (hj : t.jobs = s.jobs ++ [x])
    (hl : t.log = s.log ++ news) (own : ∀ n ∈ news, n.call = s.jobs.length)
    (hr : ∀ f, t.registered f = s.registered f) (hc : t.hub.flows.claimed = s.hub.flows.claimed)
    (unheld : x.claimed = none) (poised : x.Poised)
    (entering : ∀ input, x.stage = .begin input → t.Submits s.jobs.length)
    (opening : ∀ a, t.Starts s.jobs.length a → x.Opening a)
    (submits : (∀ a, ¬ t.Starts s.jobs.length a) → ∀ a, x.stage ≠ .claim a) : t.Marked := by
  have hjobs {k : Nat} {j : Job} (hk : t.jobs[k]? = some j) :
      k < s.jobs.length ∧ s.jobs[k]? = some j ∨ k = s.jobs.length ∧ j = x := by
    rw [hj] at hk
    refine (getElem?_concat_cases hk).imp_left fun h => ⟨?_, h⟩
    exact (List.getElem?_eq_some_iff.1 h).1
  have old {k : Nat} {j : Job} (hk : s.jobs[k]? = some j) : t.jobs[k]? = some j := by
    rw [hj, List.getElem?_append_left (List.getElem?_eq_some_iff.1 hk).1, hk]
  have hlog {k : Nat} (hk : k < s.jobs.length) (n : Note) (hn : n.call = k) :
      n ∈ t.log ↔ n ∈ s.log := by
    rw [hl, List.mem_append, or_iff_left_iff_imp]
    intro hnew
    have := own n hnew
    omega
  have hstarts {k : Nat} (hk : k < s.jobs.length) (a : Announcement) :
      t.Starts k a ↔ s.Starts k a := by
    constructor
    · rintro ⟨n, hn, hi, hd⟩
      exact ⟨n, (hlog hk n hi).1 hn, hi, hd⟩
    · rintro ⟨n, hn, hi, hd⟩
      exact ⟨n, (hlog hk n hi).2 hn, hi, hd⟩
  have hsubmits {k : Nat} (hk : k < s.jobs.length) (h : s.Submits k) : t.Submits k :=
    fun n hn hi => h n ((hlog hk n hi).1 hn) hi
  constructor
  · intro n hn
    rw [hl] at hn
    rw [hj, List.length_append, List.length_singleton]
    rcases List.mem_append.1 hn with hn | hn
    · exact Nat.lt_succ_of_lt (hm.numbered n hn)
    · rw [own n hn]
      exact Nat.lt_succ_self _
  · intro k j hk
    rcases hjobs hk with ⟨-, hk⟩ | ⟨-, rfl⟩
    · exact hm.poised k j hk
    · exact poised
  · intro k j input hk hst
    rcases hjobs hk with ⟨hlt, hk⟩ | ⟨rfl, rfl⟩
    · exact hsubmits hlt (hm.entering k j input hk hst)
    · exact entering input hst
  · intro k j a hk ha
    rcases hjobs hk with ⟨hlt, hk⟩ | ⟨rfl, rfl⟩
    · exact hm.opening k j a hk ((hstarts hlt a).1 ha)
    · exact opening a ha
  · intro k j hk hnone
    rcases hjobs hk with ⟨hlt, hk⟩ | ⟨rfl, rfl⟩
    · exact hm.unclaimed k j hk fun a ha => hnone a ((hstarts hlt a).2 ha)
    · exact ⟨unheld, submits hnone⟩
  · intro f p hp hb
    obtain ⟨i, hsub, j, hi, hw⟩ := hm.busy f p (hr f ▸ hp) hb
    exact ⟨i, hsubmits (List.getElem?_eq_some_iff.1 hi).1 hsub, j, old hi, hw⟩
  · intro name
    rw [hc, hm.claimed]
    constructor
    · rintro ⟨i, j, hi, hh⟩
      exact ⟨i, j, old hi, hh⟩
    · rintro ⟨i, j, hi, hh⟩
      rcases hjobs hi with ⟨-, hi⟩ | ⟨-, rfl⟩
      · exact ⟨i, j, hi, hh⟩
      · exact absurd hh (Job.not_holds_of_unclaimed unheld)
  · intro name i k j j' hi hk hh hh'
    rcases hjobs hi with ⟨-, hi⟩ | ⟨-, rfl⟩
    · rcases hjobs hk with ⟨-, hk⟩ | ⟨-, rfl⟩
      · exact hm.sole name i k j j' hi hk hh hh'
      · exact absurd hh' (Job.not_holds_of_unclaimed unheld)
    · exact absurd hh (Job.not_holds_of_unclaimed unheld)

theorem Marked.init (hm : s.Marked) (source : Source) (announcement : Option Announcement) :
    (s.step (.init source announcement)).Marked := by
  have starts (a : Announcement)
      (ha : (s.step (.init source announcement)).Starts s.jobs.length a) :
      source = .zeroconf ∧ announcement = some a := by
    obtain ⟨n, hn, hi, hd⟩ := ha
    rcases List.mem_append.1 hn with hn | hn
    · exact absurd hi (Nat.ne_of_lt (hm.numbered n hn))
    · rw [List.mem_singleton.1 hn] at hd
      cases hd
      exact ⟨rfl, rfl⟩
  refine hm.join (x := (s.hub.initJob source announcement).1) rfl rfl
    (fun n hn => by rw [List.mem_singleton.1 hn]) (registered_init source announcement) ?_ ?_ ?_
    (fun input hst => absurd hst (initJob_not_begin s.hub source announcement input)) ?_ ?_
  · cases source <;> cases announcement <;> rfl
  · cases source <;> cases announcement <;> rfl
  · cases source <;> cases announcement <;> trivial
  · intro a ha
    obtain ⟨rfl, rfl⟩ := starts a ha
    exact .inl ⟨rfl, rfl⟩
  · intro hnone a ha
    cases source with
    | user => cases announcement <;> cases ha
    | zeroconf =>
      cases announcement with
      | none => cases ha
      | some b => exact hnone b ⟨_, List.mem_append_right _ (List.mem_singleton_self _), rfl, rfl⟩

theorem Marked.configure (hm : s.Marked) (f : Uuid) (input : Json) :
    (s.step (.configure f input)).Marked := by
  have hlog : (s.step (.configure f input)).log = s.log := List.append_nil _
  refine hm.join (x := Hub.configureJob f input) rfl rfl nofun (fun _ => rfl) rfl rfl rfl ?_ ?_ ?_
  · intro _ _ n hn hi
    rw [hlog] at hn
    exact absurd hi (Nat.ne_of_lt (hm.numbered n hn))
  · rintro a ⟨n, hn, hi, -⟩
    rw [hlog] at hn
    exact absurd hi (Nat.ne_of_lt (hm.numbered n hn))
  · exact fun _ _ => Stage.noConfusion

section Advance

variable {i : Nat} {j : Job}

/-- Who holds a name after the step of a call: that call, or another one that did before. -/
theorem holder_advance (hj : s.jobs[i]? = some j) (name : String) :
    (∃ (k : Nat) (j' : Job), (s.step (.advance i)).jobs[k]? = some j' ∧ j'.Holds name) ↔
      (j.step s.hub).1.Holds name ∨
        ∃ (k : Nat) (j' : Job), k ≠ i ∧ s.jobs[k]? = some j' ∧ j'.Holds name := by
  simp only [getElem?_jobs_advance hj]
  constructor
  · rintro ⟨k, j', hk, hh⟩
    split at hk
    · cases hk
      exact .inl hh
    · next hki => exact .inr ⟨k, j', hki, hk, hh⟩
  · rintro (hh | ⟨k, j', hki, hk, hh⟩)
    · exact ⟨i, _, if_pos rfl, hh⟩
    · exact ⟨k, j', by rw [if_neg hki, hk], hh⟩

theorem Marked.holder_iff (hm : s.Marked) (hj : s.jobs[i]? = some j) (name : String) :
    name ∈ s.hub.flows.claimed ↔
      j.Holds name ∨ ∃ (k : Nat) (j' : Job), k ≠ i ∧ s.jobs[k]? = some j' ∧ j'.Holds name := by
  rw [hm.claimed]
  constructor
  · rintro ⟨k, j', hk, hh⟩
    by_cases hki : k = i
    · subst hki
      cases hj.symm.trans hk
      exact .inl hh
    · exact .inr ⟨k, j', hki, hk, hh⟩
  · rintro (hh | ⟨k, j', -, hk, hh⟩)
    · exact ⟨i, j, hj, hh⟩
    · exact ⟨k, j', hk, hh⟩

/-- A step claims a name only if nobody holds it, and then the claim is its own. -/
theorem Marked.claims_advance (hm : s.Marked) (hj : s.jobs[i]? = some j) :
    (∀ name, name ∈ (s.step (.advance i)).hub.flows.claimed ↔
      ∃ (k : Nat) (j' : Job), (s.step (.advance i)).jobs[k]? = some j' ∧ j'.Holds name) ∧
    ∀ name (k : Nat) (j' : Job), k ≠ i → s.jobs[k]? = some j' → j'.Holds name →
      ¬ (j.step s.hub).1.Holds name := by
  have hhub : (s.step (.advance i)).hub = (j.step s.hub).2 := by rw [step_advance hj]
  simp only [holder_advance hj, hhub]
  rcases j.claim_cases (h := s.hub) (hm.poised i j hj) with
    ⟨a, hst, hfree, hholds, hcl⟩ | ⟨r, own, hst, hc, hholds, hcl⟩ | ⟨hholds, hcl⟩
  · have unheld (name : String) : ¬ j.Holds name := by
      have hp := hm.poised i j hj
      simp only [Job.Poised, hst] at hp
      exact Job.not_holds_of_unclaimed hp
    have free : a.nodeName ∉ s.hub.flows.claimed := by
      intro hmem
      simp [FlowTable.inProgress, hmem] at hfree
    constructor
    · intro name
      rw [hcl, List.mem_cons, hholds, hm.holder_iff hj, or_iff_right (unheld name)]
    · intro name k j' _ hk hh hh'
      rw [hholds] at hh'
      subst hh'
      exact free ((hm.claimed _).2 ⟨k, j', hk, hh⟩)
  · have holds : j.Holds own := ⟨hc, by simp [Job.answer?, hst]⟩
    constructor
    · intro name
      rw [hcl, List.mem_filter, hm.holder_iff hj, or_iff_right (hholds name)]
      constructor
      · rintro ⟨hh | hh, hne⟩
        · rw [Option.some.inj (hc.symm.trans hh.1)] at hne
          simp at hne
        · exact hh
      · rintro ⟨k, j', hki, hk, hh⟩
        refine ⟨.inr ⟨k, j', hki, hk, hh⟩, ?_⟩
        rw [bne_iff_ne]
        rintro rfl
        exact hki (hm.sole _ k i j' j hk hj hh holds)
    · intro name k j' _ _ _
      exact hholds name
  · constructor
    · intro name
      rw [hcl, hm.holder_iff hj, hholds]
    · intro name k j' hki hk hh hh'
      exact hki (hm.sole _ k i j' j hk hj hh ((hholds name).1 hh'))

/-- After the step of a call too, whoever marked a busy flow works on it. -/
theorem Marked.busy_advance (hm : s.Marked) (hj : s.jobs[i]? = some j) (f : Uuid) (p : InProgress)
    (hp : (s.step (.advance i)).registered f = some p) (hb : p.busy = true) :
    ∃ k, (s.step (.advance i)).Configures k f := by
  have hget := getElem?_jobs_advance hj
  rw [registered_advance hj] at hp
  -- another call goes on working on its flow
  have other {k : Nat} (hki : k ≠ i) (hk : s.Configures k f) :
      (s.step (.advance i)).Configures k f := by
    obtain ⟨hsub, j', hj', hw⟩ := hk
    exact ⟨submits_advance.2 hsub, j', by rw [hget, if_neg hki, hj'], hw⟩
  -- the call itself does if that is the stage it gets to
  have own (hf : f = j.flowId) (hsub : s.Submits i)
      (hw : (j.step s.hub).1.stage.isWorking = true) : (s.step (.advance i)).Configures i f := by
    refine ⟨submits_advance.2 hsub, _, by rw [hget, if_pos rfl], ?_, hw⟩
    rw [j.flowId_step, hf]
  split at hp
  · next hf =>
    subst hf
    by_cases hst : ∃ input, j.stage = .begin input
    · obtain ⟨input, hst⟩ := hst
      rw [hst] at hp
      obtain ⟨q, hq, rfl⟩ := Option.map_eq_some_iff.1 hp
      cases hqb : q.busy with
      | true =>
        obtain ⟨k, hk⟩ := hm.busy _ q hq hqb
        refine ⟨k, other ?_ hk⟩
        rintro rfl
        obtain ⟨-, j', hj', hw⟩ := hk
        cases hj.symm.trans hj'
        rw [Job.WorksOn, hst] at hw
        cases hw.2
      | false =>
        have hc := hm.poised i j hj
        simp only [Job.Poised, hst] at hc
        refine ⟨i, own rfl (hm.entering i j input hj hst) ?_⟩
        have hq' : s.hub.flows.flows.get? j.flowId = some q := hq
        simp only [Job.step, hst, hq', hqb, Bool.false_eq_true, if_false]
        exact Job.isWorking_advance hc _
    · have before : ∃ q, s.registered j.flowId = some q ∧ q.busy = true := by
        revert hp hst
        cases j.stage with
        | begin input => exact fun _ hst => absurd ⟨input, rfl⟩ hst
        | register g form => rintro ⟨⟩ -; cases hb
        | finish result entry => rintro ⟨⟩
        | release err =>
          intro hp _
          obtain ⟨q, -, rfl⟩ := Option.map_eq_some_iff.1 hp
          cases hb
        | _ => exact fun hp _ => ⟨p, hp, hb⟩
      obtain ⟨q, hq, hqb⟩ := before
      obtain ⟨k, hk⟩ := hm.busy _ q hq hqb
      by_cases hki : k = i
      · subst hki
        obtain ⟨hsub, j', hj', hw⟩ := hk
        cases hj.symm.trans hj'
        obtain ⟨hc, entered⟩ := hm.unclaimed k j hj hsub.not_starts
        refine ⟨k, own rfl hsub (Bool.eq_false_or_eq_true _ |>.resolve_right fun ends => ?_)⟩
        rw [Job.idle_of_end hc entered hw.2 ends hp] at hb
        cases hb
      · exact ⟨k, other hki hk⟩
  · next hf =>
    obtain ⟨k, hk⟩ := hm.busy f p hp hb
    refine ⟨k, other ?_ hk⟩
    rintro rfl
    obtain ⟨-, j', hj', hw⟩ := hk
    cases hj.symm.trans hj'
    exact hf hw.1.symm

theorem Marked.advance (hm : s.Marked) (i : Nat) : (s.step (.advance i)).Marked := by
  cases hj : s.jobs[i]? with
  | none => rw [step_advance_none hj]; exact hm
  | some j =>
  have hget := getElem?_jobs_advance hj
  obtain ⟨claimed, sole⟩ := hm.claims_advance hj
  constructor
  · intro n hn
    have hlen : (s.step (.advance i)).jobs.length = s.jobs.length := by
      rw [step_advance hj]
      exact List.length_set
    rw [hlen]
    rw [step_advance hj] at hn
    rcases List.mem_append.1 hn with hn | hn
    · exact hm.numbered n hn
    · obtain ⟨d, -, rfl⟩ := List.mem_map.1 hn
      exact (List.getElem?_eq_some_iff.1 hj).1
  · intro k j' hk
    rw [hget] at hk
    split at hk
    · cases hk
      exact j.poised_step s.hub
    · exact hm.poised k j' hk
  · intro k j' input hk hst
    rw [hget] at hk
    rw [submits_advance]
    split at hk
    · cases hk
      exact absurd hst (j.not_begin_of_step s.hub input)
    · exact hm.entering k j' input hk hst
  · intro k j' a hk ha
    rw [hget] at hk
    rw [starts_advance] at ha
    split at hk
    · next hki =>
      subst hki
      cases hk
      exact (hm.opening k j a hj ha).step s.hub
    · exact hm.opening k j' a hk ha
  · intro k j' hk hnone
    rw [hget] at hk
    simp only [starts_advance] at hnone
    split at hk
    · next hki =>
      subst hki
      cases hk
      obtain ⟨hc, entered⟩ := hm.unclaimed k j hj hnone
      exact ⟨(Job.claimed_step entered).trans hc, j.not_claim_of_step s.hub⟩
    · exact hm.unclaimed k j' hk hnone
  · exact hm.busy_advance hj
  · exact claimed
  · intro name k l j₁ j₂ hk hl h₁ h₂
    rw [hget] at hk hl
    split at hk <;> split at hl
    · next hki hli => exact hki.trans hli.symm
    · next hli =>
      cases hk
      exact absurd h₁ (sole name l j₂ hli hl h₂)
    · next hki _ =>
      cases hl
      exact absurd h₂ (sole name k j₁ hki hk h₁)
    · exact hm.sole name k l j₁ j₂ hk hl h₁ h₂

end Advance

theorem Marked.step (hm : s.Marked) (act : Action) : (s.step act).Marked := by
  cases act with
  | init source announcement => exact hm.init source announcement
  | configure f input => exact hm.configure f input
  | advance i => exact hm.advance i
  | abort f =>
    refine hm.congr rfl (List.append_nil _) (fun g p hp => ?_) ?_
    · rw [registered_abort] at hp
      split at hp
      · cases hp
      · exact hp
    · show (s.hub.abortFlow f).2.flows.claimed = _
      unfold Hub.abortFlow
      split <;> rfl
  | _ => exact hm.congr rfl (List.append_nil _) (fun _ _ hp => hp) rfl

theorem marked_start (h : Hub) : (start h).Marked where
  numbered _ hn := by cases hn
  poised _ _ hi := by cases hi
  entering _ _ _ hi := by cases hi
  opening _ _ _ hi := by cases hi
  unclaimed _ _ hi := by cases hi
  busy _ _ hp := by cases hp
  claimed name := ⟨nofun, fun ⟨_, _, hi, _⟩ => nomatch hi⟩
  sole _ _ _ _ _ hi := by cases hi

theorem marked_run (h : Hub) (as : List Action) : ((start h).run as).Marked := by
  suffices ∀ s : Session, s.Marked → (s.run as).Marked from this _ (marked_start h)
  induction as with
  | nil => exact fun _ hm => hm
  | cons act as ih => exact fun s hm => ih _ (hm.step act)

/-- At any moment at most one call runs a step of each flow. A registered flow is busy exactly while
a call that submits a form runs a step of it, and a name is claimed exactly while a call that starts
a flow for a node of that name runs. So nothing is busy or claimed once all calls are over. -/
theorem marks_of_running_calls (h : Hub) (as : List Action)
    (lasts : ((start h).run as).hub.supply.Lasts) :
    let s := (start h).run as
    (∀ f i k, s.Configures i f → s.Configures k f → i = k) ∧
      (∀ f p, s.registered f = some p → (p.busy = true ↔ ∃ i, s.Configures i f)) ∧
      (∀ name, name ∈ s.hub.flows.claimed ↔ ∃ i, s.Claims i name) ∧
      ((∀ j ∈ s.jobs, j.answer?.isSome) →
        (∀ f p, s.registered f = some p → p.busy = false) ∧ s.hub.flows.claimed = []) := by
  intro s
  have hs : s.Orderly := orderly_run h as lasts
  have hm : s.Marked := marked_run h as
  have claimed (name : String) : name ∈ s.hub.flows.claimed ↔ ∃ i, s.Claims i name := by
    rw [hm.claimed]
    constructor
    · rintro ⟨i, j, hi, hh⟩
      exact ⟨i, (hm.holds_iff hi name).1 hh⟩
    · rintro ⟨i, hc⟩
      obtain ⟨-, j, -, -, hi, -⟩ := id hc
      exact ⟨i, j, hi, (hm.holds_iff hi name).2 hc⟩
  refine ⟨?_, ?_, claimed, fun ended => ⟨?_, ?_⟩⟩
  · rintro f i k ⟨-, j, hi, hw⟩ ⟨-, j', hk, hw'⟩
    exact hs.single f i k j j' hi hk hw hw'
  · intro f p hp
    refine ⟨hm.busy f p hp, ?_⟩
    rintro ⟨i, -, j, hi, hw⟩
    refine (Bool.eq_false_or_eq_true p.busy).resolve_right fun idle => ?_
    exact hs.idle f p hp idle i j hi hw
  · intro f p hp
    refine Bool.eq_false_iff.2 fun hb => ?_
    obtain ⟨i, -, j, hi, -, hw⟩ := hm.busy f p hp hb
    obtain ⟨r, hr⟩ := Option.isSome_iff_exists.1 (ended j (List.mem_of_getElem? hi))
    unfold Job.answer? at hr
    split at hr
    · next hst => rw [hst] at hw; cases hw
    · cases hr
  · refine List.eq_nil_iff_forall_not_mem.2 fun name hmem => ?_
    obtain ⟨i, a, j, -, -, hi, -, open_⟩ := (claimed name).1 hmem
    have := ended j (List.mem_of_getElem? hi)
    rw [open_] at this
    cases this

/-- One call waits for the node that a submitted form names, another one has just claimed the name of
an announced node. -/
theorem marks_while_submitting :
    let s := (start (Hub.unused lockedNode)).run (submitting "10.0.0.1" ++
      [.init .zeroconf (some ⟨"10.0.0.2", 6053, "kitchen.local.", .empty⟩), .advance 2])
    (∃ i, s.Configures i (.generated 0) ∧ ∀ k, s.Configures k (.generated 0) → k = i) ∧
      ∃ i, s.Claims i "kitchen" := by
  intro s
  obtain ⟨single, busy, claimed, -⟩ := marks_of_running_calls (Hub.unused lockedNode)
    (submitting "10.0.0.1" ++
      [.init .zeroconf (some ⟨"10.0.0.2", 6053, "kitchen.local.", .empty⟩), .advance 2])
    (by unfold Supply.Lasts; decide +kernel)
  have marked : (s.registered (.generated 0)).map (·.busy) = some true := by decide +kernel
  have named : "kitchen" ∈ s.hub.flows.claimed := by decide +kernel
  obtain ⟨p, hp, hb⟩ := Option.map_eq_some_iff.1 marked
  obtain ⟨i, hi⟩ := (busy _ p hp).1 hb
  exact ⟨⟨i, hi, fun k hk => single _ k i hk hi⟩, (claimed _).1 named⟩

end Session

end HomeHub
