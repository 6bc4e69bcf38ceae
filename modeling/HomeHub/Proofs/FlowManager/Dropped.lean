import HomeHub.Proofs.FlowManager.Failure
import HomeHub.Proofs.FlowManager.Forms
import HomeHub.Proofs.Json.Record

/-!
# Calls that are dropped

A client may go away while its call runs. The call is dropped then, wherever it is, and does nothing
any more. Nobody else takes back the mark that it has set (`LossySession.stuck`). So once no call
runs, all flows and nodes are free exactly if no call was dropped between the access that sets its
mark and the one that takes it back, save for flows that are gone: `LossySession.usable_iff`.
-/

namespace HomeHub

/-! ### Calls that are let in -/

namespace Job

variable {j : Job}

/-- The call was let in, so it does not find a flow in progress any more. -/
structure Admitted (j : Job) : Prop where
  ends : j.stage.Ends fun _ => True
  claimed : ∀ a, j.stage ≠ .claim a
  begun : ∀ input, j.stage ≠ .begin input
  answer : ∀ r, j.stage.settled? = some (.ok r) → r.result ≠ .abort .alreadyInProgress

theorem isWorking_of_running (running : j.stage.settled? = none)
    (begun : ∀ input, j.stage ≠ .begin input) : j.stage.isWorking = true := by
  obtain ⟨id, claimed, stage⟩ := j
  cases stage with
  | begin input => exact absurd rfl (begun input)
  | unclaim r => cases running
  | done r => cases running
  | _ => rfl

theorem Admitted.outcome (ha : j.Admitted) (h : Hub) :
    j.outcome? h ≠ some (.abort .alreadyInProgress) := by
  obtain ⟨id, claimed, stage⟩ := j
  cases stage with
  | claim a => exact absurd rfl (ha.claimed a)
  | register f result =>
    obtain ⟨form, rfl, -⟩ := ha.ends
    exact nofun
  | finish result entry => exact fun heq => ha.ends.2 (Option.some.inj heq)
  | _ => exact nofun

theorem Admitted.step (ha : j.Admitted) (h : Hub) : (j.step h).1.Admitted := by
  cases hs : j.stage.settled? with
  | none =>
    refine ⟨ends_step (isWorking_of_running hs ha.begun) ha.ends h, j.not_claim_of_step h,
      j.not_begin_of_step h, fun r hr heq => ha.outcome h ?_⟩
    rw [← success_step hs, hr, ← heq]
    rfl
  | some r =>
    have rests : ∃ r, (j.step h).1.stage = .done r ∧ j.stage.settled? = some r := by
      obtain ⟨id, claimed, stage⟩ := j
      cases stage with
      | unclaim r => exact ⟨r, rfl, rfl⟩
      | done r => exact ⟨r, rfl, rfl⟩
      | _ => cases hs
    obtain ⟨r, hdone, hr⟩ := rests
    refine ⟨by rw [hdone]; trivial, by rw [hdone]; exact nofun, by rw [hdone]; exact nofun, ?_⟩
    rw [hdone]
    exact fun r' hr' => ha.answer r' (hr.trans hr')

/-- A call stays let in, whatever happens around it. -/
theorem Admitted.runAmid {c : Nat → Conditions} (ha : j.Admitted) (left : Nat) (h : Hub) :
    (j.runAmid c left h).1.Admitted := by
  induction left generalizing j h with
  | zero => exact ha
  | succ left ih =>
    unfold Job.runAmid
    split
    · exact ha
    · exact ih (ha.step _) _

/-- The name of a node is claimed at once if nothing stands against it. -/
theorem admitted_of_free {h : Hub} {a : Announcement} (hst : j.stage = .claim a)
    (free : h.flows.inProgress a.nodeName = false) : (j.step h).1.Admitted := by
  have hstep : (j.step h).1 =
      ({ j with claimed := some a.nodeName } : Job).advance
        (Flow.startZeroconf { source := .zeroconf } a) := by
    simp only [step, hst, free, Bool.false_eq_true, if_false]
  refine ⟨?_, j.not_claim_of_step h, j.not_begin_of_step h, ?_⟩
  · exact ends_step (by rw [hst]; rfl) (by rw [hst]; trivial) h
  · rw [hstep]
    exact fun r hr => absurd hr Trail.settled_advance

theorem admitted_runAmid {h : Hub} {a : Announcement} {c : Nat → Conditions} {left : Nat}
    (hst : j.stage = .claim a) (free : h.flows.inProgress a.nodeName = false) (hleft : 0 < left) :
    (j.runAmid c left h).1.Admitted := by
  cases left with
  | zero => cases hleft
  | succ left =>
    have running : j.answer?.isSome = false := by
      unfold answer?
      rw [hst]
      rfl
    rw [runAmid, running]
    exact (admitted_of_free (h := h.under (c left)) hst free).runAmid left _

theorem Admitted.answer_of_over (ha : j.Admitted) {r : FlowResponse}
    (hr : j.answer? = some (.ok r)) : r.result ≠ .abort .alreadyInProgress := by
  refine ha.answer r ?_
  unfold answer? at hr
  split at hr
  · next hdone =>
    cases hr
    rw [hdone]
    rfl
  · cases hr

end Job

/-! ### Free flows and nodes -/

namespace Session

/-- The call is in the middle of a step and has marked its flow, which is still there, or a name. -/
inductive Midway (s : Session) (i : Nat) : Prop
  | busy {f : Uuid} {p : InProgress} (hp : s.registered f = some p) (hi : s.Configures i f)
  | claimed {name : String} (hi : s.Claims i name)

/-- Every registered flow takes input, and every node without a flow may be announced. -/
structure Usable (s : Session) : Prop where
  idle : ∀ f p, s.registered f = some p → p.busy = false
  unclaimed : s.hub.flows.claimed = []
  /-- What is submitted is given to the flow. -/
  configurable : ∀ f p input, s.registered f = some p →
    ((Hub.configureJob f input).step s.hub).1 =
      (Hub.configureJob f input).advance (p.flow.submit input)
  /-- Whatever happens around the call, it does not answer that a flow is in progress. -/
  announceable : ∀ a (c : Nat → Conditions),
    (∀ f p, s.registered f = some p → p.flow.uniqueId ≠ some a.nodeName) →
    let (j, h) := s.hub.initJob .zeroconf (some a)
    ∀ r, (j.runAmid c j.rank h).1.answer? = some (.ok r) → r.result ≠ .abort .alreadyInProgress

variable {s : Session}

theorem Marked.mem_claimed_iff (hm : s.Marked) (name : String) :
    name ∈ s.hub.flows.claimed ↔ ∃ i, s.Claims i name := by
  rw [hm.claimed]
  constructor
  · rintro ⟨i, j, hj, holds⟩
    exact ⟨i, (hm.holds_iff hj name).1 holds⟩
  · rintro ⟨i, hc⟩
    obtain ⟨-, j, -, -, hj, -⟩ := id hc
    exact ⟨i, j, hj, (hm.holds_iff hj name).2 hc⟩

theorem inProgress_eq_false {name : String} (unclaimed : s.hub.flows.claimed = [])
    (unregistered : ∀ f p, s.registered f = some p → p.flow.uniqueId ≠ some name) :
    s.hub.flows.inProgress name = false := by
  unfold FlowTable.inProgress
  rw [unclaimed, List.contains_nil, Bool.false_or]
  refine List.any_eq_false.2 fun p hp hname => ?_
  obtain ⟨⟨f, p⟩, hmem, rfl⟩ := List.mem_map.1 hp
  exact unregistered f p (Table.mem_pairs_iff.1 hmem) (eq_of_beq hname)

/-- The two marks are all that stands against a call. -/
theorem usable_of_unmarked (idle : ∀ f p, s.registered f = some p → p.busy = false)
    (unclaimed : s.hub.flows.claimed = []) : s.Usable where
  idle := idle
  unclaimed := unclaimed
  configurable f p input hp := by
    have hget : s.hub.flows.flows.get? f = some p := hp
    simp only [Hub.configureJob, Job.step, hget, idle f p hp, Bool.false_eq_true, if_false]
  announceable a c unregistered := by
    have free := inProgress_eq_false unclaimed unregistered
    have begins : s.hub.initJob .zeroconf (some a) =
      ({ flowId := s.hub.draw.1, stage := .claim a }, s.hub.draw.2) := rfl
    rw [begins]
    generalize hj : ({ flowId := s.hub.draw.1, stage := .claim a } : Job) = j
    have hst : j.stage = .claim a := by rw [← hj]
    have hrank : 0 < j.rank := by rw [Job.rank, hst]; exact Nat.succ_pos 11
    intro r hr
    have ended : (j.runAmid c j.rank s.hub.draw.2).1.Admitted :=
      Job.admitted_runAmid hst free hrank
    exact ended.answer_of_over hr

end Session

/-! ### Sessions in which calls are dropped -/

/-- A session, and the calls that were dropped. -/
structure LossySession where
  session : Session
  dropped : List Nat := []

namespace LossySession

inductive Event where
  | act (a : Action)
  /-- The client of the call of this number goes away. -/
  | drop (call : Nat)

def start (h : Hub) : LossySession := { session := .start h }

/-- The call was made and is neither over nor dropped. -/
def isRunning (t : LossySession) (i : Nat) : Bool :=
  !t.dropped.contains i && t.session.jobs[i]?.any (·.answer?.isNone)

/-- A call that was dropped does nothing any more, and one that is over cannot be dropped. -/
def step (t : LossySession) : Event → LossySession
  | .act (.advance i) =>
    if i ∈ t.dropped then t else { t with session := t.session.step (.advance i) }
  | .act a => { t with session := t.session.step a }
  | .drop i => if t.isRunning i then { t with dropped := i :: t.dropped } else t

def run (t : LossySession) (es : List Event) : LossySession := es.foldl step t

/-- No call runs. -/
def Quiet (t : LossySession) : Prop := ∀ i < t.session.jobs.length, t.isRunning i = false

instance (t : LossySession) : Decidable t.Quiet :=
  inferInstanceAs (Decidable (∀ i < t.session.jobs.length, t.isRunning i = false))

variable {t : LossySession}

theorem session_step (t : LossySession) (e : Event) :
    ∃ as, (t.step e).session = t.session.run as := by
  unfold step
  split
  · split
    · exact ⟨[], rfl⟩
    · exact ⟨[_], rfl⟩
  · exact ⟨[_], rfl⟩
  · split <;> exact ⟨[], rfl⟩

/-- Calls that are dropped are like calls whose turn never comes. -/
theorem session_run (t : LossySession) (es : List Event) :
    ∃ as, (t.run es).session = t.session.run as := by
  induction es generalizing t with
  | nil => exact ⟨[], rfl⟩
  | cons e es ih =>
    obtain ⟨as, has⟩ := session_step t e
    obtain ⟨bs, hbs⟩ := ih (t.step e)
    exact ⟨as ++ bs, by rw [Session.run_append, ← has]; exact hbs⟩

theorem dropped_step {i : Nat} {j : Job} (hi : i ∈ t.dropped) (hj : t.session.jobs[i]? = some j)
    (e : Event) : i ∈ (t.step e).dropped ∧ (t.step e).session.jobs[i]? = some j := by
  have concat (x : Job) : (t.session.jobs ++ [x])[i]? = some j := by
    rw [List.getElem?_append_left (List.getElem?_eq_some_iff.1 hj).1, hj]
  cases e with
  | drop k =>
    simp only [step]
    split
    · exact ⟨List.mem_cons_of_mem _ hi, hj⟩
    · exact ⟨hi, hj⟩
  | act a =>
    cases a with
    | init source announcement => exact ⟨hi, concat _⟩
    | configure f input => exact ⟨hi, concat _⟩
    | advance k =>
      simp only [step]
      split
      · exact ⟨hi, hj⟩
      · next hk =>
        refine ⟨hi, ?_⟩
        have hki : i ≠ k := fun heq => hk (heq ▸ hi)
        cases hjk : t.session.jobs[k]? with
        | none => rw [Session.step_advance_none hjk, hj]
        | some j' => rw [Session.getElem?_jobs_advance hjk, if_neg hki, hj]
    | _ => exact ⟨hi, hj⟩

/-- A dropped call stays as it is. -/
theorem dropped_run {i : Nat} {j : Job} (hi : i ∈ t.dropped) (hj : t.session.jobs[i]? = some j)
    (es : List Event) : i ∈ (t.run es).dropped ∧ (t.run es).session.jobs[i]? = some j := by
  induction es generalizing t with
  | nil => exact ⟨hi, hj⟩
  | cons e es ih =>
    obtain ⟨hi, hj⟩ := dropped_step hi hj e
    exact ih hi hj

theorem marked_run (h : Hub) (es : List Event) : ((start h).run es).session.Marked := by
  obtain ⟨as, has⟩ := session_run (start h) es
  rw [has]
  exact Session.marked_run h as

theorem orderly_run (h : Hub) (es : List Event)
    (lasts : ((start h).run es).session.hub.supply.Lasts) :
    ((start h).run es).session.Orderly := by
  obtain ⟨as, has⟩ := session_run (start h) es
  rw [has] at lasts ⊢
  exact Session.orderly_run h as lasts

theorem Quiet.mem_dropped (hq : t.Quiet) {i : Nat} {j : Job} (hj : t.session.jobs[i]? = some j)
    (running : j.answer? = none) : i ∈ t.dropped := by
  have := hq i (List.getElem?_eq_some_iff.1 hj).1
  rw [isRunning, hj, Option.any_some, running, Option.isNone_none, Bool.and_true] at this
  exact List.contains_iff_mem.1 (by simpa using this)

theorem run_append (t : LossySession) (es es' : List Event) :
    t.run (es ++ es') = (t.run es).run es' := List.foldl_append

/-- Nobody takes back the mark of a dropped call: a name stays claimed for ever, and a flow stays
busy as long as it is registered. -/
theorem stuck (h : Hub) (es es' : List Event) {i : Nat}
    (lasts : ((start h).run (es ++ es')).session.hub.supply.Lasts)
    (hi : i ∈ ((start h).run es).dropped) :
    let s := ((start h).run es).session
    let t := ((start h).run (es ++ es')).session
    (∀ name, s.Claims i name → name ∈ t.hub.flows.claimed) ∧
      ∀ f p, s.Configures i f → t.registered f = some p → p.busy = true := by
  intro s t
  have hm : t.Marked := marked_run h (es ++ es')
  have hs : t.Orderly := orderly_run h (es ++ es') lasts
  have same {j : Job} (hj : s.jobs[i]? = some j) : t.jobs[i]? = some j := by
    have := (dropped_run hi hj es').2
    rwa [← run_append] at this
  constructor
  · intro name hc
    obtain ⟨-, j, -, -, hj, -⟩ := id hc
    have holds := ((marked_run h es).holds_iff hj name).2 hc
    exact (hm.claimed name).2 ⟨i, j, same hj, holds⟩
  · rintro f p ⟨-, j, hj, hw⟩ hp
    refine (Bool.eq_false_or_eq_true p.busy).resolve_right fun idle => ?_
    exact hs.idle f p hp idle i j (same hj) hw

/-- Once no call runs, all flows and nodes are free exactly if no call was dropped in the middle of
a step, leaving its mark on a flow that is still there or on the name of a node. -/
theorem usable_iff (h : Hub) (es : List Event)
    (lasts : ((start h).run es).session.hub.supply.Lasts) (quiet : ((start h).run es).Quiet) :
    let t := (start h).run es
    t.session.Usable ↔ ∀ i ∈ t.dropped, ¬ t.session.Midway i := by
  intro t
  have hm : t.session.Marked := marked_run h es
  have hs : t.session.Orderly := orderly_run h es lasts
  constructor
  · rintro usable i - (⟨hp, -, j, hj, hw⟩ | ⟨hc⟩)
    · exact hs.idle _ _ hp (usable.idle _ _ hp) i j hj hw
    · have mem := (hm.mem_claimed_iff _).2 ⟨i, hc⟩
      rw [usable.unclaimed] at mem
      cases mem
  · intro none_midway
    refine Session.usable_of_unmarked (fun f p hp => Bool.eq_false_iff.2 fun busy => ?_) ?_
    · obtain ⟨i, hc⟩ := hm.busy f p hp busy
      obtain ⟨-, j, hj, -, working⟩ := id hc
      have running : j.answer? = none := by
        unfold Job.answer?
        split
        · next hst => rw [hst] at working; cases working
        · rfl
      exact none_midway i (quiet.mem_dropped hj running) (.busy hp hc)
    · refine List.eq_nil_iff_forall_not_mem.2 fun name hmem => ?_
      obtain ⟨i, hc⟩ := (hm.mem_claimed_iff name).1 hmem
      obtain ⟨-, j, -, -, hj, -, running⟩ := id hc
      exact none_midway i (quiet.mem_dropped hj running) (.claimed hc)

/-- A call is dropped while the node is asked, and then its flow is dropped, too. -/
theorem usable_iff_abandoned :
    ((start (Hub.unused Session.lockedNode)).run ((Session.submitting "10.0.0.1").map .act ++
      [.drop 1, .act (.abort (.generated 0))])).session.Usable := by
  let es : List Event := (Session.submitting "10.0.0.1").map .act ++
    [.drop 1, .act (.abort (.generated 0))]
  let t := (start (Hub.unused Session.lockedNode)).run es
  have lasts : t.session.hub.supply.Lasts := by unfold Supply.Lasts; decide +kernel
  have quiet : t.Quiet := by decide +kernel
  have unregistered : t.session.hub.flows.flows = .empty := by decide +kernel
  have unclaimed : t.session.hub.flows.claimed = [] := by decide +kernel
  refine (usable_iff (Hub.unused Session.lockedNode) es lasts quiet).2 fun i _ midway => ?_
  cases midway with
  | busy hp _ =>
    rw [Session.registered, unregistered] at hp
    cases hp
  | claimed hc =>
    have hm : t.session.Marked := marked_run _ es
    have mem := (hm.mem_claimed_iff _).2 ⟨i, hc⟩
    rw [unclaimed] at mem
    cases mem

/-- The call is dropped while the node is asked: the flow takes no input any more. -/
theorem not_always_usable :
    ¬ ∀ (h : Hub) (es : List Event), ((start h).run es).session.hub.supply.Lasts →
      ((start h).run es).Quiet → ((start h).run es).session.Usable := by
  intro always
  let es : List Event := (Session.submitting "10.0.0.1").map .act ++ [.drop 1]
  have usable := always (Hub.unused Session.lockedNode) es
    (by unfold Supply.Lasts; decide +kernel) (by decide +kernel)
  have busy : (((start (Hub.unused Session.lockedNode)).run es).session.registered
      (.generated 0)).map (·.busy) = some true := by decide +kernel
  obtain ⟨p, hp, hbusy⟩ := Option.map_eq_some_iff.1 busy
  cases (usable.idle _ p hp).symm.trans hbusy

end LossySession

end HomeHub
