import HomeHub.Flow.Run

/-!
# Calls of the flow manager

Starting a flow and submitting a form are calls that others may come in between of. A running call
is a `Job`: the flow it is about, the node name it holds a claim on, and the stage it is at. Each
stage is one access to the table of flows, one call to a node, one access to the entry store or one
event. `Job.step` does it, and `Job.rank` falls with it.

A step works on a copy of its flow. The registered flow stays as it is, marked busy, until the step
ends: with a form the copy replaces it, otherwise it is removed, or released after an error.
-/

namespace HomeHub

/-- The answer to a call about a flow. -/
structure FlowResponse where
  flowId : Uuid
  result : Flow.Result
  /-- The stored entry, once the flow made one. -/
  entry : Option Entry := none
  deriving Inhabited

/-- What a running call does next. -/
inductive Stage where
  /-- Claims the name of an announced node. -/
  | claim (a : Announcement)
  /-- Takes a copy of the flow and marks it busy. -/
  | begin (input : Json)
  | run (p : Flow.Phase)
  /-- Registers the flow with the form it shows. -/
  | register (f : Flow) (form : Flow.Result)
  /-- Looks whether the device was configured meanwhile. -/
  | check (n : Flow.NewEntry)
  | store (n : Flow.NewEntry) (e : Entry)
  /-- Looks again, after the entry could not be stored. -/
  | recheck (n : Flow.NewEntry) (err : HubError)
  /-- Tells of the new entry. -/
  | announce (n : Flow.NewEntry) (e : Entry)
  /-- Removes the flow. -/
  | finish (result : Flow.Result) (entry : Option Entry)
  /-- Marks the flow idle again. -/
  | release (err : HubError)
  | unclaim (r : Except HubError FlowResponse)
  | done (r : Except HubError FlowResponse)
  deriving Inhabited

/-- How many steps are left at most. -/
def Stage.rank : Stage → Nat
  | .claim _ | .begin _ => 12
  | .run p => 6 + p.rank
  | .check _ => 5
  | .store _ _ => 4
  | .recheck _ _ | .announce _ _ => 3
  | .register _ _ | .finish _ _ | .release _ => 2
  | .unclaim _ => 1
  | .done _ => 0

structure Job where
  flowId : Uuid
  /-- The node name that the call has claimed. -/
  claimed : Option String := none
  stage : Stage
  deriving Inhabited

namespace Job

def flowNotFound (id : Uuid) : HubError := .notFound ⟨"Flow", id.text⟩

def enter (j : Job) (stage : Stage) : Job := { j with stage }

/-- Answers, after giving up a claim. -/
def close (j : Job) (r : Except HubError FlowResponse) : Job :=
  match j.claimed with
  | some _ => j.enter (.unclaim r)
  | none => j.enter (.done r)

/-- What the outcome of a step leads to. An error of a first step has no flow to release. -/
def settle (j : Job) (f : Flow) : Except HubError Flow.Result → Job
  | .ok (.form form) => j.enter (.register f (.form form))
  | .ok (.createEntry n) => j.enter (.check n)
  | .ok (.abort reason) => j.enter (.finish (.abort reason) none)
  | .error err => if j.claimed.isSome then j.close (.error err) else j.enter (.release err)

/-- Goes on with a step, or with its outcome. -/
def advance (j : Job) : Flow.Phase → Job
  | .done f r => j.settle f r
  | p => j.enter (.run p)

/-- The entry with the unique id of a new one, if any. -/
def existing (h : Hub) (n : Flow.NewEntry) : Except HubError (Option Entry) :=
  match n.uniqueId with
  | some id => h.repository.findByUniqueId nativeApiDomain id
  | none => .ok none

/-- What the event of a new entry says. -/
def createdData (e : Entry) : Json :=
  .record [("entry_id", .str e.id.text), ("domain", .str e.domain), ("title", .str e.title)]

/-- Does the next thing. -/
def step (j : Job) (h : Hub) : Job × Hub :=
  match j.stage with
  | .claim a =>
    if h.flows.inProgress a.nodeName then
      (j.enter (.done (.ok ⟨j.flowId, .abort .alreadyInProgress, none⟩)), h)
    else
      ({ j with claimed := some a.nodeName }.advance (Flow.startZeroconf { source := .zeroconf } a),
        { h with flows := h.flows.claim a.nodeName })
  | .begin input =>
    match h.flows.flows.get? j.flowId with
    | none => (j.enter (.done (.error (flowNotFound j.flowId))), h)
    | some p =>
      if p.busy then
        (j.enter (.done (.error (.invalid (.input "flow step already running")))), h)
      else (j.advance (p.flow.submit input), { h with flows := h.flows.setBusy j.flowId true })
  | .run p =>
    let (p, h) := p.step h
    (j.advance p, h)
  | .register f form =>
    (j.close (.ok ⟨j.flowId, form, none⟩), { h with flows := h.flows.register j.flowId f form })
  | .check n =>
    match existing h n with
    | .error err => (j.enter (.release err), h)
    | .ok (some _) => (j.enter (.finish (.abort .alreadyConfigured) none), h)
    | .ok none =>
      let (fresh, h) := h.draw
      match n.build fresh h.supply.now with
      | .error rule => (j.enter (.release (.invalid rule)), h)
      | .ok e => (j.enter (.store n e), h)
  | .store n e =>
    match h.createEntry e with
    | (.ok e, h) => (j.enter (.announce n e), h)
    | (.error err, h) => (j.enter (.recheck n err), h)
  | .recheck n err =>
    match existing h n with
    | .error err => (j.enter (.release err), h)
    | .ok (some _) => (j.enter (.finish (.abort .alreadyConfigured) none), h)
    | .ok none => (j.enter (.release err), h)
  | .announce n e =>
    let (_, h) := h.publish .configEntryCreated none (createdData e)
    (j.enter (.finish (.createEntry n) (some e)), h)
  | .finish result entry =>
    (j.close (.ok ⟨j.flowId, result, entry⟩), { h with flows := h.flows.remove j.flowId })
  | .release err =>
    (j.close (.error err), { h with flows := h.flows.setBusy j.flowId false })
  | .unclaim r =>
    (j.enter (.done r), { h with flows := h.flows.unclaim (j.claimed.getD "") })
  | .done r => (j.enter (.done r), h)

/-- How many steps are left at most. -/
def rank (j : Job) : Nat := j.stage.rank

/-- The answer, once the call is over. -/
def answer? (j : Job) : Option (Except HubError FlowResponse) :=
  match j.stage with
  | .done r => some r
  | _ => none

/-- Steps at most `fuel` times, until the call is over or is where `stop` says. -/
def runUntil (stop : Job → Bool) : Nat → Job → Hub → Job × Hub
  | 0, j, h => (j, h)
  | fuel + 1, j, h =>
    if j.answer?.isSome || stop j then (j, h) else
    let (j, h) := j.step h
    runUntil stop fuel j h

/-- Runs the call to its end. -/
def run (j : Job) (h : Hub) : Except HubError FlowResponse × Hub :=
  let (j, h) := runUntil (fun _ => false) j.rank j h
  (j.answer?.getD (.error (flowNotFound j.flowId)), h)

/-! ### Every call ends -/

section Rank

variable (j : Job)

@[simp] theorem stage_enter (s : Stage) : (j.enter s).stage = s := rfl

@[simp] theorem rank_enter (s : Stage) : (j.enter s).rank = s.rank := rfl

theorem rank_close_le (r : Except HubError FlowResponse) : (j.close r).rank ≤ 1 := by
  unfold close
  split <;> simp [Stage.rank]

theorem rank_settle_le (f : Flow) (r : Except HubError Flow.Result) : (j.settle f r).rank ≤ 5 := by
  unfold settle
  split
  · simp [Stage.rank]
  · simp [Stage.rank]
  · simp [Stage.rank]
  · split
    · exact Nat.le_trans (rank_close_le j _) (by decide)
    · simp [Stage.rank]

theorem rank_advance_le (p : Flow.Phase) : (j.advance p).rank ≤ 6 + p.rank := by
  cases p with
  | done f r => exact Nat.le_trans (rank_settle_le j f r) (by omega)
  | _ => simp [advance, Stage.rank]

theorem rank_advance_lt {n : Nat} {p : Flow.Phase} (h : p.rank < n ∨ p.rank = 0) :
    (j.advance p).rank < 6 + n := by
  rcases h with h | h
  · exact Nat.lt_of_le_of_lt (rank_advance_le j p) (by omega)
  · obtain ⟨f, r, rfl⟩ := Flow.Phase.eq_done_of_rank h
    exact Nat.lt_of_le_of_lt (rank_settle_le j f r) (by omega)

theorem rank_step_lt (h : Hub) (hj : 0 < j.rank) : (j.step h).1.rank < j.rank := by
  have close := rank_close_le j
  obtain ⟨id, claimed, stage⟩ := j
  cases stage with
  | claim a =>
    simp only [step]
    split
    · simp [rank, enter, Stage.rank]
    · exact rank_advance_lt _ (Or.inl (Nat.lt_succ_of_le (Flow.Phase.rank_le _)))
  | begin input =>
    simp only [step]
    split
    · simp [rank, enter, Stage.rank]
    · next p _ =>
      split
      · simp [rank, enter, Stage.rank]
      · exact rank_advance_lt _ (Or.inl (Nat.lt_succ_of_le (Flow.Phase.rank_le _)))
  | run p =>
    refine rank_advance_lt _ ?_
    rcases Nat.eq_zero_or_pos p.rank with hp | hp
    · obtain ⟨f, r, rfl⟩ := Flow.Phase.eq_done_of_rank hp
      exact Or.inr rfl
    · exact Or.inl (Flow.Phase.rank_step_lt h p hp)
  | check n => simp only [step]; repeat' split
               all_goals simp [rank, enter, Stage.rank]
  | store n e => simp only [step]; split <;> simp [rank, enter, Stage.rank]
  | recheck n err => simp only [step]; split <;> simp [rank, enter, Stage.rank]
  | announce n e => simp [step, rank, enter, Stage.rank]
  | register f form => exact Nat.lt_succ_of_le (close _)
  | finish result entry => exact Nat.lt_succ_of_le (close _)
  | release err => exact Nat.lt_succ_of_le (close _)
  | unclaim r => simp [step, rank, enter, Stage.rank]
  | done r => simp [rank, Stage.rank] at hj

end Rank

end Job

end HomeHub
