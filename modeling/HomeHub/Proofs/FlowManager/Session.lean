import HomeHub.FlowManager.Calls

/-!
# Sessions of the flow manager

A `Session` is a hub together with all calls that were made to its flow manager. Calls interleave
in any order: an `Action` makes a call, lets one of the calls do its next thing (`Job.step`), or
changes something around them. Showing, listing and dropping a flow are single accesses to the table
and so single actions.

The log keeps what the calls did, in order. So a statement can speak of what happened to a flow and
not only of where it stands.
-/

namespace HomeHub

/-- Something that a call does for its flow. -/
inductive Deed where
  | started (source : Source) (announcement : Option Announcement)
  | described (t : Target) (reply : Except ContactError DeviceInfo)
  | loggedIn (t : Target) (reply : Except ContactError Unit)
  /-- Registers the flow with this form. -/
  | shown (form : Flow.Result)
  | stored (e : Entry)
  /-- Gets the event of a new entry published. -/
  | announced (e : Entry)
  /-- Settles the answer. A claim may still have to be given up after that. -/
  | answered (r : Except HubError FlowResponse)

/-- A deed, the number of the call that did it, and the flow that the call is about. -/
structure Note where
  call : Nat
  flow : Uuid
  deed : Deed

/-- The answer, once it is settled. -/
def Stage.settled? : Stage → Option (Except HubError FlowResponse)
  | .unclaim r | .done r => some r
  | _ => none

namespace Job

/-- What the next thing that a call does shows to others, its answer apart. -/
def act? (j : Job) (h : Hub) : Option Deed :=
  match j.stage with
  | .run (.describe f) => some (.described f.describeTarget (h.describe f.describeTarget).1)
  | .run (.login _ t) => some (.loggedIn t (h.login t).1)
  | .register _ form => some (.shown form)
  | .store _ e => (h.createEntry e).1.toOption.map .stored
  | .announce _ e =>
    (h.publish .configEntryCreated none (createdData e)).1.toOption.map fun _ => .announced e
  | _ => none

/-- The answer, if the next thing that a call does settles it. -/
def reply? (j : Job) (h : Hub) : Option Deed :=
  match j.stage.settled? with
  | some _ => none
  | none => (j.step h).1.stage.settled?.map .answered

def deeds (j : Job) (h : Hub) : List Deed := (j.act? h).toList ++ (j.reply? h).toList

end Job

/-- The hub after something else than the flow manager was at work: anything may have changed but
the flows, and no identifier is drawn a second time. -/
def Hub.aside (h : Hub) (change : Hub → Hub) : Hub :=
  let h' := change h
  { h' with
    flows := h.flows
    supply := { h'.supply with drawn := max h.supply.drawn h'.supply.drawn } }

/-- A hub to which nothing happened yet. -/
def Hub.unused (network : Network) : Hub :=
  { supply := ⟨0, ⟨0, 0⟩⟩, publisher := default, network }

/-- One thing that happens in a session. -/
inductive Action where
  | init (source : Source) (announcement : Option Announcement)
  | configure (flow : Uuid) (input : Json)
  | get (flow : Uuid)
  | list
  | abort (flow : Uuid)
  /-- The call of this number does its next thing. -/
  | advance (call : Nat)
  /-- The nodes answer differently from now on. -/
  | nodes (network : Network)
  /-- Anything else happens to the hub. -/
  | elsewhere (change : Hub → Hub)

structure Session where
  hub : Hub
  /-- All calls that start a flow or submit a form, by the time they were made. -/
  jobs : List Job := []
  /-- What they did, oldest first. -/
  log : List Note := []

namespace Session

/-- A session that begins with no flows in progress. -/
def start (h : Hub) : Session := { hub := { h with flows := {} } }

def hubAfter (s : Session) : Action → Hub
  | .init source announcement => (s.hub.initJob source announcement).2
  | .abort f => (s.hub.abortFlow f).2
  | .advance i =>
    match s.jobs[i]? with
    | some j => (j.step s.hub).2
    | none => s.hub
  | .nodes network => { s.hub with network }
  | .elsewhere change => s.hub.aside change
  | _ => s.hub

def jobsAfter (s : Session) : Action → List Job
  | .init source announcement => s.jobs ++ [(s.hub.initJob source announcement).1]
  | .configure f input => s.jobs ++ [Hub.configureJob f input]
  | .advance i =>
    match s.jobs[i]? with
    | some j => s.jobs.set i (j.step s.hub).1
    | none => s.jobs
  | _ => s.jobs

/-- What an action adds to the log. -/
def notes (s : Session) : Action → List Note
  | .init source announcement =>
    [⟨s.jobs.length, (s.hub.initJob source announcement).1.flowId, .started source announcement⟩]
  | .advance i =>
    match s.jobs[i]? with
    | some j => (j.deeds s.hub).map fun d => ⟨i, j.flowId, d⟩
    | none => []
  | _ => []

def step (s : Session) (a : Action) : Session where
  hub := s.hubAfter a
  jobs := s.jobsAfter a
  log := s.log ++ s.notes a

def run (s : Session) (as : List Action) : Session := as.foldl step s

/-- What the calls about a flow did, oldest first. -/
def deeds (s : Session) (f : Uuid) : List Deed := (s.log.filter (·.flow = f)).map (·.deed)

/-- The registration of a flow. -/
def registered (s : Session) (f : Uuid) : Option InProgress := s.hub.flows.flows.get? f

@[simp] theorem run_nil (s : Session) : s.run [] = s := rfl

theorem run_cons (s : Session) (a : Action) (as : List Action) :
    s.run (a :: as) = (s.step a).run as := rfl

theorem run_append (s : Session) (as bs : List Action) :
    s.run (as ++ bs) = (s.run as).run bs := List.foldl_append

theorem run_concat (s : Session) (as : List Action) (a : Action) :
    s.run (as ++ [a]) = (s.run as).step a := run_append s as [a]

@[simp] theorem step_log (s : Session) (a : Action) : (s.step a).log = s.log ++ s.notes a := rfl

/-- What a run adds to the log. -/
def added (s : Session) (as : List Action) : List Note := (s.run as).log.drop s.log.length

theorem log_run (s : Session) (as : List Action) : (s.run as).log = s.log ++ s.added as := by
  have grows : ∃ l, (s.run as).log = s.log ++ l := by
    induction as generalizing s with
    | nil => exact ⟨[], (List.append_nil _).symm⟩
    | cons a as ih =>
      obtain ⟨l, hl⟩ := ih (s.step a)
      exact ⟨s.notes a ++ l, by rw [run_cons, hl, step_log, List.append_assoc]⟩
  obtain ⟨l, hl⟩ := grows
  rw [added, hl, List.drop_left]

theorem added_cons (s : Session) (a : Action) (as : List Action) :
    s.added (a :: as) = s.notes a ++ (s.step a).added as := by
  have h := log_run s (a :: as)
  rw [run_cons, log_run, step_log, List.append_assoc] at h
  exact (List.append_cancel_left h).symm

theorem added_append (s : Session) (as bs : List Action) :
    s.added (as ++ bs) = s.added as ++ (s.run as).added bs := by
  have h := log_run s (as ++ bs)
  rw [run_append, log_run, log_run, List.append_assoc] at h
  exact (List.append_cancel_left h).symm

/-- Whatever is added to the log is added by one action of the run. -/
theorem mem_added {s : Session} {as : List Action} {n : Note} :
    n ∈ s.added as ↔ ∃ bs a cs, as = bs ++ a :: cs ∧ n ∈ (s.run bs).notes a := by
  induction as generalizing s with
  | nil => simp [added]
  | cons a as ih =>
    rw [added_cons, List.mem_append, ih]
    constructor
    · rintro (hn | ⟨bs, b, cs, rfl, hn⟩)
      · exact ⟨[], a, as, rfl, hn⟩
      · exact ⟨a :: bs, b, cs, rfl, hn⟩
    · rintro ⟨bs, b, cs, has, hn⟩
      cases bs with
      | nil =>
        cases has
        exact .inl hn
      | cons c bs =>
        cases has
        exact .inr ⟨bs, b, cs, rfl, hn⟩

/-- An action lets only the call of its number do something. -/
theorem step_advance {s : Session} {i : Nat} {j : Job} (hj : s.jobs[i]? = some j) :
    s.step (.advance i) =
      { hub := (j.step s.hub).2
        jobs := s.jobs.set i (j.step s.hub).1
        log := s.log ++ (j.deeds s.hub).map fun d => ⟨i, j.flowId, d⟩ } := by
  simp only [step, hubAfter, jobsAfter, notes, hj]

theorem step_advance_none {s : Session} {i : Nat} (hj : s.jobs[i]? = none) :
    s.step (.advance i) = s := by
  simp only [step, hubAfter, jobsAfter, notes, hj, List.append_nil]

/-- Every host is a node with a password. -/
def lockedNode : Network where
  hosts := .empty
  others := { info := some { name := "desk", usesPassword := true }, password := "pw" }

/-- A user flow and a call that takes its form up to the node. -/
def submitting (host : String) : List Action :=
  [.init .user none, .advance 0, .configure (.generated 0) (.record [("host", .str host)]),
    .advance 1]

end Session

end HomeHub
