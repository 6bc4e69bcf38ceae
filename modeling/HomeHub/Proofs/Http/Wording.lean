import HomeHub.Proofs.FlowManager.Wording
import HomeHub.Proofs.Http.Errors

/-!
# What responses tell of failures

A client never gets to read the text of a failure. Requests that are served by hubs which are alike
are answered alike, to the letter, and leave hubs behind that are alike (`Hub.Alike.serveAmid`). So
nothing of a text shows later either, in a form, a list or an entry
(`Hub.responses_eq_of_alike`).
-/

namespace HomeHub

open Http

/-- A failure outside the domain is answered without its text. -/
theorem HubError.Alike.ofError_eq {e e' : HubError} (h : e.Alike e') :
    Response.ofError e = Response.ofError e' := by
  cases h <;> rfl

namespace Concur

theorem ofResult_eq {α : Type} [ToJson α] {x x' : Except HubError α}
    (h : Concur HubError.Alike x x') : Response.ofResult x = Response.ofResult x' := by
  cases h with
  | ok x => rfl
  | error herr => exact herr.ofError_eq

theorem ofDone_eq {x x' : Except HubError Unit} (h : Concur HubError.Alike x x') :
    Response.ofDone x = Response.ofDone x' := by
  cases h with
  | ok x => rfl
  | error herr => exact herr.ofError_eq

end Concur

namespace Job

variable {j j' : Job} {h h' : Hub}

theorem Alike.getD_answer? (hj : j.Alike j') :
    Concur HubError.Alike (j.answer?.getD (.error (flowNotFound j.flowId)))
      (j'.answer?.getD (.error (flowNotFound j'.flowId))) := by
  have := hj.answer?
  rw [hj.flowId]
  generalize j.answer? = x, j'.answer? = x' at this
  cases this with
  | none => exact .error (.same _)
  | some hr => exact hr

theorem Alike.run (hj : j.Alike j') (ha : h.Alike h') :
    Concur HubError.Alike (j.run h).1 (j'.run h').1 ∧ (j.run h).2.Alike (j'.run h').2 := by
  have same (_ : Nat) : h.conditions.Alike h'.conditions := ⟨ha.network, ha.repository.faults⟩
  have ended := Alike.runAmid same j.rank hj ha
  rw [runAmid_conditions, runAmid_conditions] at ended
  unfold Job.run
  rw [← hj.rank]
  exact ⟨ended.1.getD_answer?, ended.2⟩

end Job

namespace Hub

/-- Serves requests, each under conditions of its own: those for which so many requests are left. -/
def serveAll (c : Nat → Nat → Conditions) (h : Hub) : List Request → List Response × Hub
  | [] => ([], h)
  | r :: rs =>
    let (response, h) := h.serveAmid (c rs.length) r
    let (responses, h) := serveAll c h rs
    (response :: responses, h)

variable {h h' : Hub}

theorem Alike.initJob (ha : h.Alike h') (source : Source) (a : Option Announcement) :
    (h.initJob source a).1.Alike (h'.initJob source a).1 ∧
      (h.initJob source a).2.Alike (h'.initJob source a).2 := by
  obtain ⟨fresh, hubs⟩ := ha.draw
  unfold Hub.initJob
  dsimp only
  rw [fresh]
  cases source with
  | user => exact ⟨.refl _, hubs⟩
  | zeroconf => cases a <;> exact ⟨.refl _, hubs⟩

theorem Alike.of_call {r : Request} {call : Hub → Job × Hub} (hc : r.call? = some call)
    (ha : h.Alike h') : (call h).1.Alike (call h').1 ∧ (call h).2.Alike (call h').2 := by
  unfold Request.call? at hc
  split at hc
  · obtain ⟨new, -, rfl⟩ := Option.map_eq_some_iff.1 hc
    exact ha.initJob ..
  · obtain ⟨form, -, rfl⟩ := Option.map_eq_some_iff.1 hc
    exact ⟨.refl _, ha⟩
  · cases hc

/-! ### Requests -/

/-- The identifier that a piece of a path gives. -/
def pathId (piece : String) : Except Response Uuid := do identifier (← pathText piece)

theorem serveEntries_eq (h : Hub) (r : Request) :
    h.serveEntries r = (r.field "domain").map fun
      | some domain => .ofResult (h.repository.ofDomain domain)
      | none => .ofResult h.repository.all := by
  unfold serveEntries
  cases r.field "domain" with
  | error refused => rfl
  | ok domain => cases domain <;> rfl

theorem serveEntry_eq (h : Hub) (piece : String) :
    h.serveEntry piece = (pathId piece).map fun id => .ofResult (h.repository.getEntry id) := by
  unfold serveEntry pathId
  cases pathText piece <;> rfl

theorem serveFlow_eq (h : Hub) (piece : String) :
    h.serveFlow piece = (pathId piece).map fun id => .ofResult (h.getFlow id) := by
  unfold serveFlow pathId
  cases pathText piece <;> rfl

theorem serveDeleteEntry_eq (h : Hub) (piece : String) :
    h.serveDeleteEntry piece = (pathId piece).map fun id =>
      ((.ofDone (h.deleteEntry id).1 : Response), (h.deleteEntry id).2) := by
  unfold serveDeleteEntry pathId
  cases pathText piece <;> rfl

theorem serveAbort_eq (h : Hub) (piece : String) :
    h.serveAbort piece = (pathId piece).map fun id =>
      ((.ofDone (h.abortFlow id).1 : Response), (h.abortFlow id).2) := by
  unfold serveAbort pathId
  cases pathText piece <;> rfl

/-- The requests are answered the same, and the hubs afterwards are alike. -/
def SameAnswer (p p' : Response × Hub) : Prop := p.1 = p'.1 ∧ p.2.Alike p'.2

/-- What a request needs is read first, or refused. -/
theorem Alike.unchanged {α : Type} (ha : h.Alike h') (x : Except Response α)
    {f f' : α → Response} (hf : ∀ a, f a = f' a) :
    SameAnswer (h.unchanged (x.map f)) (h'.unchanged (x.map f')) := by
  cases x with
  | ok a => exact ⟨hf a, ha⟩
  | error refused => exact ⟨rfl, ha⟩

theorem Alike.orUnchanged {α : Type} (ha : h.Alike h') (x : Except Response α)
    {f f' : α → Response × Hub} (hf : ∀ a, SameAnswer (f a) (f' a)) :
    SameAnswer (h.orUnchanged (x.map f)) (h'.orUnchanged (x.map f')) := by
  cases x with
  | ok a => exact hf a
  | error refused => exact ⟨rfl, ha⟩

theorem Alike.getFlow_eq (ha : h.Alike h') (id : Uuid) : h.getFlow id = h'.getFlow id := by
  unfold getFlow
  rw [ha.flows]

theorem Alike.listFlows_eq (ha : h.Alike h') : h.listFlows = h'.listFlows := by
  unfold listFlows
  rw [ha.flows]

theorem Alike.abortFlow (ha : h.Alike h') (id : Uuid) :
    (h.abortFlow id).1 = (h'.abortFlow id).1 ∧ (h.abortFlow id).2.Alike (h'.abortFlow id).2 := by
  unfold Hub.abortFlow
  rw [ha.flows]
  split
  · exact ⟨rfl, ha.setFlows rfl⟩
  · exact ⟨rfl, ha⟩

theorem Alike.serveState_eq (ha : h.Alike h') (entityId : String) :
    h.serveState entityId = h'.serveState entityId := by
  unfold serveState
  rw [ha.states]

theorem Alike.serveEvents (ha : h.Alike h') : SameAnswer h.serveEvents h'.serveEvents := by
  obtain ⟨bus, published, offered, refuses⟩ := ha.publisher
  unfold Hub.serveEvents
  rw [bus]
  exact ⟨rfl, { ha with publisher := ⟨rfl, published, offered, refuses⟩ }⟩

theorem Alike.respond (ha : h.Alike h') (r : Request) (m : Method) (route : Route) :
    SameAnswer (h.respond r m route) (h'.respond r m route) := by
  cases m with
  | get =>
    cases route with
    | entries =>
      rw [Hub.respond, Hub.respond, serveEntries_eq, serveEntries_eq]
      refine ha.unchanged _ fun domain => ?_
      cases domain with
      | some domain => exact (ha.repository.ofDomain domain).ofResult_eq
      | none => exact ha.repository.all.ofResult_eq
    | entry id =>
      rw [Hub.respond, Hub.respond, serveEntry_eq, serveEntry_eq]
      exact ha.unchanged _ fun id => (ha.repository.getEntry id).ofResult_eq
    | flows => exact ⟨congrArg Response.ofValue ha.listFlows_eq, ha⟩
    | flow id =>
      rw [Hub.respond, Hub.respond, serveFlow_eq, serveFlow_eq]
      exact ha.unchanged _ fun id => congrArg Response.ofResult (ha.getFlow_eq id)
    | states => exact ⟨congrArg (fun s : States => Response.ofValue s.all) ha.states, ha⟩
    | state id =>
      rw [Hub.respond, Hub.respond, ha.serveState_eq]
      cases h'.serveState id <;> exact ⟨rfl, ha⟩
    | events => exact ha.serveEvents
    | _ => exact ⟨rfl, ha⟩
  | post =>
    cases route with
    | flows =>
      rw [Hub.respond, Hub.respond, serveNewFlow_eq, serveNewFlow_eq]
      refine ha.orUnchanged _ fun new => ?_
      obtain ⟨jobs, hubs⟩ := ha.initJob new.source new.announcement
      obtain ⟨answers, after⟩ := jobs.run hubs
      exact ⟨answers.ofResult_eq, after⟩
    | flow id =>
      rw [Hub.respond, Hub.respond, serveForm_eq, serveForm_eq]
      refine ha.orUnchanged _ fun form => ?_
      obtain ⟨answers, after⟩ := (Job.Alike.refl (configureJob form.1 form.2)).run ha
      exact ⟨answers.ofResult_eq, after⟩
    | _ => exact ⟨rfl, ha⟩
  | delete =>
    cases route with
    | entry id =>
      rw [Hub.respond, Hub.respond, serveDeleteEntry_eq, serveDeleteEntry_eq]
      refine ha.orUnchanged _ fun id => ?_
      obtain ⟨answers, after⟩ := ha.deleteEntry id
      exact ⟨answers.ofDone_eq, after⟩
    | flow id =>
      rw [Hub.respond, Hub.respond, serveAbort_eq, serveAbort_eq]
      refine ha.orUnchanged _ fun id => ?_
      obtain ⟨answers, after⟩ := ha.abortFlow id
      exact ⟨congrArg Response.ofDone answers, after⟩
    | _ => exact ⟨rfl, ha⟩
  | _ => cases route <;> exact ⟨rfl, ha⟩

theorem Alike.serve (ha : h.Alike h') (r : Request) : SameAnswer (h.serve r) (h'.serve r) := by
  unfold Hub.serve
  split
  · exact ⟨rfl, ha⟩
  · next route _ =>
    split
    · exact ⟨congrArg Response.withoutBody (ha.respond r .get route).1, ha⟩
    · next m _ => exact ha.respond r r.method route

/-- Whatever fails while a request is served: if it fails in both worlds, nothing else counts. -/
theorem Alike.serveAmid (ha : h.Alike h') {c c' : Nat → Conditions} (hc : ∀ k, (c k).Alike (c' k))
    (r : Request) : SameAnswer (h.serveAmid c r) (h'.serveAmid c' r) := by
  unfold Hub.serveAmid
  split
  · next call hcall =>
    obtain ⟨jobs, hubs⟩ := ha.of_call hcall
    obtain ⟨ended, after⟩ := Job.Alike.runAmid hc (call h).1.rank jobs hubs
    dsimp only
    rw [← jobs.rank]
    exact ⟨ended.getD_answer?.ofResult_eq, after⟩
  · exact (ha.under (hc 0)).serve r

/-- Two worlds that differ in nothing but the texts of failures answer all requests the same, in
status and body: no response tells what was wrong in storage or with a node, and none that comes
later does. Lists of flows are the same where both worlds keep flows in one order, as `FlowTable`
does. -/
theorem responses_eq_of_alike (ha : h.Alike h') {c c' : Nat → Nat → Conditions}
    (hc : ∀ n k, (c n k).Alike (c' n k)) (rs : List Request) :
    (h.serveAll c rs).1 = (h'.serveAll c' rs).1 ∧
      (h.serveAll c rs).2.Alike (h'.serveAll c' rs).2 := by
  induction rs generalizing h h' with
  | nil => exact ⟨rfl, ha⟩
  | cons r rs ih =>
    obtain ⟨response, after⟩ := ha.serveAmid (hc rs.length) r
    obtain ⟨responses, ends⟩ := ih after
    exact ⟨List.cons_eq_cons.2 ⟨response, responses⟩, ends⟩

/-- The name of the only host leads nowhere while two requests are left, and afterwards nothing can
be stored. -/
def troubled (reason cause : String) (left _ : Nat) : Conditions where
  network := ⟨.empty, { info := some ⟨"desk", false, "", "", ""⟩
                        error := if left = 2 then some (.resolve "10.0.0.1" reason) else none }⟩
  faults := { create := some cause, update := some cause }

theorem alike_troubled (reason reason' cause cause' : String) (n k : Nat) :
    (troubled reason cause n k).Alike (troubled reason' cause' n k) where
  network := fun host => by
    refine ⟨rfl, ?_, rfl, .none⟩
    unfold troubled Network.behaviour
    dsimp only
    split
    · exact .some rfl
    · exact .none
  faults := ⟨rfl, rfl, rfl, rfl, rfl, rfl, rfl⟩

/-- The form comes back with an error first and then nothing can be stored, in both worlds. -/
theorem responses_eq_of_alike_troubled :
    let h := Hub.unused ⟨.empty, {}⟩
    let start : Request := ⟨.post, "/api/flows", "\x7b\x7d", true⟩
    let list : Request := ⟨.get, "/api/flows", "", false⟩
    let served (reason cause : String) :=
      (h.serveAll (troubled reason cause) [start, submitHost, submitHost, list]).1
    (served "no such host" "disk full").map (·.status) = [200, 200, 500, 200] ∧
      served "no such host" "disk full" = served "unreachable" "locked" := by
  intro h start list served
  refine ⟨by decide +kernel, ?_⟩
  have alike : h.Alike h :=
    ⟨rfl, ⟨rfl, rfl, rfl, fun _ => rfl⟩, rfl, ⟨rfl, rfl, rfl, rfl, rfl, rfl, rfl, rfl⟩, rfl,
      fun _ => ⟨rfl, .none, rfl, .none⟩, rfl, rfl⟩
  exact (responses_eq_of_alike alike
    (alike_troubled "no such host" "unreachable" "disk full" "locked") _).1

end Hub

end HomeHub
