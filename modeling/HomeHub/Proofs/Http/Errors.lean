import HomeHub.Http.Api
import HomeHub.Proofs.FlowManager.Failure
import HomeHub.Proofs.FlowManager.Session

/-!
# Requests that fail

While a request is served, nodes answer differently from one moment to the next, and any query of
the entry store may fail. `Hub.serveAmid` serves a request so. A response of a client or server error
tells that nothing has changed: `Hub.failed_request_changes_nothing`.
-/

namespace HomeHub

open Http

namespace Http

/-- The form that a request submits. -/
def Request.form (r : Request) (id : String) : Except Response (Uuid × Json) := do
  let id ← pathText id
  let input ← r.decode Json.Reader.value
  return (← identifier id, input)

/-- The call of the flow manager that a request makes, if it starts a flow or submits a form. -/
def Request.call? (r : Request) : Option (Hub → Job × Hub) :=
  match r.method, Route.ofPath? r.path with
  | .post, some .flows =>
    (r.decode NewFlow.shape.read).toOption.map fun new h => h.initJob new.source new.announcement
  | .post, some (.flow id) =>
    (r.form id).toOption.map fun form h => (Hub.configureJob form.1 form.2, h)
  | _, _ => none

end Http

namespace Hub

/-- Serves a request while the conditions change: those of number `k` hold for the access of a call
that leaves it `k` more at most. -/
def serveAmid (h : Hub) (c : Nat → Conditions) (r : Request) : Response × Hub :=
  match r.call? with
  | some call =>
    let (j, h) := call h
    let (j, h) := j.runAmid c j.rank h
    (.ofResult (j.answer?.getD (.error (Job.flowNotFound j.flowId))), h)
  | none => (h.under (c 0)).serve r

variable {h : Hub} {r : Request}

theorem serve_route {route : Route} (hroute : Route.ofPath? r.path = some route)
    (hm : r.method ≠ .head) : h.serve r = h.respond r r.method route := by
  unfold serve
  rw [hroute]
  dsimp only
  split
  · next hhead => exact absurd hhead hm
  · rfl

theorem serve_post {route : Route} (hm : r.method = .post)
    (hroute : Route.ofPath? r.path = some route) : h.serve r = h.respond r .post route := by
  rw [serve_route hroute (by rw [hm]; nofun), hm]

/-- Where nothing is served, and where the body is left out, nothing changes. -/
theorem snd_serve_of_head (hm : r.method = .head) : (h.serve r).2 = h := by
  unfold serve
  split
  · rfl
  · rw [hm]

theorem snd_serve_of_none (hroute : Route.ofPath? r.path = none) : (h.serve r).2 = h := by
  unfold serve
  rw [hroute]

theorem serveNewFlow_eq (h : Hub) (r : Request) :
    h.serveNewFlow r = (r.decode NewFlow.shape.read).map fun new =>
      ((.ofResult (h.initFlow new.source new.announcement).1 : Response),
        (h.initFlow new.source new.announcement).2) := by
  unfold serveNewFlow
  cases r.decode NewFlow.shape.read <;> rfl

theorem serveForm_eq (h : Hub) (id : String) (r : Request) :
    h.serveForm id r = (r.form id).map fun form =>
      ((.ofResult (h.configureFlow form.1 form.2).1 : Response),
        (h.configureFlow form.1 form.2).2) := by
  unfold serveForm Request.form
  cases pathText id with
  | error refused => rfl
  | ok id =>
    cases r.decode Json.Reader.value with
    | error refused => rfl
    | ok input =>
      simp only [bind, Except.bind]
      cases identifier id <;> rfl

/-- What a request is answered that makes a call. -/
theorem serve_of_call {call : Hub → Job × Hub} (hc : r.call? = some call) :
    h.serve r = (.ofResult ((call h).1.run (call h).2).1, ((call h).1.run (call h).2).2) := by
  unfold Request.call? at hc
  split at hc
  · next hm hroute =>
    rw [serve_post hm hroute, respond, serveNewFlow_eq]
    cases hdecode : r.decode NewFlow.shape.read with
    | error refused => rw [hdecode] at hc; cases hc
    | ok new => rw [hdecode] at hc; cases hc; rfl
  · next id hm hroute =>
    rw [serve_post hm hroute, respond, serveForm_eq]
    cases hform : r.form id with
    | error refused => rw [hform] at hc; cases hc
    | ok form => rw [hform] at hc; cases hc; rfl
  · cases hc

/-- A call leaves the conditions as they are until it begins. -/
theorem conditions_of_call {call : Hub → Job × Hub} (hc : r.call? = some call) (h : Hub) :
    (call h).2.conditions = h.conditions := by
  unfold Request.call? at hc
  split at hc
  · obtain ⟨⟨source, announcement⟩, -, rfl⟩ := Option.map_eq_some_iff.1 hc
    cases source <;> cases announcement <;> rfl
  · obtain ⟨form, -, rfl⟩ := Option.map_eq_some_iff.1 hc
    rfl
  · cases hc

/-- If the conditions stay as they are, a request is served as usual. -/
theorem serveAmid_conditions (h : Hub) (r : Request) :
    h.serveAmid (fun _ => h.conditions) r = h.serve r := by
  unfold serveAmid
  split
  · next call hc =>
    rw [serve_of_call hc, ← conditions_of_call hc h]
    obtain ⟨j, h'⟩ := call h
    simp only [Job.runAmid_conditions]
    rfl
  · rfl

/-! ### Failures -/

/-- A call has changed nothing when it begins. -/
theorem tentative_of_call {call : Hub → Job × Hub} (hc : r.call? = some call) (h : Hub) :
    (call h).1.Tentative h (call h).2 := by
  unfold Request.call? at hc
  split at hc
  · obtain ⟨⟨source, announcement⟩, -, rfl⟩ := Option.map_eq_some_iff.1 hc
    have drawn : h.Unchanged h.draw.2 := ⟨rfl, rfl, rfl, rfl, rfl⟩
    cases source with
    | user => cases announcement <;> trivial
    | zeroconf =>
      cases announcement with
      | none => exact drawn
      | some a => exact ⟨rfl, drawn⟩
  · obtain ⟨form, -, rfl⟩ := Option.map_eq_some_iff.1 hc
    exact ⟨rfl, .refl h⟩
  · cases hc

theorem unchanged_deleteEntry {id : Uuid} {err : HubError}
    (failed : (h.deleteEntry id).1 = .error err) : h.Unchanged (h.deleteEntry id).2 where
  flows := rfl
  rows := congrArg Repository.rows (Repository.deleteEntry_of_error failed)
  states := rfl
  loaded := rfl
  publisher := rfl

theorem unchanged_abortFlow {id : Uuid} {err : HubError}
    (failed : (h.abortFlow id).1 = .error err) : h.Unchanged (h.abortFlow id).2 := by
  unfold abortFlow at failed ⊢
  split
  · next hp => simp only [hp] at failed; cases failed
  · exact .refl h

theorem error_of_ofResult {α : Type} [ToJson α] {x : Except HubError α}
    (failed : 400 ≤ (Response.ofResult x).status) : ∃ err, x = .error err := by
  cases x with
  | error err => exact ⟨err, rfl⟩
  | ok x => exact absurd (show 400 ≤ 200 from failed) (by decide)

theorem error_of_ofDone {x : Except HubError Unit} (failed : 400 ≤ (Response.ofDone x).status) :
    ∃ err, x = .error err := by
  cases x with
  | error err => exact ⟨err, rfl⟩
  | ok u => exact absurd (show 400 ≤ 204 from failed) (by decide)

theorem unchanged_orUnchanged {x : Except Response (Response × Hub)}
    (kept : ∀ p, x = .ok p → 400 ≤ p.1.status → h.Unchanged p.2)
    (failed : 400 ≤ (h.orUnchanged x).1.status) : h.Unchanged (h.orUnchanged x).2 := by
  cases x with
  | error refused => exact .refl h
  | ok p => exact kept p rfl failed

/-- Something is done at once with what an identifier in the path names. -/
theorem unchanged_identified (act : Uuid → Except HubError Unit × Hub)
    (kept : ∀ id err, (act id).1 = .error err → h.Unchanged (act id).2) {id : String}
    {p : Response × Hub}
    (hp : (do
      let (r, h) := act (← identifier (← pathText id))
      return (.ofDone r, h)) = Except.ok p)
    (failed : 400 ≤ p.1.status) : h.Unchanged p.2 := by
  cases htext : pathText id with
  | error refused => rw [htext] at hp; cases hp
  | ok text =>
    rw [htext] at hp
    cases hid : identifier text with
    | error refused => simp only [bind, Except.bind, hid] at hp; cases hp
    | ok id =>
      simp only [bind, Except.bind, hid] at hp
      cases hp
      obtain ⟨err, herr⟩ := error_of_ofDone failed
      exact kept id err herr

theorem snd_unchanged (h : Hub) (x : Except Response Response) : (h.unchanged x).2 = h := by
  cases x <;> rfl

/-- Of the requests that make no call only two change anything at all, each at once. -/
theorem unchanged_of_not_call (hc : r.call? = none) (failed : 400 ≤ (h.serve r).1.status) :
    h.Unchanged (h.serve r).2 := by
  cases hroute : Route.ofPath? r.path with
  | none => rw [snd_serve_of_none hroute]; exact .refl h
  | some route =>
  by_cases hhead : r.method = .head
  · rw [snd_serve_of_head hhead]
    exact .refl h
  have queried (x : Except Response Response) : h.Unchanged (h.unchanged x).2 := by
    rw [snd_unchanged]
    exact .refl h
  unfold Request.call? at hc
  rw [hroute] at hc
  rw [serve_route hroute hhead] at failed ⊢
  cases hm : r.method with
  | head => exact absurd hm hhead
  | get =>
    rw [hm] at failed
    cases route with
    | events => exact absurd (show 400 ≤ 200 from failed) (by decide)
    | entries => rw [respond]; exact queried _
    | entry id => rw [respond]; exact queried _
    | flow id => rw [respond]; exact queried _
    | state id => rw [respond]; exact queried _
    | _ => rw [respond]; exact .refl h
  | post =>
    rw [hm] at hc failed
    cases route with
    | flows =>
      rw [respond, serveNewFlow_eq] at failed ⊢
      cases hdecode : r.decode NewFlow.shape.read with
      | error refused => exact .refl h
      | ok new => simp [hdecode, Except.toOption] at hc
    | flow id =>
      rw [respond, serveForm_eq] at failed ⊢
      cases hform : r.form id with
      | error refused => exact .refl h
      | ok form => simp [hform, Except.toOption] at hc
    | _ => exact .refl h
  | delete =>
    rw [hm] at failed
    cases route with
    | entry id =>
      exact unchanged_orUnchanged (fun p hp => unchanged_identified h.deleteEntry
        (fun id err => unchanged_deleteEntry) hp) failed
    | flow id =>
      exact unchanged_orUnchanged (fun p hp => unchanged_identified h.abortFlow
        (fun id err => unchanged_abortFlow) hp) failed
    | _ => exact .refl h
  | other name => cases route <;> exact .refl h

/-- A response of a client or server error tells that nothing has changed, if nobody else stores
entries meanwhile: no flow, no entry, no state of an entity, and no event was published. Every form
can be submitted as before, then. -/
theorem failed_request_changes_nothing (h : Hub) (c : Nat → Conditions) (r : Request)
    (alone : ∀ k, (c k).faults.rival = false) (failed : 400 ≤ (h.serveAmid c r).1.status) :
    let after := (h.serveAmid c r).2
    h.Unchanged after ∧ ∀ d id input,
      ({ after with supply := h.supply, contacts := h.contacts }.under d).configureFlow id input =
        (h.under d).configureFlow id input := by
  intro after
  have unchanged : h.Unchanged after := by
    revert failed
    show 400 ≤ (h.serveAmid c r).1.status → h.Unchanged (h.serveAmid c r).2
    unfold serveAmid
    split
    · next call hc =>
      have begins := tentative_of_call hc h
      generalize call h = begun at begins
      obtain ⟨j, h'⟩ := begun
      intro failed
      obtain ⟨err, herr⟩ := error_of_ofResult failed
      obtain ⟨answer, hanswer⟩ :=
        Option.isSome_iff_exists.1 (j.answer?_runAmid c (Nat.le_refl _) h')
      rw [hanswer, Option.getD_some] at herr
      exact Job.unchanged_of_error alone begins (herr ▸ hanswer)
    · next hc => exact fun failed => (h.unchanged_under _).trans (unchanged_of_not_call hc failed)
  exact ⟨unchanged, fun d id input => by rw [unchanged.under_eq d]⟩

/-- Nothing can be stored, and when a call asks for the reason its query fails too. -/
def brokenStore (k : Nat) : Conditions where
  network := { hosts := .empty, others := { info := some ⟨"desk", false, "", "", ""⟩ } }
  faults := { create := some "disk full", find := if k = 5 then some "locked" else none }

/-- Submits the first form of the first flow. -/
def submitHost : Request where
  method := .post
  target := "/api/flows/" ++ (Uuid.generated 0).text
  body := "\x7b\"host\": \"10.0.0.1\"\x7d"
  isJson := true

/-- The node describes itself, the entry cannot be stored, and the flow shows its form again. -/
theorem failed_request_changes_nothing_unstored :
    let h := ((Hub.unused Session.lockedNode).initFlow .user none).2
    let served := h.serveAmid brokenStore submitHost
    served.1.status = 500 ∧ h.Unchanged served.2 ∧ (h.flows.flows.get? (.generated 0)).isSome := by
  have status : ((((Hub.unused Session.lockedNode).initFlow .user none).2).serveAmid brokenStore
      submitHost).1.status = 500 := by decide +kernel
  refine ⟨status, ?_, by decide +kernel⟩
  exact (failed_request_changes_nothing _ brokenStore submitHost (fun _ => rfl)
    (by rw [status]; decide)).1

end Hub

end HomeHub
