import HomeHub.FlowManager.Calls
import HomeHub.Proofs.Flow.Announced
import HomeHub.Proofs.FlowManager.Failure

/-!
# What a call leaves alone

A call that starts a flow or submits a form adds one entry of a node, or changes one, or leaves all
as they are. Of an entry that it changes it sets the host and the port, and a call about an announced
node gives its name to an entry without a unique id. `Rows.Touched` says so of the rows before and
after a call, however nodes answer and whatever fails in storage.
-/

namespace HomeHub

/-- The unique id of an entry after a call that was about an announced node, or was not. -/
def Entry.idAfter (e : Entry) : Option Announcement → Option String
  | some a => some (e.uniqueId.getD a.nodeName)
  | none => e.uniqueId

/-- What an entry keeps when a call changes it. -/
structure Entry.Keeps (announced : Option Announcement) (e e' : Entry) : Prop where
  id : e'.id = e.id
  domain : e'.domain = e.domain
  title : e'.title = e.title
  source : e'.source = e.source
  createdAt : e'.createdAt = e.createdAt
  uniqueId : e'.uniqueId = e.idAfter announced
  object : ∃ members, e'.data = .obj members
  data : ∀ key, key ≠ "host" → key ≠ "port" → e'.data.get? key = e.data.get? key

/-- What a call may make of the rows: the same, with one more entry of a node, or with one that was
changed. -/
inductive Rows.Touched (announced : Option Announcement) (before : Rows) : Rows → Prop where
  | same : Touched announced before before
  | added (e : Entry) : e.domain = nativeApiDomain → Touched announced before (before ++ [.ofEntry e])
  | changed {after : Rows} {e e' : Entry} :
      before.Changes after e e' → e.Keeps announced e' → Touched announced before after

/-- Keys are used once, and the rows of nodes store entries whose data are objects. -/
structure Rows.HoldObjects (rows : Rows) : Prop where
  keys : (rows.map (·.id)).Nodup
  nodes : ∀ r ∈ rows, r.domain = nativeApiDomain → ∃ e members, r.Stores e ∧ e.data = .obj members

namespace Rows.HoldObjects

variable {rows : Rows} {r : Row} {e : Entry}

theorem stores (store : rows.HoldObjects) (hr : r ∈ rows) (hdomain : r.domain = nativeApiDomain)
    (hread : r.read? = some e) : r.Stores e ∧ ∃ members, e.data = .obj members := by
  obtain ⟨e', members, hstores, hdata⟩ := store.nodes r hr hdomain
  cases hstores.read.symm.trans hread
  exact ⟨hstores, members, hdata⟩

end Rows.HoldObjects

/-! ### Changes of entries -/

namespace Flow

theorem Ground.ascending_updates (f : Flow) (g : Ground) : Pairs.Ascending (g.updates f) := by
  cases g with
  | announced a => exact List.pairwise_singleton _ _
  | described info =>
    have horder : compare "host" "port" = .lt := by decide
    exact List.pairwise_pair.2 horder

/-- A matching entry gets a new host and perhaps a new port. -/
theorem Ground.mem_updates {f : Flow} {g : Ground} {u : String × Json} (hu : u ∈ g.updates f) :
    u.2.Simple ∧ (u.1 = "host" ∨ u.1 = "port") := by
  cases g with
  | announced a =>
    rw [List.mem_singleton.1 hu]
    exact ⟨.str a.host, .inl rfl⟩
  | described info =>
    simp only [updates, List.mem_cons, List.not_mem_nil, or_false] at hu
    rcases hu with rfl | rfl
    · exact ⟨.str _, .inl rfl⟩
    · exact ⟨.port _, .inr rfl⟩

end Flow

/-- Setting the host, the port and the unique id keeps the rest. -/
theorem Entry.keeps_mergeData {e : Entry} {announced : Option Announcement} {uniqueId : Option String}
    {updates : List (String × Json)} (object : ∃ members, e.data = .obj members)
    (known : ∀ u ∈ updates, u.1 = "host" ∨ u.1 = "port") (id : uniqueId = e.idAfter announced) :
    e.Keeps announced { e.mergeData updates with uniqueId } where
  id := rfl
  domain := rfl
  title := rfl
  source := rfl
  createdAt := rfl
  uniqueId := id
  object := by
    obtain ⟨members, hdata⟩ := object
    exact ⟨_, by rw [mergeData, hdata]; rfl⟩
  data key hhost hport := by
    obtain ⟨members, hdata⟩ := object
    refine Json.get?_merge_of_forall hdata fun u hu => ?_
    rcases known u hu with h | h
    · rwa [h]
    · rwa [h]

/-! ### Steps of flows -/

namespace Flow.Phase

variable {announced : Option Announcement} {before rows : Rows}

/-- The entry is what a row stores, but for what a call may change. -/
def Revises (announced : Option Announcement) (rows : Rows) (e' : Entry) : Prop :=
  Json.ofText e'.data.text = .ok e'.data ∧ ∃ row ∈ rows, row.domain = nativeApiDomain ∧
    ∃ e, row.Stores e ∧ e.Keeps announced e'

/-- Until the step is over nothing has changed, and if it ends with a form nothing has then. -/
def Frames (announced : Option Announcement) (before rows : Rows) : Phase → Prop
  | .findMatch _ (.announced a) | .listKnown _ a => rows = before ∧ announced = some a
  | .update _ e => rows = before ∧ Revises announced before e
  | .done _ (.ok (.abort _)) => before.Touched announced rows
  | _ => rows = before

theorem frames_create (f : Flow) : (create f).Frames announced before before := by
  unfold create
  split <;> rfl

theorem frames_afterMatch {f : Flow} {g : Ground} {found : Option Entry}
    (hg : ∀ a, g = .announced a → announced = some a)
    (hfound : ∀ e, found = some e → e.uniqueId = e.idAfter announced ∧
      ∃ row ∈ before, row.domain = nativeApiDomain ∧ row.Stores e ∧ ∃ members, e.data = .obj members) :
    (afterMatch f g found).Frames announced before before := by
  cases found with
  | none =>
    cases g with
    | announced a => exact ⟨rfl, hg a rfl⟩
    | described info =>
      simp only [afterMatch, proceed]
      split
      · rfl
      · exact frames_create f
  | some e =>
    obtain ⟨hid, row, hrow, hdomain, hstores, object⟩ := hfound e rfl
    simp only [afterMatch]
    split
    · exact .same
    · refine ⟨rfl, Json.ofText_merge hstores.data (g.ascending_updates f) fun u hu =>
        (Ground.mem_updates hu).1, row, hrow, hdomain, e, hstores, ?_⟩
      exact Entry.keeps_mergeData object (fun u hu => (Ground.mem_updates hu).2) hid

theorem frames_update {h : Hub} {f : Flow} {e' : Entry} (store : before.HoldObjects)
    (hrows : h.repository.rows = before) (hrev : Revises announced before e') :
    ((Phase.update f e').step h).1.Frames announced before
      ((Phase.update f e').step h).2.repository.rows := by
  obtain ⟨htext, row, hrow, hdomain, e, hstores, hkeeps⟩ := hrev
  subst hrows
  have hkey : row.id = e'.id.text := by rw [hstores.id, hkeeps.id]
  have htouched : h.repository.rows.Touched announced (h.updateEntry e').2.repository.rows := by
    rcases Repository.rows_updateEntry store.keys hrow hkey with hsame | hreplaces
    · rw [Hub.updateEntry]
      simp only [hsame]
      exact .same
    · exact .changed ⟨row, _, hreplaces, hdomain, hstores,
        hstores.revised hkeeps.id hkeeps.domain hkeeps.createdAt htext⟩ hkeeps
  simp only [step]
  split
  · next err h' heq =>
    have hunchanged := Hub.unchanged_updateEntry (congrArg Prod.fst heq)
    rw [heq] at hunchanged
    exact hunchanged.rows
  · next heq =>
    rw [heq] at htouched
    exact htouched

theorem frames_step {p : Phase} {h : Hub} (store : before.HoldObjects)
    (hp : p.Frames announced before h.repository.rows) :
    (p.step h).1.Frames announced before (p.step h).2.repository.rows := by
  cases p with
  | describe f => exact hp
  | login f t => exact hp
  | described f reply =>
    obtain rfl : h.repository.rows = before := hp
    cases reply with
    | error err => rfl
    | ok info => rfl
  | loggedIn f reply =>
    obtain rfl : h.repository.rows = before := hp
    cases reply with
    | error err => rfl
    | ok u => exact frames_create f
  | findMatch f g =>
    have hg : ∀ a, g = .announced a → announced = some a := by
      rintro a rfl
      exact hp.2
    obtain rfl : h.repository.rows = before := by
      cases g with
      | announced a => exact hp.1
      | described info => exact hp
    simp only [step]
    split
    · rfl
    · next found hfound =>
      -- what was found was read from a row of a node, and has the unique id that was looked for
      refine frames_afterMatch hg fun e he => ?_
      rw [he] at hfound
      obtain ⟨hid, row, hrow, hdomain, hread⟩ := Repository.exists_row_of_found hfound
      obtain ⟨hstores, object⟩ := store.stores hrow hdomain hread
      refine ⟨?_, row, hrow, hdomain, hstores, object⟩
      cases announced <;> simp [Entry.idAfter, hid]
  | update f e => exact frames_update store hp.1 hp.2
  | listKnown f a =>
    obtain ⟨hrows, rfl⟩ := hp
    subst hrows
    simp only [step]
    split
    · rfl
    · next entries hlist =>
      cases hfind : entries.find? (isAbout h.loaded a) with
      | none => rfl
      | some e =>
        obtain ⟨row, hrow, hdomain, hread⟩ :=
          (Repository.read?_of_ofDomain hlist).2 e (List.mem_of_find?_eq_some hfind)
        obtain ⟨hstores, object⟩ := store.stores hrow hdomain hread
        simp only [afterKnown]
        split
        · exact .same
        · next hnone =>
          refine ⟨rfl, Json.ofText_merge hstores.data (List.pairwise_singleton _ _) ?_, row, hrow,
            hdomain, e, hstores, Entry.keeps_mergeData object ?_ ?_⟩
          · exact List.forall_mem_singleton.2 (.str a.host)
          · exact List.forall_mem_singleton.2 (.inl rfl)
          · rw [Entry.idAfter, hnone]
            rfl
  | done f r => exact hp

end Flow.Phase

/-! ### Stages of calls -/

/-- The answer to a call is a form. -/
def FlowResponse.IsForm (r : FlowResponse) : Prop := ∃ form, r.result = .form form

/-- What has become of the rows at a stage of a call: nothing until something is stored, and nothing
at all if the answer is a form. -/
def Stage.Frames (announced : Option Announcement) (before rows : Rows) : Stage → Prop
  | .claim a => rows = before ∧ announced = some a
  | .run p => p.Frames announced before rows
  | .store _ e => rows = before ∧ e.domain = nativeApiDomain
  | .announce _ _ => before.Touched announced rows
  | .finish result _ => before.Touched announced rows ∧ ∀ form, result ≠ .form form
  | .unclaim r | .done r =>
    before.Touched announced rows ∧ ∀ answer, r = .ok answer → answer.IsForm → rows = before
  | _ => rows = before

namespace Stage

variable {announced : Option Announcement} {before rows : Rows}

/-- A call that is refused leaves the rows as they are. -/
theorem frames_refuse (err : HubError) :
    (Stage.done (.error err)).Frames announced before before :=
  ⟨.same, fun answer h => by cases h⟩

theorem frames_abort (touched : before.Touched announced rows) (reason : Flow.AbortReason) :
    (Stage.finish (.abort reason) none).Frames announced before rows :=
  ⟨touched, fun form h => by cases h⟩

end Stage

namespace Job

variable {announced : Option Announcement} {before rows : Rows} {j : Job} {h : Hub}

theorem stage_of_answer? {r : Except HubError FlowResponse} (hj : j.answer? = some r) :
    j.stage = .done r := by
  unfold answer? at hj
  split at hj
  · next hstage => rw [hstage, Option.some.inj hj]
  · cases hj

theorem frames_close {r : Except HubError FlowResponse} (touched : before.Touched announced rows)
    (shown : ∀ answer, r = .ok answer → answer.IsForm → rows = before) :
    (j.close r).stage.Frames announced before rows := by
  unfold close
  split <;> exact ⟨touched, shown⟩

theorem frames_fail (err : HubError) : (j.close (.error err)).stage.Frames announced before before :=
  frames_close .same fun answer h => by cases h

theorem frames_advance {p : Flow.Phase} (hp : p.Frames announced before rows) :
    (j.advance p).stage.Frames announced before rows := by
  unfold advance
  split
  · next f r =>
    unfold settle
    split
    · exact hp
    · exact hp
    · exact Stage.frames_abort hp _
    · obtain rfl : rows = before := hp
      split
      · exact frames_fail _
      · rfl
  · exact hp

theorem frames_submit (f : Flow) (input : Json) :
    (f.submit input).Frames announced before before := by
  unfold Flow.submit
  split
  · split
    · simp only [Flow.startUser]
      split <;> rfl
    · rfl
  · rfl
  · split
    · simp only [Flow.startAuthenticate]
      split <;> rfl
    · rfl

/-- A new entry is stored after the others, or none is. -/
theorem touched_createEntry {e : Entry} (hdomain : e.domain = nativeApiDomain)
    (alone : h.repository.faults.rival = false) :
    h.repository.rows.Touched announced (h.createEntry e).2.repository.rows := by
  rw [Hub.createEntry]
  rcases Repository.createEntry_cases alone e h.supply with ⟨err, heq⟩ | ⟨r', hinsert, heq⟩
  · rw [heq]
    exact .same
  · have hrows := (Rows.insert?_eq_some.1 (Repository.rows_of_insert hinsert)).2
    rw [heq]
    show h.repository.rows.Touched announced r'.rows
    rw [hrows]
    exact .added e hdomain

theorem frames_step (store : before.HoldObjects) (alone : h.repository.faults.rival = false)
    (hj : j.stage.Frames announced before h.repository.rows) :
    (j.step h).1.stage.Frames announced before (j.step h).2.repository.rows := by
  obtain ⟨id, claimed, stage⟩ := j
  cases stage with
  | claim a =>
    obtain ⟨hrows, hannounced⟩ := hj
    simp only [step]
    split
    · refine ⟨hrows ▸ .same, ?_⟩
      rintro answer ⟨⟩ ⟨form, ⟨⟩⟩
    · refine frames_advance ?_
      exact ⟨hrows, hannounced⟩
  | begin input =>
    obtain rfl : h.repository.rows = before := hj
    simp only [step]
    split
    · exact Stage.frames_refuse _
    · split
      · exact Stage.frames_refuse _
      · exact frames_advance (frames_submit _ input)
  | run p => exact frames_advance (Flow.Phase.frames_step store hj)
  | register f form =>
    obtain rfl : h.repository.rows = before := hj
    exact frames_close .same fun _ _ _ => rfl
  | check n =>
    obtain rfl : h.repository.rows = before := hj
    simp only [step]
    split
    · rfl
    · exact Stage.frames_abort .same _
    · split
      · rfl
      · next hbuild => exact ⟨rfl, (Flow.NewEntry.builds_of_build hbuild).1.domain⟩
  | store n e =>
    -- the only stage, beside the update of a matching entry, that changes the rows
    obtain ⟨rfl, hdomain⟩ := hj
    have touched : h.repository.rows.Touched announced (h.createEntry e).2.repository.rows :=
      touched_createEntry hdomain alone
    simp only [step]
    split
    · next heq =>
      rw [heq] at touched
      exact touched
    · next heq =>
      have hu := Hub.unchanged_createEntry alone (congrArg Prod.fst heq)
      rw [heq] at hu
      exact hu.rows
  | recheck n err =>
    obtain rfl : h.repository.rows = before := hj
    simp only [step]
    split
    · rfl
    · exact Stage.frames_abort .same _
    · rfl
  | announce n e => exact ⟨hj, fun form h => by cases h⟩
  | finish result entry =>
    obtain ⟨touched, noForm⟩ := hj
    refine frames_close touched ?_
    rintro answer ⟨⟩ ⟨form, hform⟩
    exact absurd hform (noForm form)
  | release err =>
    obtain rfl : h.repository.rows = before := hj
    exact frames_fail err
  | unclaim r => exact hj
  | done r => exact hj

/-- However nodes answer and whatever fails in storage meanwhile, all steps of a call together touch
the rows as one may. -/
theorem frames_runAmid {c : Nat → Conditions} (store : before.HoldObjects)
    (alone : ∀ k, (c k).faults.rival = false) (left : Nat)
    (hj : j.stage.Frames announced before h.repository.rows) :
    (j.runAmid c left h).1.stage.Frames announced before (j.runAmid c left h).2.repository.rows := by
  induction left generalizing j h with
  | zero => exact hj
  | succ left ih =>
    unfold runAmid
    split
    · exact hj
    · exact ih (frames_step store (alone left) hj)

end Job

/-! ### Calls -/

/-- A call that works on a flow. -/
inductive FlowCall where
  | init (source : Source) (announcement : Option Announcement)
  | configure (flow : Uuid) (input : Json)

namespace FlowCall

def begin : FlowCall → Hub → Job × Hub
  | .init source announcement, h => h.initJob source announcement
  | .configure flow input, h => (Hub.configureJob flow input, h)

/-- The node that the call is about, if that was announced. -/
def announced? : FlowCall → Option Announcement
  | .init .zeroconf announcement => announcement
  | _ => none

/-- Makes the call while the conditions change: those of number `k` hold for the access that leaves
it `k` more at most. -/
def runAmid (call : FlowCall) (c : Nat → Conditions) (h : Hub) : Except HubError FlowResponse × Hub :=
  let (j, h) := call.begin h
  let (j, h) := j.runAmid c j.rank h
  (j.answer?.getD (.error (Job.flowNotFound j.flowId)), h)

/-- Makes the call on its own. -/
def run : FlowCall → Hub → Except HubError FlowResponse × Hub
  | .init source announcement, h => h.initFlow source announcement
  | .configure flow input, h => h.configureFlow flow input

/-- If the conditions stay as they are, a call runs as usual. -/
theorem runAmid_conditions (call : FlowCall) (h : Hub) :
    call.runAmid (fun _ => h.conditions) h = call.run h := by
  cases call with
  | init source announcement =>
    have hbegin : (h.initJob source announcement).2.conditions = h.conditions := by
      cases source <;> cases announcement <;> rfl
    simp only [runAmid, begin, run, Hub.initFlow, Job.run, ← hbegin, Job.runAmid_conditions]
  | configure flow input =>
    simp only [runAmid, begin, run, Hub.configureFlow, Job.run, Job.runAmid_conditions]

theorem frames_begin (call : FlowCall) (h : Hub) :
    (call.begin h).1.stage.Frames call.announced? h.repository.rows
      (call.begin h).2.repository.rows := by
  cases call with
  | init source announcement =>
    cases source with
    | user => rfl
    | zeroconf =>
      cases announcement with
      | some a => exact ⟨rfl, rfl⟩
      | none => exact Stage.frames_refuse _
  | configure flow input => rfl

/-- A call adds one entry of a node, or changes one and of that only the host, the port and a
missing unique id, or changes none. It changes none if it answers with a form. -/
theorem touches_one_entry (call : FlowCall) (h : Hub) (c : Nat → Conditions)
    (store : h.repository.rows.HoldObjects) (alone : ∀ k, (c k).faults.rival = false) :
    let before := h.repository.rows
    let after := (call.runAmid c h).2.repository.rows
    before.Touched call.announced? after ∧
      ∀ answer, (call.runAmid c h).1 = .ok answer → answer.IsForm → after = before := by
  have framed := Job.frames_runAmid store alone (call.begin h).1.rank (call.frames_begin h)
  obtain ⟨r, hr⟩ := Option.isSome_iff_exists.1
    ((call.begin h).1.answer?_runAmid c (Nat.le_refl _) (call.begin h).2)
  have hanswer : (call.runAmid c h).1 = r := congrArg (Option.getD · _) hr
  rw [Job.stage_of_answer? hr] at framed
  rw [hanswer]
  exact framed

/-- The entry of an unknown device is changed when the lamp is announced at its address. -/
theorem touches_unnamed_lamp :
    let call := FlowCall.init .zeroconf (some Flow.lampFound)
    let before := Flow.unnamedLamp.repository.rows
    let after := (call.runAmid (fun _ => Flow.unnamedLamp.conditions) Flow.unnamedLamp).2.repository.rows
    before.HoldObjects ∧ before.Touched (some Flow.lampFound) after ∧ after ≠ before ∧
      after.map (fun row => (row.uniqueId, row.read?.bind Entry.host?)) =
        [(some "lamp", some "10.0.0.8")] := by
  intro call before after
  have store : before.HoldObjects := by
    refine ⟨List.nodup_singleton _, fun r hr _ => ?_⟩
    rw [List.mem_singleton.1 hr]
    exact ⟨Register.olderLamp, _, Row.stores_ofEntry Register.storable_olderLamp, rfl⟩
  have touched := (touches_one_entry call Flow.unnamedLamp (fun _ => Flow.unnamedLamp.conditions)
    store fun _ => rfl).1
  exact ⟨store, touched, by decide +kernel, by decide +kernel⟩

end FlowCall

end HomeHub
