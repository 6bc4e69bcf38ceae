import HomeHub.Loading
import HomeHub.Proofs.Entity.Ids
import HomeHub.Proofs.Entry.Register
import HomeHub.Proofs.Results
import HomeHub.Proofs.States.Writes
import HomeHub.Proofs.Table

/-!
# Loading visits each node once

A `Visit` is what loading makes of an entry whose data can be read: its node is contacted and replies.
One entry does to the hub what its visit says (`effects_loadEntry`), so loading does what the visits of
the listed entries say, one after another (`effects_loadAllAmid`), whatever the nodes reply and whichever
events are refused.
-/

namespace HomeHub

/-- What the entry of a node stores, if that can be read. -/
def Entry.nodeData? (e : Entry) : Option EntryData :=
  (Json.decode EntryData.shape.read e.data).toOption

structure Visit where
  entry : Entry
  data : EntryData
  reply : Except ContactError DeviceInfo

namespace Visit

def answered (v : Visit) : Bool := v.reply.toOption.isSome

def contact (v : Visit) : Contact := ⟨.deviceInfo, ⟨v.data.host, v.data.port, v.data.password⟩⟩

/-- The entry with what its node reported, if that answered. -/
def loaded? (v : Visit) : Option (Uuid × DeviceInfo) := v.reply.toOption.map (v.entry.id, ·)

/-- What the entity of the node is named after. -/
def name (v : Visit) : String := v.entry.uniqueId.getD v.entry.title

def statusId (v : Visit) : String := "binary_sensor." ++ slug v.name ++ "_status"

/-- The entity tells of the visit. -/
structure Shows (v : Visit) (e : Entity) : Prop where
  entityId : e.entityId = v.statusId
  friendlyName : e.friendlyName = v.entry.title ++ " status"
  state : e.state = if v.answered then .on else .unavailable
  host : e.attribute? "host" = some (.text v.data.host)
  port : e.attribute? "port" = some (.int v.data.port.toNat)

/-- The visits of some entries, when the nodes behave at contact `k` as `c k` says. -/
def ofEntries (c : Nat → Network) : Nat → List Entry → List Visit
  | _, [] => []
  | k, e :: r =>
    match e.nodeData? with
    | none => ofEntries c k r
    | some data => ⟨e, data, (c k).describe data.target⟩ :: ofEntries c (k + 1) r

/-- What visits have made of a hub: every node was contacted, the entries of those that answered are
loaded, every node has its entity, and entries are as they were. -/
structure Effects (visits : List Visit) (before after : Hub) : Prop where
  contacts : after.contacts = before.contacts ++ visits.map contact
  loaded : after.loaded =
    (visits.filterMap loaded?).foldl (fun t p => t.insert p.1 p.2) before.loaded
  states : ∃ es, List.Forall₂ Shows visits es ∧
    after.states = es.foldl (fun t e => t.insert e.entityId e) before.states
  repository : after.repository = before.repository

theorem Effects.cons {v : Visit} {visits : List Visit} {h h' h'' : Hub} (hv : Effects [v] h h')
    (hvisits : Effects visits h' h'') : Effects (v :: visits) h h'' where
  contacts := by rw [hvisits.contacts, hv.contacts, List.append_assoc]; rfl
  loaded := by
    rw [hvisits.loaded, hv.loaded, ← List.foldl_append, ← List.filterMap_append]
    rfl
  states := by
    obtain ⟨es, hes, hstates⟩ := hv.states
    obtain ⟨es', hes', hstates'⟩ := hvisits.states
    refine ⟨es ++ es', List.rel_append hes hes', ?_⟩
    rw [hstates', hstates, List.foldl_append]
  repository := hvisits.repository.trans hv.repository

end Visit

namespace Hub

/-- Loads entries while nodes come and go: from contact `k` on they behave as `c k` says, up to the next
contact. -/
def loadAllAmid (c : Nat → Network) (h : Hub) : List Entry → Nat × Hub
  | [] => (0, { h with network := c h.contacts.length })
  | e :: r =>
    let (answered, h) := { h with network := c h.contacts.length }.loadEntry e
    let (n, h) := h.loadAllAmid c r
    (n + answered.toNat, h)

/-- Loads the entries of all nodes while nodes come and go. -/
def loadEntriesAmid (c : Nat → Network) (h : Hub) : Except HubError Nat × Hub :=
  match h.repository.ofDomain nativeApiDomain with
  | .error err => (.error err, h)
  | .ok entries =>
    let (n, h) := h.loadAllAmid c entries
    (.ok n, h)

/-- The hub with only some of its stored rows. -/
def keeping (p : Row → Bool) (h : Hub) : Hub :=
  { h with repository := { h.repository with rows := h.repository.rows.filter p } }

end Hub

/-! ### The entity of a node -/

theorem Visit.splitEntityId?_statusId (v : Visit) : (splitEntityId? v.statusId).isSome := by
  have hobject : isIdPart (slug v.name ++ "_status").toList = true := by
    refine isIdPart_of_letters (by simp) fun c hc => ?_
    rw [String.toList_append] at hc
    rcases List.mem_append.1 hc with hc | hc
    · exact of_mem_slug hc
    · have hall : "_status".toList.all (fun c => isSlugLetter c || c == '_') = true := by decide +kernel
      simpa using List.all_eq_true.1 hall c hc
  have hid : v.statusId = "binary_sensor" ++ "." ++ (slug v.name ++ "_status") := by
    refine String.toList_inj.1 ?_
    simp [statusId]
  rw [hid, splitEntityId?_append (by decide) hobject]
  rfl

/-- The entity of a node is always well-formed. -/
theorem statusEntity_ok (v : Visit) (fresh : Uuid) (now : Timestamp) :
    ∃ e, statusEntity v.entry v.data v.reply.toOption fresh now = .ok e ∧ v.Shows e := by
  have hvalid := v.splitEntityId?_statusId
  rw [Visit.statusId, Visit.name] at hvalid
  obtain ⟨entry, data, reply⟩ := v
  simp only [statusEntity, Entity.Draft.build, Entity.validate, hvalid]
  refine ⟨_, rfl, rfl, rfl, rfl, ?_, ?_⟩
  all_goals
    refine (Pairs.get?_ofList ?_ _).trans ?_
    · cases reply with
      | error err => exact show ["host", "port"].Nodup by decide
      | ok info => exact show ["host", "port", "version", "model"].Nodup by decide
    · rfl

namespace Hub

variable {h : Hub} {e : Entry} {data : EntryData}

theorem insertState_of_valid {s : Entity} (hs : (splitEntityId? s.entityId).isSome) :
    ∃ supply publisher, (h.insertState s).2 =
      { h with supply, publisher, states := h.states.insert s.entityId s } := by
  simp only [insertState, States.insertEntity, Entity.validate, hs]
  exact ⟨_, _, rfl⟩

/-- An entry whose data cannot be read is passed over. -/
theorem loadEntry_of_unreadable (he : e.nodeData? = none) : h.loadEntry e = (false, h) := by
  rw [loadEntry]
  cases hdata : Json.decode EntryData.shape.read e.data with
  | error err => rfl
  | ok data => cases he.symm.trans (toOption_eq_some_iff.2 hdata)

/-- The entity of the node is stored, whether its event is refused or not. -/
theorem setStatus_eq (h : Hub) (e : Entry) (data : EntryData) (reply : Except ContactError DeviceInfo) :
    ∃ s supply publisher, Visit.Shows ⟨e, data, reply⟩ s ∧ h.setStatus e data reply.toOption =
      { h with supply, publisher, states := h.states.insert s.entityId s } := by
  let v : Visit := ⟨e, data, reply⟩
  obtain ⟨s, hs, hshows⟩ := statusEntity_ok v h.draw.1 h.draw.2.supply.now
  have hvalid : (splitEntityId? s.entityId).isSome := hshows.entityId ▸ v.splitEntityId?_statusId
  obtain ⟨supply, publisher, heq⟩ := insertState_of_valid (h := h.draw.2) hvalid
  have hset : h.setStatus e data reply.toOption = (h.draw.2.insertState s).2 := by
    simp only [setStatus]
    rw [hs]
  exact ⟨s, supply, publisher, hshows, hset.trans heq⟩

/-- Loading an entry does what its visit says. -/
theorem effects_loadEntry (he : e.nodeData? = some data) :
    let v : Visit := ⟨e, data, h.network.describe data.target⟩
    (h.loadEntry e).1 = v.answered ∧ Visit.Effects [v] h (h.loadEntry e).2 := by
  simp only [loadEntry, toOption_eq_some_iff.1 he, describe]
  cases hreply : h.network.describe data.target with
  | error err =>
    obtain ⟨s, supply, publisher, hshows, heq⟩ := setStatus_eq
      { h with contacts := h.contacts ++ [⟨.deviceInfo, data.target⟩] } e data (.error err)
    rw [Except.toOption] at heq
    refine ⟨rfl, ?_⟩
    simp only [heq]
    exact ⟨rfl, rfl, ⟨[s], .cons hshows .nil, rfl⟩, rfl⟩
  | ok info =>
    obtain ⟨s, supply, publisher, hshows, heq⟩ := setStatus_eq
      { h with
        contacts := h.contacts ++ [⟨.deviceInfo, data.target⟩]
        loaded := h.loaded.insert e.id info } e data (.ok info)
    rw [Except.toOption] at heq
    refine ⟨rfl, ?_⟩
    simp only [heq]
    exact ⟨rfl, rfl, ⟨[s], .cons hshows .nil, rfl⟩, rfl⟩

/-! ### One entry after another -/

theorem network_loadEntry (h : Hub) (e : Entry) : (h.loadEntry e).2.network = h.network := by
  have hstatus (h : Hub) (data : EntryData) (info : Option DeviceInfo) :
      (h.setStatus e data info).network = h.network := by
    simp only [setStatus, draw, insertState]
    cases statusEntity e data info (Supply.draw h.supply).1 (Supply.draw h.supply).2.now with
    | error rule => rfl
    | ok s =>
      cases hs : h.states.insertEntity s with
      | error rule => simp only [hs]
      | ok r => simp only [hs]; rfl
  simp only [loadEntry, describe]
  cases Json.decode EntryData.shape.read e.data with
  | error err => rfl
  | ok data => cases hreply : h.network.describe data.target <;> simp only [hreply, hstatus]

theorem loadAllAmid_network (c : Nat → Network) (h : Hub) (n : Network) (entries : List Entry) :
    { h with network := n }.loadAllAmid c entries = h.loadAllAmid c entries := by
  cases entries <;> rfl

/-- Loading entries does what their visits say. -/
theorem effects_loadAllAmid (c : Nat → Network) (h : Hub) (entries : List Entry) :
    (h.loadAllAmid c entries).1 =
        (Visit.ofEntries c h.contacts.length entries).countP Visit.answered ∧
      Visit.Effects (Visit.ofEntries c h.contacts.length entries) h (h.loadAllAmid c entries).2 := by
  induction entries generalizing h with
  | nil => exact ⟨rfl, (List.append_nil _).symm, rfl, ⟨[], .nil, rfl⟩, rfl⟩
  | cons e r ih =>
    rw [loadAllAmid, Visit.ofEntries]
    cases he : e.nodeData? with
    | none =>
      simp only [loadEntry_of_unreadable he, loadAllAmid_network]
      exact ih h
    | some data =>
      obtain ⟨hanswered, heffects⟩ :=
        effects_loadEntry (h := { h with network := c h.contacts.length }) he
      have hnext : Visit.Effects [⟨e, data, (c h.contacts.length).describe data.target⟩] h
          ({ h with network := c h.contacts.length }.loadEntry e).2 :=
        ⟨heffects.contacts, heffects.loaded, heffects.states, heffects.repository⟩
      obtain ⟨hcount, hrest⟩ := ih ({ h with network := c h.contacts.length }.loadEntry e).2
      rw [hnext.contacts, List.length_append] at hcount hrest
      refine ⟨?_, hnext.cons hrest⟩
      rw [List.countP_cons]
      simp only [hcount, hanswered]
      cases Visit.answered _ <;> rfl

/-- Entries whose data cannot be read might as well not be there. -/
theorem loadAllAmid_filter (c : Nat → Network) (h : Hub) (entries : List Entry) :
    h.loadAllAmid c (entries.filter (·.nodeData?.isSome)) = h.loadAllAmid c entries := by
  induction entries generalizing h with
  | nil => rfl
  | cons e r ih =>
    cases he : e.nodeData? with
    | none =>
      rw [List.filter_cons_of_neg (by simp [he]), ih, loadAllAmid, loadEntry_of_unreadable he]
      simp only [loadAllAmid_network]
      rfl
    | some data =>
      rw [List.filter_cons_of_pos (by simp [he]), loadAllAmid, loadAllAmid]
      simp only [ih]

/-- Nodes that behave as they do now are loaded as at startup. -/
theorem loadAll_eq (h : Hub) (entries : List Entry) :
    h.loadAll entries = h.loadAllAmid (fun _ => h.network) entries := by
  induction entries generalizing h with
  | nil => rfl
  | cons e r ih =>
    rw [loadAll, loadAllAmid]
    simp only [ih, network_loadEntry]

/-! ### Entries are not looked at again -/

theorem setStatus_repository (h : Hub) (r : Repository) (e : Entry) (data : EntryData)
    (info : Option DeviceInfo) : { h with repository := r }.setStatus e data info =
      { h.setStatus e data info with repository := r } := by
  simp only [setStatus, draw]
  cases statusEntity e data info (Supply.draw h.supply).1 (Supply.draw h.supply).2.now with
  | error rule => rfl
  | ok s =>
    simp only [insertState]
    cases h.states.insertEntity s <;> rfl

theorem loadEntry_repository (h : Hub) (r : Repository) (e : Entry) :
    { h with repository := r }.loadEntry e =
      ((h.loadEntry e).1, { (h.loadEntry e).2 with repository := r }) := by
  simp only [loadEntry, describe]
  cases Json.decode EntryData.shape.read e.data with
  | error err => rfl
  | ok data =>
    cases hreply : h.network.describe data.target <;> simp only [hreply, ← setStatus_repository]

theorem loadAllAmid_repository (c : Nat → Network) (h : Hub) (r : Repository) (entries : List Entry) :
    { h with repository := r }.loadAllAmid c entries =
      ((h.loadAllAmid c entries).1, { (h.loadAllAmid c entries).2 with repository := r }) := by
  induction entries generalizing h with
  | nil => rfl
  | cons e rest ih =>
    have hentry := loadEntry_repository { h with network := c h.contacts.length } r e
    simp only [loadAllAmid, hentry, ih]

end Hub

/-! ### Loading -/

namespace Visit

variable {c : Nat → Network} {k : Nat} {entries : List Entry}

theorem map_ofEntries : (ofEntries c k entries).map (fun v => (v.entry, v.data)) =
    entries.filterMap fun e => e.nodeData?.map (e, ·) := by
  induction entries generalizing k with
  | nil => rfl
  | cons e r ih =>
    rw [ofEntries, List.filterMap_cons]
    cases e.nodeData? with
    | none => exact ih
    | some data => exact congrArg ((e, data) :: ·) ih

theorem map_name_ofEntries : (ofEntries c k entries).map name =
    (entries.filter (·.nodeData?.isSome)).map fun e => e.uniqueId.getD e.title := by
  induction entries generalizing k with
  | nil => rfl
  | cons e r ih =>
    rw [ofEntries, List.filter_cons]
    cases e.nodeData? with
    | none => exact ih
    | some data => exact congrArg (_ :: ·) ih

theorem reply_of_ofEntries {i : Nat} {v : Visit} (hv : (ofEntries c k entries)[i]? = some v) :
    v.reply = (c (k + i)).describe v.data.target := by
  induction entries generalizing k i with
  | nil => cases hv
  | cons e r ih =>
    rw [ofEntries] at hv
    cases he : e.nodeData? with
    | none =>
      rw [he] at hv
      exact ih hv
    | some data =>
      rw [he] at hv
      cases i with
      | zero =>
        cases hv
        rfl
      | succ i =>
        rw [ih hv]
        congr 2
        omega

theorem sublist_ofEntries :
    ((ofEntries c k entries).map fun v => v.entry.id).Sublist (entries.map Entry.id) := by
  induction entries generalizing k with
  | nil => exact .slnil
  | cons e r ih =>
    rw [ofEntries]
    cases e.nodeData? with
    | none => exact ih.cons _
    | some data => exact ih.cons_cons _

theorem mem_loaded?_iff {visits : List Visit} {id : Uuid} {info : DeviceInfo} :
    (id, info) ∈ visits.filterMap loaded? ↔ ∃ v ∈ visits, v.entry.id = id ∧ v.reply = .ok info := by
  simp only [List.mem_filterMap, loaded?, Option.map_eq_some_iff, toOption_eq_some_iff, Prod.mk.injEq]
  refine exists_congr fun v => and_congr_right fun _ => ?_
  constructor
  · rintro ⟨_, hreply, hid, rfl⟩
    exact ⟨hid, hreply⟩
  · exact fun ⟨hid, hreply⟩ => ⟨info, hreply, hid, rfl⟩

theorem sublist_loaded? (visits : List Visit) :
    ((visits.filterMap loaded?).map Prod.fst).Sublist (visits.map fun v => v.entry.id) := by
  induction visits with
  | nil => exact .slnil
  | cons v r ih =>
    rw [List.filterMap_cons, loaded?]
    cases v.reply with
    | error err => exact ih.cons _
    | ok info => exact ih.cons_cons _

end Visit

/-- Of rows that are picked, all that satisfy a property of their entries are still read. -/
theorem Rows.readAll?_filter {rows : Rows} {entries : List Entry} (h : readAll? rows = some entries)
    {p : Row → Bool} {q : Entry → Bool}
    (hp : ∀ r ∈ rows, p r = false → ∀ e, r.read? = some e → q e = false) :
    ∃ entries', readAll? (rows.filter p) = some entries' ∧ entries'.filter q = entries.filter q := by
  induction rows generalizing entries with
  | nil =>
    cases h
    exact ⟨[], rfl, rfl⟩
  | cons r rest ih =>
    simp only [readAll?, List.mapM_cons, Option.bind_eq_bind, Option.bind_eq_some_iff,
      Option.pure_def, Option.some.injEq] at h
    obtain ⟨e, he, es, hes, rfl⟩ := h
    obtain ⟨es', hes', hfilter⟩ := ih hes fun s hs => hp s (List.mem_cons_of_mem r hs)
    cases hpr : p r with
    | false =>
      refine ⟨es', by rw [List.filter_cons_of_neg (by simp [hpr]), hes'], ?_⟩
      rw [hfilter, List.filter_cons_of_neg (by simp [hp r List.mem_cons_self hpr e he])]
    | true =>
      refine ⟨e :: es', ?_, by rw [List.filter_cons, List.filter_cons, hfilter]⟩
      have hrest : (rest.filter p).mapM Row.read? = some es' := hes'
      rw [List.filter_cons_of_pos hpr, readAll?, List.mapM_cons, he, hrest]
      rfl

namespace Hub

/-- Rows that are not of nodes or whose data cannot be read have no part in loading. -/
theorem loadEntriesAmid_keeping (c : Nat → Network) (h : Hub) {entries : List Entry}
    (listed : h.repository.ofDomain nativeApiDomain = .ok entries) {p : Row → Bool}
    (hp : ∀ row ∈ h.repository.rows, p row = false → row.domain = nativeApiDomain →
      ∀ e, row.read? = some e → e.nodeData? = none) :
    (h.keeping p).loadEntriesAmid c =
      ((h.loadEntriesAmid c).1, (h.loadEntriesAmid c).2.keeping p) := by
  obtain ⟨hfind, hread⟩ := Repository.ofDomain_eq_ok_iff.1 listed
  obtain ⟨entries', hread', hsame⟩ := Rows.readAll?_filter (q := (·.nodeData?.isSome)) hread
    fun r hr hpr e he => by
      obtain ⟨hmem, hdomain⟩ := List.mem_filter.1 (Rows.mem_byAge.1 hr)
      rw [hp r hmem hpr (by simpa using hdomain) e he, Option.isSome_none]
  rw [Rows.filter_byAge, List.filter_comm] at hread'
  have listed' : (h.keeping p).repository.ofDomain nativeApiDomain = .ok entries' :=
    Repository.ofDomain_eq_ok_iff.2 ⟨hfind, hread'⟩
  have hload : (h.keeping p).loadAllAmid c entries' =
      ((h.loadAllAmid c entries).1, { (h.loadAllAmid c entries).2 with
        repository := (h.keeping p).repository }) := by
    rw [← loadAllAmid_filter c _ entries', hsame, loadAllAmid_filter]
    exact loadAllAmid_repository c h _ entries
  have hrepository := (effects_loadAllAmid c h entries).2.repository
  simp only [loadEntriesAmid, listed, listed', hload]
  simp only [keeping, hrepository]

theorem effects_loadEntriesAmid (c : Nat → Network) (h : Hub) {entries : List Entry}
    (listed : h.repository.ofDomain nativeApiDomain = .ok entries) :
    let visits := Visit.ofEntries c h.contacts.length entries
    (h.loadEntriesAmid c).1 = .ok (visits.countP Visit.answered) ∧
      Visit.Effects visits h (h.loadEntriesAmid c).2 := by
  obtain ⟨hcount, heffects⟩ := effects_loadAllAmid c h entries
  have hload : h.loadEntriesAmid c = (.ok (h.loadAllAmid c entries).1, (h.loadAllAmid c entries).2) := by
    simp only [loadEntriesAmid, listed]
  rw [hload]
  exact ⟨congrArg Except.ok hcount, heffects⟩

theorem loadEntries_eq (h : Hub) : h.loadEntries = h.loadEntriesAmid fun _ => h.network := by
  cases listed : h.repository.ofDomain nativeApiDomain with
  | error err => simp only [loadEntries, loadEntriesAmid, listed]
  | ok entries => simp only [loadEntries, loadEntriesAmid, listed, loadAll_eq]

/-- Every entry of a node whose data can be read is contacted once, in the order of the listing, at the
stored host and port and with the stored password. Those that answer are counted and loaded with what
they reported, whichever others fail and whichever events are refused. No entry is changed, and rows of
another domain or with unreadable data make no difference. -/
theorem loadEntriesAmid_spec (c : Nat → Network) (h : Hub) {entries : List Entry}
    (listed : h.repository.ofDomain nativeApiDomain = .ok entries) (fresh : h.loaded = .empty) :
    let after := (h.loadEntriesAmid c).2
    ∃ visits : List Visit,
      visits.map (fun v => (v.entry, v.data)) =
        entries.filterMap (fun e => e.nodeData?.map (e, ·)) ∧
      (∀ i v, visits[i]? = some v → v.reply = (c (h.contacts.length + i)).describe v.data.target) ∧
      after.contacts = h.contacts ++
        visits.map (fun v => ⟨.deviceInfo, ⟨v.data.host, v.data.port, v.data.password⟩⟩) ∧
      (h.loadEntriesAmid c).1 = .ok (visits.countP Visit.answered) ∧
      after.loaded = .ofList (visits.filterMap Visit.loaded?) ∧
      ((entries.map Entry.id).Nodup → ∀ id info, after.loaded.get? id = some info ↔
        ∃ v ∈ visits, v.entry.id = id ∧ v.reply = .ok info) ∧
      after.repository = h.repository ∧
      (∀ p : Row → Bool, (∀ row ∈ h.repository.rows, p row = false → row.domain = nativeApiDomain →
          ∀ e, row.read? = some e → e.nodeData? = none) →
        (h.keeping p).loadEntriesAmid c = ((h.loadEntriesAmid c).1, after.keeping p)) ∧
      ((∀ k, c k = h.network) → h.loadEntries = h.loadEntriesAmid c) := by
  intro after
  obtain ⟨hcount, heffects⟩ := effects_loadEntriesAmid c h listed
  let visits := Visit.ofEntries c h.contacts.length entries
  have hloaded : after.loaded = .ofList (visits.filterMap Visit.loaded?) := by
    rw [heffects.loaded, fresh]
    exact Table.foldl_insert_empty _
  refine ⟨visits, Visit.map_ofEntries, fun i v hv => Visit.reply_of_ofEntries hv, heffects.contacts,
    hcount, hloaded, fun once id info => ?_, heffects.repository,
    fun p hp => loadEntriesAmid_keeping c h listed hp, fun hc => ?_⟩
  · have honce := once.sublist ((Visit.sublist_loaded? visits).trans Visit.sublist_ofEntries)
    rw [hloaded, ← Visit.mem_loaded?_iff, ← Table.mem_pairs_iff, Table.mem_pairs_ofList_iff honce]
  · rw [loadEntries_eq, funext hc]

/-- A hub that stores two lamps, the older one listed first. -/
def twoLamps : Hub :=
  { (default : Hub) with repository := Register.repository [Register.lamp, Register.olderLamp] }

/-- Nobody answers the first call, and later everyone does. -/
def startingUp (k : Nat) : Network :=
  { hosts := .empty, others := { info := if k = 0 then none else some ⟨"lamp", false, "", "", ""⟩ } }

theorem ofDomain_twoLamps :
    twoLamps.repository.ofDomain nativeApiDomain = .ok [Register.olderLamp, Register.lamp] := by
  have sound : Register.Sound [Register.lamp, Register.olderLamp] := by
    refine ⟨fun e he => ?_, by decide⟩
    rcases List.mem_pair.1 he with rfl | rfl
    exacts [Register.storable_lamp, Register.storable_olderLamp]
  exact (Register.ofDomain_eq sound nativeApiDomain).trans (congrArg Except.ok rfl)

theorem nodeData?_lamp : Register.lamp.nodeData? = some ⟨"10.0.0.7", 6053, ""⟩ := by decide +kernel

theorem nodeData?_olderLamp : Register.olderLamp.nodeData? = some ⟨"10.0.0.7", 6053, ""⟩ := nodeData?_lamp

/-- The lamp that is asked second is the one that is loaded. -/
theorem loadEntriesAmid_twoLamps :
    (twoLamps.loadEntriesAmid startingUp).1 = .ok 1 ∧
      (twoLamps.loadEntriesAmid startingUp).2.contacts.map (·.target.host) = ["10.0.0.7", "10.0.0.7"] ∧
      (twoLamps.loadEntriesAmid startingUp).2.loaded.get? Register.lamp.id =
        some ⟨"lamp", false, "", "", ""⟩ := by
  obtain ⟨visits, hvisits, hreplies, hcontacts, hanswer, -, hloaded, -⟩ :=
    loadEntriesAmid_spec startingUp twoLamps ofDomain_twoLamps rfl
  simp only [List.filterMap_cons, List.filterMap_nil, nodeData?_lamp, nodeData?_olderLamp,
    Option.map_some] at hvisits
  obtain ⟨v, rest, rfl, hv, hrest⟩ := List.map_eq_cons_iff.1 hvisits
  obtain ⟨w, rest, rfl, hw, hnil⟩ := List.map_eq_cons_iff.1 hrest
  cases List.map_eq_nil_iff.1 hnil
  have hsilent : v.reply = .error .timeout := hreplies 0 v rfl
  have hanswers : w.reply = .ok ⟨"lamp", false, "", "", ""⟩ := hreplies 1 w rfl
  obtain ⟨hv, hvdata⟩ := Prod.mk.inj hv
  obtain ⟨hw, hwdata⟩ := Prod.mk.inj hw
  have once : ([Register.olderLamp, Register.lamp].map Entry.id).Nodup := by decide
  refine ⟨?_, ?_, (hloaded once _ _).2 ⟨w, by simp, congrArg Entry.id hw, hanswers⟩⟩
  · rw [hanswer, List.countP_cons, List.countP_cons, Visit.answered, Visit.answered, hsilent, hanswers]
    rfl
  · rw [hcontacts, List.map_append, List.map_map]
    simp only [List.map_cons, List.map_nil, Function.comp_apply, hvdata, hwdata]
    rfl

end Hub
end HomeHub
