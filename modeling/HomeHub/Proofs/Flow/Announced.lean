import HomeHub.Flow.Run
import HomeHub.Proofs.Entry.Register
import Mathlib.Data.List.Pairwise

/-!
# The first step for an announced node

The step aborts if any entry of a node is about the announced one: it has the node's name for its
unique id, its host or address, or its loaded device has that name. The unique id is looked for
first, and the entry that has it is brought up to date with the announced host. Otherwise the first
entry about the node in the order of the listing decides: if its device was unknown, it becomes the
announced one.
-/

namespace HomeHub

/-- Keys and unique ids are used once, and the rows of nodes store valid entries. -/
structure Rows.WellKept (rows : Rows) : Prop where
  keys : (rows.map (·.id)).Nodup
  apart : rows.Pairwise fun a b => ¬ a.clashes b = true
  nodes : ∀ r ∈ rows, r.domain = nativeApiDomain → ∃ e, r.Stores e ∧ e.validate = .ok ()

/-- The entry is about the announced node. -/
def Entry.IsOfNode (loaded : Table Uuid DeviceInfo) (a : Announcement) (e : Entry) : Prop :=
  e.uniqueId = some a.nodeName ∨ e.host? = some a.address ∨ e.host? = some a.host ∨
    ∃ info, loaded.get? e.id = some info ∧ info.name = a.nodeName

/-- Sets the announced host. -/
def Entry.movedTo (e : Entry) (a : Announcement) : Entry := e.mergeData [("host", .str a.host)]

/-- Sets the announced host, and makes the entry that of the node. -/
def Entry.adoptedBy (e : Entry) (a : Announcement) : Entry :=
  { e.movedTo a with uniqueId := some a.nodeName }

namespace Rows

variable {rows : Rows} {r : Row}

namespace WellKept

/-- The unique id of a row is not that of another row of its domain. -/
theorem free (h : rows.WellKept) (hr : r ∈ rows) {s : Row} (hs : s ∈ rows) (hne : s.id ≠ r.id) :
    ¬ s.clashes r = true := by
  have : Std.Symm fun a b : Row => ¬ a.clashes b = true := ⟨fun _ _ => mt Row.clashes_symm⟩
  exact h.apart.forall hs hr fun heq => hne (congrArg Row.id heq)

/-- No two entries of nodes have the same unique id. -/
theorem eq_of_uniqueId (h : rows.WellKept) {s : Row} {e e' : Entry} {id : String} (hr : r ∈ rows)
    (hrdomain : r.domain = nativeApiDomain) (hre : r.Stores e) (hs : s ∈ rows)
    (hsdomain : s.domain = nativeApiDomain) (hse : s.Stores e') (hid : e.uniqueId = some id)
    (hid' : e'.uniqueId = some id) : e = e' := by
  have hrid : r.uniqueId = some id := hre.reads.uniqueId.trans hid
  have hsid : s.uniqueId = some id := hse.reads.uniqueId.trans hid'
  have hkey : s.id = r.id := by
    by_contra hne
    exact h.free hr hs hne (Row.clashes_iff.2
      ⟨hsdomain.trans hrdomain.symm, by rw [hsid]; rfl, hsid.trans hrid.symm⟩)
  cases List.inj_on_of_nodup_map h.keys hs hr hkey
  exact hre.unique hse

/-- The entries of nodes are listed, all of them and no others. -/
theorem listed {r : Repository} (h : r.rows.WellKept) (faultless : r.faults.find = none) :
    ∃ es, r.ofDomain nativeApiDomain = .ok es ∧
      ∀ e, e ∈ es ↔ ∃ row ∈ r.rows, row.domain = nativeApiDomain ∧ row.Stores e :=
  Repository.ofDomain_of_stores _ faultless fun row hrow hdomain => by
    obtain ⟨e, hstores, -⟩ := h.nodes row hrow hdomain
    exact ⟨e, hstores⟩

end WellKept

/-- Valid entries that may be stored together are well kept. -/
theorem wellKept_of_register {es : Register} (sound : es.Sound)
    (apart : es.Pairwise fun a b => ¬ a.Clashes b) (valid : ∀ e ∈ es, e.validate = .ok ()) :
    Rows.WellKept (es.map Row.ofEntry) where
  keys := sound.keys
  apart := List.pairwise_map.2 (apart.imp fun hab => mt Row.clashes_ofEntry.1 hab)
  nodes r hr _ := by
    obtain ⟨e, he, rfl⟩ := List.mem_map.1 hr
    exact ⟨e, Row.stores_ofEntry (sound.storable e he), valid e he⟩

theorem Changes.refl {e : Entry} (hr : r ∈ rows) (hdomain : r.domain = nativeApiDomain)
    (hstores : r.Stores e) : rows.Changes rows e e := by
  obtain ⟨pre, post, heq⟩ := List.append_of_mem hr
  exact ⟨r, r, ⟨pre, post, heq, heq⟩, hdomain, hstores, hstores⟩

end Rows

namespace Entry

theorem host?_movedTo (e : Entry) (a : Announcement) : (e.movedTo a).host? = some a.host := by
  simp only [host?, movedTo, mergeData, Json.get?_merge_self]
  rfl

theorem ofText_movedTo {e : Entry} (h : Json.ofText e.data.text = .ok e.data) (a : Announcement) :
    Json.ofText (e.movedTo a).data.text = .ok (e.movedTo a).data :=
  Json.ofText_merge h (List.pairwise_singleton _ _) fun u hu => by
    rw [List.mem_singleton.1 hu]
    exact .str a.host

theorem ofText_adoptedBy {e : Entry} (h : Json.ofText e.data.text = .ok e.data) (a : Announcement) :
    Json.ofText (e.adoptedBy a).data.text = .ok (e.adoptedBy a).data := ofText_movedTo h a

/-- Whether an entry is valid is a matter of its domain and its title. -/
theorem validate_congr {e e' : Entry} (domain : e'.domain = e.domain) (title : e'.title = e.title) :
    e'.validate = e.validate := by
  rw [validate, validate, domain, title]

end Entry

/-- An update of an entry of a node by what a flow may change is carried out, unless another entry
has the unique id. -/
theorem Hub.updateEntry_of_listed {h : Hub} {row : Row} {e : Entry}
    (store : h.repository.rows.WellKept) (faultless : h.repository.faults.update = none)
    (hrow : row ∈ h.repository.rows) (hdomain : row.domain = nativeApiDomain) (hstores : row.Stores e)
    (e' : Entry) (same : { e' with data := e.data, uniqueId := e.uniqueId } = e)
    (data : Json.ofText e'.data.text = .ok e'.data)
    (free : ∀ s ∈ h.repository.rows, s.id ≠ row.id →
      ¬ s.clashes (row.revised (.ofEntry e')) = true) :
    ∃ rows, h.updateEntry e' = (.ok e', { h with repository := { h.repository with rows } }) ∧
      h.repository.rows.Changes rows e e' := by
  have hid : e'.id = e.id := (congrArg Entry.id same :)
  have hdom : e'.domain = e.domain := (congrArg Entry.domain same :)
  have htitle : e'.title = e.title := (congrArg Entry.title same :)
  have hcreated : e'.createdAt = e.createdAt := (congrArg Entry.createdAt same :)
  have hvalid : e'.validate = .ok () := by
    obtain ⟨e₀, hstores₀, hvalid⟩ := store.nodes row hrow hdomain
    rw [Entry.validate_congr hdom htitle, hstores.unique hstores₀, hvalid]
  have hkey : row.id = e'.id.text := by rw [hstores.id, hid]
  obtain ⟨rows, hupdate, hreplaces⟩ :=
    Repository.updateEntry_of_free store.keys faultless hrow hkey hvalid free
  refine ⟨rows, ?_, row, _, hreplaces, hdomain, hstores, hstores.revised hid hdom hcreated data⟩
  rw [Hub.updateEntry, hupdate]

namespace Flow

variable {h : Hub} {a : Announcement}

theorem host?_of_holds {e : Entry} {host : String} (h : holds e.data ("host", .str host) = true) :
    e.host? = some host := by
  unfold holds at h
  split at h
  · next s t hs ht =>
    cases ht
    rw [Entry.host?, hs]
    exact congrArg some (by simpa using h)
  · next ht => cases ht
  · cases h

/-- The flow that starts with an announcement. -/
def ofAnnouncement (a : Announcement) : Flow := { source := .zeroconf, uniqueId := some a.nodeName }

theorem isAbout_iff {loaded : Table Uuid DeviceInfo} {e : Entry}
    (hid : e.uniqueId ≠ some a.nodeName) : isAbout loaded a e = true ↔ e.IsOfNode loaded a := by
  cases hloaded : loaded.get? e.id <;> cases hhost : e.host? <;>
    simp [isAbout, Entry.IsOfNode, hid, hloaded, hhost, or_assoc]

namespace Phase

theorem runFor_done (fuel : Nat) (f : Flow) (r : Except HubError Result) (h : Hub) :
    runFor fuel (.done f r) h = (f, r, h) := by
  cases fuel <;> rfl

/-- A step that is over once a changed entry is stored. -/
theorem runFor_update {e : Entry} {h' : Hub} (f : Flow) (fuel : Nat)
    (hupdate : h.updateEntry e = (.ok e, h')) :
    runFor (fuel + 1) (.update f e) h = (f, .ok (.abort .alreadyConfigured), h') := by
  simp only [runFor, step, hupdate]
  exact runFor_done fuel f _ h'

end Phase

/-- The step looks for the unique id first. -/
theorem run_startZeroconf {listed : List Entry}
    (hlist : h.repository.ofDomain nativeApiDomain = .ok listed) :
    (startZeroconf { source := .zeroconf } a).run h =
      Phase.runFor 2 (afterMatch (ofAnnouncement a) (.announced a)
        (listed.find? (·.uniqueId == some a.nodeName))) h := by
  have hfound : h.repository.findByUniqueId nativeApiDomain ((ofAnnouncement a).uniqueId.getD "") =
      .ok (listed.find? (·.uniqueId == some a.nodeName)) := by
    rw [Repository.findByUniqueId, hlist]
    rfl
  have hstart : (startZeroconf { source := .zeroconf } a).run h =
      Phase.runFor 2 ((Phase.findMatch (ofAnnouncement a) (.announced a)).step h).1
        ((Phase.findMatch (ofAnnouncement a) (.announced a)).step h).2 := rfl
  rw [hstart, Phase.step, hfound]

/-- Then it looks for other signs of the node. -/
theorem run_startZeroconf_of_none {listed : List Entry}
    (hlist : h.repository.ofDomain nativeApiDomain = .ok listed)
    (hfind : listed.find? (·.uniqueId == some a.nodeName) = none) :
    (startZeroconf { source := .zeroconf } a).run h =
      Phase.runFor 1 (afterKnown (ofAnnouncement a) a (listed.find? (isAbout h.loaded a))) h := by
  rw [run_startZeroconf hlist, hfind]
  simp only [afterMatch, proceed, Phase.runFor, Phase.step, hlist]

section FirstStep

variable {listed : List Entry} (store : h.repository.rows.WellKept)
  (faultless : h.repository.faults.update = none)
  (hlist : h.repository.ofDomain nativeApiDomain = .ok listed)
  (hmem : ∀ e, e ∈ listed ↔
    ∃ row ∈ h.repository.rows, row.domain = nativeApiDomain ∧ row.Stores e)

include store faultless hlist hmem

omit faultless hlist in
/-- If no entry with the node's name is listed, no row of a node has it either. -/
theorem uniqueId_ne_of_find? (hfind : listed.find? (·.uniqueId == some a.nodeName) = none) {s : Row}
    (hs : s ∈ h.repository.rows) (hdomain : s.domain = nativeApiDomain) :
    s.uniqueId ≠ some a.nodeName := by
  intro hid
  obtain ⟨e, hstores, -⟩ := store.nodes s hs hdomain
  have hnot := List.find?_eq_none.1 hfind e ((hmem e).2 ⟨s, hs, hdomain, hstores⟩)
  exact hnot (by rw [← hstores.reads.uniqueId, hid]; exact BEq.rfl)

/-- The entry with the node's name for its unique id is brought up to date. -/
theorem run_of_found {e : Entry} (hfind : listed.find? (·.uniqueId == some a.nodeName) = some e) :
    ∃ rows e', (startZeroconf { source := .zeroconf } a).run h =
        (ofAnnouncement a, .ok (.abort .alreadyConfigured),
          { h with repository := { h.repository with rows } }) ∧
      h.repository.rows.Changes rows e e' ∧ e'.host? = some a.host ∧ (e' = e ∨ e' = e.movedTo a) := by
  obtain ⟨row, hrow, hdomain, hstores⟩ := (hmem e).1 (List.mem_of_find?_eq_some hfind)
  rw [run_startZeroconf hlist, hfind]
  simp only [afterMatch, Ground.updates, List.all_cons, List.all_nil, Bool.and_true]
  by_cases hheld : holds e.data ("host", .str a.host) = true
  · rw [if_pos hheld]
    exact ⟨h.repository.rows, e, Phase.runFor_done _ _ _ h, .refl hrow hdomain hstores,
      host?_of_holds hheld, .inl rfl⟩
  · rw [if_neg hheld]
    obtain ⟨rows, hupdate, hchanges⟩ := Hub.updateEntry_of_listed store faultless hrow hdomain hstores
      (e.movedTo a) rfl (Entry.ofText_movedTo hstores.data a) fun s hs hne hclash => by
        have hsame := Row.clashes_congr (a := s) (row.revised_domain (.ofEntry (e.movedTo a)))
          hstores.reads.uniqueId.symm
        exact store.free hrow hs hne (hsame ▸ hclash)
    exact ⟨rows, e.movedTo a, Phase.runFor_update _ _ hupdate, hchanges, e.host?_movedTo a, .inr rfl⟩

/-- The first entry that other signs show to be about the node becomes its entry, unless its device
is another one. -/
theorem run_of_about {e : Entry} (hfind : listed.find? (·.uniqueId == some a.nodeName) = none)
    (habout : listed.find? (isAbout h.loaded a) = some e) :
    ∃ rows, (startZeroconf { source := .zeroconf } a).run h =
        (ofAnnouncement a, .ok (.abort .alreadyConfigured),
          { h with repository := { h.repository with rows } }) ∧
      if e.uniqueId = none then
        h.repository.rows.Changes rows e (e.adoptedBy a)
      else rows = h.repository.rows := by
  obtain ⟨row, hrow, hdomain, hstores⟩ := (hmem e).1 (List.mem_of_find?_eq_some habout)
  rw [run_startZeroconf_of_none hlist hfind]
  simp only [habout, afterKnown]
  cases huid : e.uniqueId with
  | some id => exact ⟨h.repository.rows, Phase.runFor_done _ _ _ h, by rw [if_neg (Option.some_ne_none id)]⟩
  | none =>
    obtain ⟨rows, hupdate, hchanges⟩ := Hub.updateEntry_of_listed store faultless hrow hdomain hstores
      (e.adoptedBy a) rfl (Entry.ofText_adoptedBy hstores.data a) fun s hs hne hclash => by
        obtain ⟨hsdomain, -, hsid⟩ := Row.clashes_iff.1 hclash
        have hsnative : s.domain = nativeApiDomain := by
          rw [hsdomain, Row.revised_domain, hdomain]
        have hsname : s.uniqueId = some a.nodeName := hsid.trans (Row.revised_uniqueId _ _)
        exact uniqueId_ne_of_find? store hmem hfind hs hsnative hsname
    exact ⟨rows, Phase.runFor_update _ _ hupdate, by rw [if_pos rfl]; exact hchanges⟩

omit store faultless hmem in
theorem run_of_unknown (hfind : listed.find? (·.uniqueId == some a.nodeName) = none)
    (habout : listed.find? (isAbout h.loaded a) = none) :
    ((startZeroconf { source := .zeroconf } a).run h).2 =
      (.ok (.form (.discoveryConfirm (some a.nodeName))), h) := by
  rw [run_startZeroconf_of_none hlist hfind]
  simp only [habout, afterKnown]
  exact congrArg Prod.snd (Phase.runFor_done _ _ _ h)

end FirstStep

/-- The first step for an announced node aborts if and only if an entry of a node is about it, and
otherwise shows the form to confirm it. The entry with the node's name for its unique id is left with
the announced host; if there is none, the first one about the node becomes its entry if its device
was unknown. Nothing else changes. -/
theorem first_step_of_announced (h : Hub) (a : Announcement) (store : h.repository.rows.WellKept)
    (find : h.repository.faults.find = none) (update : h.repository.faults.update = none) :
    let before := h.repository.rows
    let answer := ((startZeroconf { source := .zeroconf } a).run h).2.1
    let after := ((startZeroconf { source := .zeroconf } a).run h).2.2.repository.rows
    ∃ listed, h.repository.ofDomain nativeApiDomain = .ok listed ∧
      (answer = .ok (.abort .alreadyConfigured) ↔ ∃ e ∈ listed, e.IsOfNode h.loaded a) ∧
      ((¬ ∃ e ∈ listed, e.IsOfNode h.loaded a) →
        answer = .ok (.form (.discoveryConfirm (some a.nodeName))) ∧ after = before) ∧
      (∀ e ∈ listed, e.uniqueId = some a.nodeName →
        ∃ e', before.Changes after e e' ∧ e'.host? = some a.host ∧ (e' = e ∨ e' = e.movedTo a)) ∧
      ∀ earlier e later, listed = earlier ++ e :: later →
        (∀ e' ∈ listed, e'.uniqueId ≠ some a.nodeName) →
        (∀ e' ∈ earlier, ¬ e'.IsOfNode h.loaded a) → e.IsOfNode h.loaded a →
        if e.uniqueId = none then before.Changes after e (e.adoptedBy a) else after = before := by
  intro before answer after
  obtain ⟨listed, hlist, hmem⟩ := store.listed find
  cases hfind : listed.find? (·.uniqueId == some a.nodeName) with
  | some e =>
    obtain ⟨rows', e', hrun, hchanges, hhost, hdata⟩ := run_of_found store update hlist hmem hfind
    have heid : e.uniqueId = some a.nodeName := by simpa using List.find?_some hfind
    have hemem := List.mem_of_find?_eq_some hfind
    have hanswer : answer = .ok (.abort .alreadyConfigured) := congrArg (·.2.1) hrun
    have hafter : after = rows' := congrArg (·.2.2.repository.rows) hrun
    rw [hanswer, hafter]
    refine ⟨listed, hlist, ⟨fun _ => ⟨e, hemem, .inl heid⟩, fun _ => rfl⟩, ?_, ?_, ?_⟩
    · exact fun hno => absurd ⟨e, hemem, .inl heid⟩ hno
    · intro x hx hxid
      obtain ⟨r, hr, hrdomain, hrx⟩ := (hmem x).1 hx
      obtain ⟨s, hs, hsdomain, hse⟩ := (hmem e).1 hemem
      cases store.eq_of_uniqueId hr hrdomain hrx hs hsdomain hse hxid heid
      exact ⟨e', hchanges, hhost, hdata⟩
    · exact fun earlier x later _ hnone => absurd heid (hnone e hemem)
  | none =>
    have hfree : ∀ e ∈ listed, e.uniqueId ≠ some a.nodeName := fun e he => by
      simpa using List.find?_eq_none.1 hfind e he
    cases habout : listed.find? (isAbout h.loaded a) with
    | none =>
      have hnone : ∀ e ∈ listed, ¬ e.IsOfNode h.loaded a := fun e he hof =>
        List.find?_eq_none.1 habout e he ((isAbout_iff (hfree e he)).2 hof)
      have hrun := run_of_unknown hlist hfind habout
      have hanswer : answer = .ok (.form (.discoveryConfirm (some a.nodeName))) :=
        congrArg (·.1) hrun
      have hafter : after = before := congrArg (·.2.repository.rows) hrun
      rw [hanswer, hafter]
      refine ⟨listed, hlist, ⟨nofun, fun ⟨e, he, hof⟩ => absurd hof (hnone e he)⟩, fun _ => ⟨rfl, rfl⟩,
        fun e he hid => absurd hid (hfree e he), ?_⟩
      rintro earlier e later rfl - - hof
      exact absurd hof (hnone e (by simp))
    | some e =>
      obtain ⟨rows', hrun, hchanges⟩ := run_of_about store update hlist hmem hfind habout
      have hemem := List.mem_of_find?_eq_some habout
      have hof : e.IsOfNode h.loaded a := (isAbout_iff (hfree e hemem)).1 (List.find?_some habout)
      have hanswer : answer = .ok (.abort .alreadyConfigured) := congrArg (·.2.1) hrun
      have hafter : after = rows' := congrArg (·.2.2.repository.rows) hrun
      rw [hanswer, hafter]
      refine ⟨listed, hlist, ⟨fun _ => ⟨e, hemem, hof⟩, fun _ => rfl⟩,
        fun hno => absurd ⟨e, hemem, hof⟩ hno, fun x hx hid => absurd hid (hfree x hx), ?_⟩
      rintro earlier x later rfl - hearlier hx
      -- the first entry about the node is the one that was found
      have hfirst : (earlier ++ x :: later).find? (isAbout h.loaded a) = some x := by
        refine List.find?_eq_some_iff_append.2 ⟨(isAbout_iff (hfree x (by simp))).2 hx, earlier, later,
          rfl, fun e' he' => ?_⟩
        have hnot := mt (isAbout_iff (hfree e' (by simp [he']))).1 (hearlier e' he')
        simpa using hnot
      cases habout.symm.trans hfirst
      exact hchanges

/-- The lamp, announced. -/
def lampFound : Announcement := ⟨"10.0.0.8", 6053, "lamp.local.", .ofList [("address", "10.0.0.7")]⟩

/-- A hub with one entry, of an unknown device. -/
def unnamedLamp : Hub :=
  { (default : Hub) with repository := Register.repository [Register.olderLamp] }

theorem sound_olderLamp : Register.Sound [Register.olderLamp] :=
  ⟨by simpa using Register.storable_olderLamp, List.nodup_singleton _⟩

theorem wellKept_unnamedLamp : unnamedLamp.repository.rows.WellKept := by
  have valid : Register.olderLamp.validate = .ok () := by decide +kernel
  exact Rows.wellKept_of_register sound_olderLamp (List.pairwise_singleton _ _) (by simpa using valid)

/-- The entry of an unknown device at the lamp's address becomes that of the lamp: it gets the name of
the lamp for its unique id and the announced host. -/
theorem first_step_of_lamp :
    let before := unnamedLamp.repository.rows
    let answer := ((startZeroconf { source := .zeroconf } lampFound).run unnamedLamp).2.1
    let after := ((startZeroconf { source := .zeroconf } lampFound).run unnamedLamp).2.2.repository.rows
    let shown (row : Row) := (row.title, row.uniqueId, row.read?.bind Entry.host?)
    answer = .ok (.abort .alreadyConfigured) ∧
      before.Changes after Register.olderLamp (Register.olderLamp.adoptedBy lampFound) ∧
      before.map shown = [("lamp", none, some "10.0.0.7")] ∧
      after.map shown = [("lamp", some "lamp", some "10.0.0.8")] := by
  intro before answer after shown
  obtain ⟨listed, hlist, hanswer, -, -, hfirst⟩ :=
    first_step_of_announced unnamedLamp lampFound wellKept_unnamedLamp rfl rfl
  have hlisted : listed = [Register.olderLamp] := by
    have hall := Register.ofDomain_eq sound_olderLamp nativeApiDomain
    have hpick : (Entry.chronological [Register.olderLamp]).filter (·.domain = nativeApiDomain) =
        [Register.olderLamp] := by
      have hone : Entry.chronological [Register.olderLamp] = [Register.olderLamp] := rfl
      have hdomain : Register.olderLamp.domain = nativeApiDomain := rfl
      rw [hone, List.filter_cons, List.filter_nil, hdomain, if_pos (decide_eq_true rfl)]
    rw [hpick] at hall
    exact Except.ok.inj (hlist.symm.trans hall)
  subst hlisted
  have hof : Register.olderLamp.IsOfNode unnamedLamp.loaded lampFound :=
    .inr (.inl (by decide +kernel))
  have hunknown : Register.olderLamp.uniqueId = none := rfl
  have hchanges := hfirst [] Register.olderLamp [] rfl (by simp [hunknown]) nofun hof
  rw [if_pos hunknown] at hchanges
  have habort := hanswer.2 ⟨Register.olderLamp, List.mem_singleton_self _, hof⟩
  exact ⟨habort, hchanges, by decide +kernel, by decide +kernel⟩

end Flow

end HomeHub
