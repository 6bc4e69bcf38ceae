import HomeHub.Proofs.Flow.Announced

/-!
# Announcing a node again

The first step for an announced node may change one entry: it moves the entry with the node's name to the
announced host, or makes the first entry about the node that of the node. Either way that entry then has
the node's name and the announced host, and the step has nothing left to do when the node is announced
again. So the second answer is the first one, and no update is even tried.
-/

namespace HomeHub

namespace Rows

variable {rows rows' : Rows} {e e' : Entry}

/-- The entry that a change stores is that of a row of a node. -/
theorem Changes.exists_row (h : rows.Changes rows' e e') (domain : e'.domain = e.domain) :
    ∃ r' ∈ rows', r'.domain = nativeApiDomain ∧ r'.Stores e' := by
  obtain ⟨r, r', ⟨pre, post, -, rfl⟩, hdomain, hstores, hstores'⟩ := h
  refine ⟨r', by simp, ?_, hstores'⟩
  rw [hstores'.reads.domain, domain, ← hstores.reads.domain, hdomain]

/-- Rows stay well kept when an entry of a node gets other data or a unique id that no node has. -/
theorem WellKept.of_changes (h : rows.WellKept) (changes : rows.Changes rows' e e')
    (same : { e' with data := e.data, uniqueId := e.uniqueId } = e)
    (free : e'.uniqueId = e.uniqueId ∨
      ∀ s ∈ rows, s.domain = nativeApiDomain → s.uniqueId ≠ e'.uniqueId) : rows'.WellKept := by
  have hid : e'.id = e.id := (congrArg Entry.id same :)
  have hdom : e'.domain = e.domain := (congrArg Entry.domain same :)
  have htitle : e'.title = e.title := (congrArg Entry.title same :)
  obtain ⟨r, r', ⟨pre, post, rfl, rfl⟩, hdomain, hstores, hstores'⟩ := changes
  have hkey : r'.id = r.id := by rw [hstores'.id, hid, hstores.id]
  have hdomain' : r'.domain = r.domain := by
    rw [hstores'.reads.domain, hdom, hstores.reads.domain]
  -- all but the changed row, which may as well stand first
  have hothers : ∀ s ∈ pre ++ post, s ∈ pre ++ r :: post ∧ s.id ≠ r.id := by
    have hnew := (List.nodup_cons.1 (List.nodup_middle.1 (List.map_append ▸ h.keys))).1
    refine fun s hs => ⟨by simp_all [or_left_comm], fun heq => hnew ?_⟩
    exact List.map_append ▸ List.mem_map.2 ⟨s, hs, heq⟩
  have hfree : ∀ s ∈ pre ++ post, ¬ r'.clashes s = true := by
    intro s hs hclash
    obtain ⟨hmem, hne⟩ := hothers s hs
    have hclash := Row.clashes_symm hclash
    rcases free with hsame | hnone
    · rw [Row.clashes_congr hdomain' (by rw [hstores'.reads.uniqueId, hsame, hstores.reads.uniqueId])]
        at hclash
      exact h.free (by simp) hmem hne hclash
    · obtain ⟨hsdomain, -, hsid⟩ := Row.clashes_iff.1 hclash
      exact hnone s hmem (by rw [hsdomain, hdomain', hdomain]) (by rw [hsid, hstores'.reads.uniqueId])
  constructor
  · have hkeys : (pre ++ r' :: post).map (·.id) = (pre ++ r :: post).map (·.id) := by simp [hkey]
    exact hkeys ▸ h.keys
  · have symm {s t : Row} (hst : ¬ s.clashes t = true) : ¬ t.clashes s = true := mt Row.clashes_symm hst
    exact (List.pairwise_middle symm).2
      (List.pairwise_cons.2 ⟨hfree, ((List.pairwise_middle symm).1 h.apart).of_cons⟩)
  · intro s hs hsdomain
    rcases List.mem_cons.1 (List.perm_middle.mem_iff.1 hs) with rfl | hs
    · obtain ⟨e₀, hstores₀, hvalid⟩ := h.nodes r (by simp) hdomain
      refine ⟨e', hstores', ?_⟩
      rw [Entry.validate_congr hdom htitle, hstores.unique hstores₀, hvalid]
    · exact h.nodes s (hothers s hs).1 hsdomain

end Rows

namespace Flow

variable {h : Hub} {a : Announcement}

theorem holds_of_host? {e : Entry} {host : String} (h : e.host? = some host) :
    holds e.data ("host", .str host) = true := by
  obtain ⟨j, hj, hstr⟩ := Option.bind_eq_some_iff.1 h
  cases j with
  | str s =>
    cases hstr
    simp only [holds, hj, BEq.rfl]
  | _ => cases hstr

/-- An entry with the node's name and the announced host settles the step. -/
theorem run_of_settled (store : h.repository.rows.WellKept) (find : h.repository.faults.find = none)
    {row : Row} {e : Entry} (hrow : row ∈ h.repository.rows) (hdomain : row.domain = nativeApiDomain)
    (hstores : row.Stores e) (hid : e.uniqueId = some a.nodeName) (hhost : e.host? = some a.host) :
    (startZeroconf { source := .zeroconf } a).run h =
      (ofAnnouncement a, .ok (.abort .alreadyConfigured), h) := by
  obtain ⟨listed, hlist, hmem⟩ := store.listed find
  have hlisted : e ∈ listed := (hmem e).2 ⟨row, hrow, hdomain, hstores⟩
  have hfind : listed.find? (·.uniqueId == some a.nodeName) = some e := by
    have hsome : (listed.find? (·.uniqueId == some a.nodeName)).isSome :=
      List.find?_isSome.2 ⟨e, hlisted, by rw [hid]; exact BEq.rfl⟩
    obtain ⟨x, hx⟩ := Option.isSome_iff_exists.1 hsome
    obtain ⟨s, hs, hsdomain, hsx⟩ := (hmem x).1 (List.mem_of_find?_eq_some hx)
    have hxid : x.uniqueId = some a.nodeName := by simpa using List.find?_some hx
    rwa [store.eq_of_uniqueId hrow hdomain hstores hs hsdomain hsx hid hxid]
  rw [run_startZeroconf hlist, hfind]
  simp only [afterMatch, Ground.updates, List.all_cons, List.all_nil, Bool.and_true,
    holds_of_host? hhost, if_true]
  exact Phase.runFor_done _ _ _ h

/-- So does an entry that a step has changed to be so. -/
theorem run_of_changed {rows rows' : Rows} {e e' : Entry} (store : rows.WellKept)
    (changes : rows.Changes rows' e e') (hrows : h.repository.rows = rows')
    (find : h.repository.faults.find = none)
    (same : { e' with data := e.data, uniqueId := e.uniqueId } = e)
    (free : e'.uniqueId = e.uniqueId ∨
      ∀ s ∈ rows, s.domain = nativeApiDomain → s.uniqueId ≠ e'.uniqueId)
    (hid : e'.uniqueId = some a.nodeName) (hhost : e'.host? = some a.host) :
    (startZeroconf { source := .zeroconf } a).run h =
      (ofAnnouncement a, .ok (.abort .alreadyConfigured), h) := by
  subst hrows
  obtain ⟨r', hr', hdomain, hstores⟩ := changes.exists_row (congrArg Entry.domain same :)
  exact run_of_settled (store.of_changes changes same free) find hr' hdomain hstores hid hhost

/-- A step that changes no entry depends on the listing and on what is known of the nodes only. -/
theorem run_of_unchanged {listed : List Entry}
    (hfind : listed.find? (·.uniqueId == some a.nodeName) = none) {loaded : Table Uuid DeviceInfo}
    (hknown : ¬ ∃ e ∈ listed.find? (isAbout loaded a), e.uniqueId = none) :
    ∃ f r, ∀ h : Hub, h.repository.ofDomain nativeApiDomain = .ok listed → h.loaded = loaded →
      (startZeroconf { source := .zeroconf } a).run h = (f, .ok r, h) := by
  cases habout : listed.find? (isAbout loaded a) with
  | none =>
    let shown := showConfirm { ofAnnouncement a with
      host := some a.host, port := some a.port, name := some a.nodeName }
    refine ⟨shown.1, shown.2, fun h hlist hloaded => ?_⟩
    rw [run_startZeroconf_of_none hlist hfind, hloaded, habout]
    exact Phase.runFor_done _ _ _ h
  | some e =>
    obtain ⟨id, hid⟩ := Option.ne_none_iff_exists'.1 fun hnone => hknown ⟨e, habout, hnone⟩
    refine ⟨ofAnnouncement a, .abort .alreadyConfigured, fun h hlist hloaded => ?_⟩
    rw [run_startZeroconf_of_none hlist hfind, hloaded, habout]
    simp only [afterKnown, hid]
    exact Phase.runFor_done _ _ _ h

/-- A node that is announced again gets the same answer, and the second step changes nothing and tries
no update: it succeeds even while updates fail. -/
theorem first_step_again (h : Hub) (a : Announcement) (store : h.repository.rows.WellKept)
    (find : h.repository.faults.find = none) (update : h.repository.faults.update = none) :
    let first := (startZeroconf { source := .zeroconf } a).run h
    ∃ r, first.2.1 = .ok r ∧
      ∀ h' : Hub, h'.repository.rows = first.2.2.repository.rows → h'.repository.faults.find = none →
        h'.loaded = h.loaded →
        (startZeroconf { source := .zeroconf } a).run h' = (first.1, .ok r, h') := by
  intro first
  obtain ⟨listed, hlist, hmem⟩ := store.listed find
  cases hfind : listed.find? (·.uniqueId == some a.nodeName) with
  | some e =>
    obtain ⟨rows, e', hrun, hchanges, hhost, hdata⟩ := run_of_found store update hlist hmem hfind
    have hid : e.uniqueId = some a.nodeName := by simpa using List.find?_some hfind
    have same : { e' with data := e.data, uniqueId := e.uniqueId } = e := by
      rcases hdata with rfl | rfl <;> rfl
    have hid' : e'.uniqueId = e.uniqueId := by
      rcases hdata with rfl | rfl <;> rfl
    have hfirst : first = _ := hrun
    rw [hfirst]
    refine ⟨.abort .alreadyConfigured, rfl, fun h' hrows hfind' _ => ?_⟩
    exact run_of_changed store hchanges hrows hfind' same (.inl hid') (hid'.trans hid) hhost
  | none =>
    by_cases hknown : ∃ e ∈ listed.find? (isAbout h.loaded a), e.uniqueId = none
    · obtain ⟨e, habout, hunknown⟩ := hknown
      obtain ⟨rows, hrun, hchanges⟩ := run_of_about store update hlist hmem hfind habout
      rw [if_pos hunknown] at hchanges
      have hfirst : first = _ := hrun
      rw [hfirst]
      refine ⟨.abort .alreadyConfigured, rfl, fun h' hrows hfind' _ => ?_⟩
      have hfree : ∀ s ∈ h.repository.rows, s.domain = nativeApiDomain →
          s.uniqueId ≠ (e.adoptedBy a).uniqueId := fun s => uniqueId_ne_of_find? store hmem hfind
      exact run_of_changed store hchanges hrows hfind' rfl (.inr hfree) rfl (e.host?_movedTo a)
    · obtain ⟨f, r, hrun⟩ := run_of_unchanged hfind hknown
      have hfirst : first = (f, .ok r, h) := hrun h hlist rfl
      rw [hfirst]
      refine ⟨r, rfl, fun h' hrows hfind' hloaded => hrun h' ?_ hloaded⟩
      refine Repository.ofDomain_eq_ok_iff.2 ⟨hfind', ?_⟩
      rw [hrows]
      exact (Repository.ofDomain_eq_ok_iff.1 hlist).2

/-- The lamp is announced again while nothing can be stored. -/
theorem first_step_of_lamp_again :
    let first := (startZeroconf { source := .zeroconf } lampFound).run unnamedLamp
    let full : Hub := { unnamedLamp with repository :=
      { rows := first.2.2.repository.rows, faults := { update := some "disk full" } } }
    ((startZeroconf { source := .zeroconf } lampFound).run full).2 = (first.2.1, full) ∧
      full.repository.rows.map (·.uniqueId) = [some "lamp"] := by
  have hlamp : ((startZeroconf { source := .zeroconf } lampFound).run
      unnamedLamp).2.2.repository.rows.map (·.uniqueId) = [some "lamp"] := by decide +kernel
  obtain ⟨r, hfirst, hagain⟩ := first_step_again unnamedLamp lampFound wellKept_unnamedLamp rfl rfl
  generalize (startZeroconf { source := .zeroconf } lampFound).run unnamedLamp = first
    at hfirst hagain hlamp ⊢
  intro _ full
  rw [hagain full rfl rfl rfl, hfirst]
  exact ⟨rfl, hlamp⟩

end Flow

end HomeHub
