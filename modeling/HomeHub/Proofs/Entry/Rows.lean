import HomeHub.Hub

/-!
# What statements do to the stored rows

Flows only insert rows and update the data of rows. `Row.bare` is a row without its data, which no
update of an entry that was read from it changes. Queries list exactly the rows they are about.
-/

namespace HomeHub

namespace Source

theorem text_of_ofText? {s : String} {source : Source} (h : ofText? s = some source) :
    source.text = s := by
  unfold ofText? at h
  split at h
  · next hs => cases h; exact hs.symm
  · split at h
    · next hs => cases h; exact hs.symm
    · cases h

end Source

namespace Row

def bare (r : Row) : Row := { r with data := "" }

theorem id_of_bare {r s : Row} (h : r.bare = s.bare) : r.id = s.id := (congrArg Row.id h :)

theorem domain_of_bare {r s : Row} (h : r.bare = s.bare) : r.domain = s.domain :=
  (congrArg Row.domain h :)

theorem uniqueId_of_bare {r s : Row} (h : r.bare = s.bare) : r.uniqueId = s.uniqueId :=
  (congrArg Row.uniqueId h :)

/-- The row has the key of the entry, and an update with the entry changes nothing but its data. -/
structure IsOf (r : Row) (e : Entry) : Prop where
  id : r.id = e.id.text
  title : r.title = e.title
  uniqueId : r.uniqueId = e.uniqueId
  source : r.source = e.source.text

theorem IsOf.of_bare {r s : Row} {e : Entry} (h : r.IsOf e) (hs : s.bare = r.bare) : s.IsOf e where
  id := (id_of_bare hs).trans h.id
  title := (congrArg Row.title hs).trans h.title
  uniqueId := (uniqueId_of_bare hs).trans h.uniqueId
  source := (congrArg Row.source hs).trans h.source

/-- A row is read column by column. -/
theorem read?_eq_some_iff {r : Row} {e : Entry} : r.read? = some e ↔
    (Uuid.parse? r.id = some e.id ∧ r.domain = e.domain ∧ r.title = e.title ∧
      r.uniqueId = e.uniqueId) ∧ Source.ofText? r.source = some e.source ∧
      Json.ofText r.data = .ok e.data ∧ Timestamp.parseStrict? r.createdAt = some e.createdAt := by
  simp only [read?, Option.bind_eq_bind, Option.pure_def, Option.bind_eq_some_iff]
  constructor
  · rintro ⟨id, hid, source, hsource, data, hdata, createdAt, hcreated, heq⟩
    cases heq
    refine ⟨⟨hid, rfl, rfl, rfl⟩, hsource, ?_, hcreated⟩
    cases hj : Json.ofText r.data with
    | error err => rw [hj] at hdata; cases hdata
    | ok j => rw [hj] at hdata; cases hdata; rfl
  · rintro ⟨⟨hid, hdomain, htitle, huid⟩, hsource, hdata, hcreated⟩
    exact ⟨_, hid, _, hsource, _, by rw [hdata]; rfl, _, hcreated, by rw [hdomain, htitle, huid]⟩

/-- What is read from a row. -/
structure Reads (r : Row) (e : Entry) : Prop where
  id : Uuid.parse? r.id = some e.id
  domain : r.domain = e.domain
  title : r.title = e.title
  uniqueId : r.uniqueId = e.uniqueId
  source : r.source = e.source.text

theorem reads_of_read? {r : Row} {e : Entry} (h : r.read? = some e) : r.Reads e := by
  obtain ⟨⟨hid, hdomain, htitle, huid⟩, hsource, -⟩ := read?_eq_some_iff.1 h
  exact ⟨hid, hdomain, htitle, huid, (Source.text_of_ofText? hsource).symm⟩

theorem clashes_iff {a b : Row} :
    a.clashes b = true ↔ a.domain = b.domain ∧ a.uniqueId.isSome ∧ a.uniqueId = b.uniqueId := by
  simp [clashes, and_assoc]

theorem clashes_symm {a b : Row} (h : a.clashes b = true) : b.clashes a = true := by
  obtain ⟨hdomain, hsome, hid⟩ := clashes_iff.1 h
  exact clashes_iff.2 ⟨hdomain.symm, hid ▸ hsome, hid.symm⟩

end Row

namespace Rows

variable {rows : Rows} {r : Row}

/-! ### Statements -/

theorem insert?_eq_some {rows' : Rows} : rows.insert? r = some rows' ↔
    (∀ s ∈ rows, s.id ≠ r.id ∧ ¬ s.clashes r = true) ∧ rows' = rows ++ [r] := by
  unfold insert?
  split
  · next h =>
    obtain ⟨s, hs, hbad⟩ := List.any_eq_true.1 h
    constructor
    · intro heq
      cases heq
    · rintro ⟨hall, -⟩
      obtain ⟨hid, hclash⟩ := hall s hs
      simp [hid, hclash] at hbad
  · next h =>
    have hall : ∀ s ∈ rows, s.id ≠ r.id ∧ ¬ s.clashes r = true := by
      intro s hs
      have := fun hb => h (List.any_eq_true.2 ⟨s, hs, hb⟩)
      simpa using this
    constructor
    · intro heq
      cases heq
      exact ⟨hall, rfl⟩
    · rintro ⟨-, rfl⟩
      rfl

theorem insert?_eq_none : rows.insert? r = none ↔ ∃ s ∈ rows, s.id = r.id ∨ s.clashes r = true := by
  unfold insert?
  split
  · next h => simpa using h
  · next h => simpa using h

theorem eq_map_of_update? {id : String} {f : Row → Row} {found : Bool} {rows' : Rows}
    (h : rows.update? id f = some (found, rows')) :
    rows' = rows.map fun r => if r.id == id then f r else r := by
  simp only [update?] at h
  split at h
  · cases h
  · cases h
    rfl

theorem map_bare_update? {id : String} {f : Row → Row} {found : Bool} {rows' : Rows}
    (keeps : ∀ r ∈ rows, r.id = id → (f r).bare = r.bare)
    (h : rows.update? id f = some (found, rows')) : rows'.map Row.bare = rows.map Row.bare := by
  rw [eq_map_of_update? h, List.map_map]
  refine List.map_congr_left fun r hr => ?_
  rw [Function.comp_apply]
  split
  · next hid => exact keeps r hr (by simpa using hid)
  · rfl

/-! ### Queries -/

theorem mem_insertByAge {s : Row} : s ∈ insertByAge r rows ↔ s = r ∨ s ∈ rows := by
  induction rows with
  | nil => simp [insertByAge]
  | cons t rest ih =>
    rw [insertByAge]
    split
    · simp
    · simp [ih, or_left_comm]

theorem mem_byAge : r ∈ rows.byAge ↔ r ∈ rows := by
  suffices ∀ acc : Rows, r ∈ rows.foldl (fun acc r => insertByAge r acc) acc ↔ r ∈ acc ∨ r ∈ rows by
    simpa [byAge] using this []
  induction rows with
  | nil => simp
  | cons s rest ih =>
    intro acc
    rw [List.foldl_cons, ih, mem_insertByAge, List.mem_cons]
    exact ⟨fun h => by rcases h with (h | h) | h <;> simp [h],
      fun h => by rcases h with h | h | h <;> simp [h]⟩

theorem readAll?_spec {es : List Entry} (h : readAll? rows = some es) :
    (∀ r ∈ rows, ∃ e ∈ es, r.read? = some e) ∧ ∀ e ∈ es, ∃ r ∈ rows, r.read? = some e := by
  induction rows generalizing es with
  | nil =>
    cases h
    exact ⟨nofun, nofun⟩
  | cons s rest ih =>
    simp only [readAll?, List.mapM_cons, Option.bind_eq_bind, Option.bind_eq_some_iff,
      Option.pure_def, Option.some.injEq] at h
    obtain ⟨e, he, es', hes', rfl⟩ := h
    obtain ⟨hread, hfrom⟩ := ih hes'
    constructor
    · intro r hr
      rcases List.mem_cons.1 hr with rfl | hr
      · exact ⟨e, List.mem_cons_self, he⟩
      · obtain ⟨e', he', hr'⟩ := hread r hr
        exact ⟨e', List.mem_cons_of_mem e he', hr'⟩
    · intro e' he'
      rcases List.mem_cons.1 he' with rfl | he'
      · exact ⟨s, List.mem_cons_self, he⟩
      · obtain ⟨r, hr, hr'⟩ := hfrom e' he'
        exact ⟨r, List.mem_cons_of_mem s hr, hr'⟩

theorem readAll?_of_forall (h : ∀ r ∈ rows, ∃ e, r.read? = some e) : ∃ es, rows.readAll? = some es := by
  induction rows with
  | nil => exact ⟨[], rfl⟩
  | cons r rest ih =>
    obtain ⟨e, he⟩ := h r List.mem_cons_self
    obtain ⟨es, hes⟩ := ih fun s hs => h s (List.mem_cons_of_mem r hs)
    have hrest : List.mapM Row.read? rest = some es := hes
    exact ⟨e :: es, by rw [readAll?, List.mapM_cons, he, hrest]; rfl⟩

end Rows

namespace Repository

variable {r : Repository} {domain : String}

theorem ofDomain_eq_ok_iff {es : List Entry} : r.ofDomain domain = .ok es ↔
    r.faults.find = none ∧
      Rows.readAll? (Rows.byAge (r.rows.filter (·.domain == domain))) = some es := by
  unfold ofDomain guardFault ofOption
  cases r.faults.find with
  | some reason => exact ⟨nofun, nofun⟩
  | none =>
    cases Rows.readAll? (Rows.byAge (r.rows.filter (·.domain == domain))) with
    | none => exact ⟨nofun, nofun⟩
    | some es' =>
      exact ⟨fun h => ⟨rfl, congrArg some (Except.ok.inj h)⟩, fun h => congrArg Except.ok (Option.some.inj h.2)⟩

theorem read?_of_ofDomain {es : List Entry} (h : r.ofDomain domain = .ok es) :
    (∀ row ∈ r.rows, row.domain = domain → ∃ e ∈ es, row.read? = some e) ∧
      ∀ e ∈ es, ∃ row ∈ r.rows, row.domain = domain ∧ row.read? = some e := by
  obtain ⟨hall, hfrom⟩ := Rows.readAll?_spec (ofDomain_eq_ok_iff.1 h).2
  constructor
  · intro row hrow hdomain
    exact hall row (Rows.mem_byAge.2 (by simp [hrow, hdomain]))
  · intro e he
    obtain ⟨row, hrow, hr⟩ := hfrom e he
    obtain ⟨hmem, hdomain⟩ := List.mem_filter.1 (Rows.mem_byAge.1 hrow)
    exact ⟨row, hmem, by simpa using hdomain, hr⟩

theorem ofDomain_spec {es : List Entry} (h : r.ofDomain domain = .ok es) :
    (∀ row ∈ r.rows, row.domain = domain → ∃ e ∈ es, row.Reads e) ∧
      ∀ e ∈ es, ∃ row ∈ r.rows, row.domain = domain ∧ row.Reads e := by
  obtain ⟨hall, hfrom⟩ := read?_of_ofDomain h
  constructor
  · intro row hrow hdomain
    obtain ⟨e, he, hread⟩ := hall row hrow hdomain
    exact ⟨e, he, Row.reads_of_read? hread⟩
  · intro e he
    obtain ⟨row, hrow, hdomain, hread⟩ := hfrom e he
    exact ⟨row, hrow, hdomain, Row.reads_of_read? hread⟩

/-- A row with the unique id is found, if the query succeeds. -/
theorem exists_of_mem_rows {es : List Entry} {id : String} {row : Row}
    (h : r.ofDomain domain = .ok es) (hrow : row ∈ r.rows) (hdomain : row.domain = domain)
    (hid : row.uniqueId = some id) : ∃ e, r.findByUniqueId domain id = .ok (some e) := by
  obtain ⟨e, he, hread⟩ := (ofDomain_spec h).1 row hrow hdomain
  have hsome : (es.find? (·.uniqueId == some id)).isSome :=
    List.find?_isSome.2 ⟨e, he, by rw [← hread.uniqueId, hid]; exact BEq.rfl⟩
  obtain ⟨e', he'⟩ := Option.isSome_iff_exists.1 hsome
  exact ⟨e', by rw [findByUniqueId, h]; exact congrArg Except.ok he'⟩

/-- What is found was read from a row with the unique id. -/
theorem mem_rows_of_found {id : String} {e : Entry}
    (h : r.findByUniqueId domain id = .ok (some e)) :
    ∃ row ∈ r.rows, row.domain = domain ∧ row.uniqueId = some id ∧ row.Reads e := by
  unfold findByUniqueId at h
  cases hes : r.ofDomain domain with
  | error err => rw [hes] at h; cases h
  | ok es =>
    rw [hes] at h
    have hfind : es.find? (·.uniqueId == some id) = some e := Except.ok.inj h
    obtain ⟨row, hrow, hdomain, hread⟩ := (ofDomain_spec hes).2 e (List.mem_of_find?_eq_some hfind)
    have hid := List.find?_some hfind
    exact ⟨row, hrow, hdomain, hread.uniqueId.trans (by simpa using hid), hread⟩

/-- A query that succeeds finds or does not find. -/
theorem findByUniqueId_ok {es : List Entry} {id : String} (h : r.ofDomain domain = .ok es) :
    ∃ found, r.findByUniqueId domain id = .ok found :=
  ⟨es.find? (·.uniqueId == some id), by rw [findByUniqueId, h]; rfl⟩

theorem updateEntry_faults (e : Entry) : (r.updateEntry e).2.faults = r.faults := by
  simp only [updateEntry, update]
  split
  · rfl
  · split
    · rfl
    · split <;> rfl

theorem faults_of_insert {e : Entry} {r' : Repository} (h : r.insert e = .ok r') :
    r'.faults = r.faults := by
  simp only [insert, bind, Except.bind, pure, Except.pure] at h
  split at h
  · cases h
  · cases h; rfl

theorem createEntry_faults (e : Entry) (supply : Supply) :
    (r.createEntry e supply).2.1.faults = r.faults := by
  have rival {r' : Repository} {supply' : Supply}
      (h : r.afterRival e supply = (.ok r', supply')) : r'.faults = r.faults := by
    unfold afterRival at h
    split at h
    · exact faults_of_insert (congrArg Prod.fst h)
    · cases h; rfl
  simp only [createEntry, create]
  split
  · rfl
  · split
    · rfl
    · next hrival =>
      split
      · exact rival hrival
      · split
        · exact rival hrival
        · next hinsert => exact (faults_of_insert hinsert).trans (rival hrival)

theorem rows_of_insert {e : Entry} {r' : Repository} (h : r.insert e = .ok r') :
    r.rows.insert? (.ofEntry e) = some r'.rows := by
  simp only [insert, ofOption, bind, Except.bind, pure, Except.pure] at h
  split at h
  · cases h
  · next heq =>
    split at heq
    · next hrows => cases heq; cases h; exact hrows
    · cases heq

/-- The unique id of an entry that was stored was free. -/
theorem not_clashes_of_createEntry {e e' : Entry} {supply : Supply}
    (h : (r.createEntry e supply).1 = .ok e') {row : Row} (hrow : row ∈ r.rows) :
    ¬ row.clashes (.ofEntry e) = true := by
  have rival {r' : Repository} {supply' : Supply}
      (h : r.afterRival e supply = (.ok r', supply')) : row ∈ r'.rows := by
    unfold afterRival at h
    split at h
    · rw [(Rows.insert?_eq_some.1 (rows_of_insert (congrArg Prod.fst h))).2]
      exact List.mem_append_left _ hrow
    · cases h; exact hrow
  simp only [createEntry, create] at h
  split at h
  · cases h
  · split at h
    · cases h
    · next hrival =>
      split at h
      · cases h
      · split at h
        · cases h
        · next hinsert =>
          exact ((Rows.insert?_eq_some.1 (rows_of_insert hinsert)).1 row (rival hrival)).2

/-- An update with an entry leaves all but the data as it is, if it meets only a row of it. -/
theorem map_bare_updateEntry {e : Entry} (only : ∀ row ∈ r.rows, row.id = e.id.text → row.IsOf e) :
    (r.updateEntry e).2.rows.map Row.bare = r.rows.map Row.bare := by
  simp only [updateEntry, update]
  split
  · rfl
  · split
    · rfl
    · split
      · rfl
      · rfl
      · next hup =>
        refine Rows.map_bare_update? (fun row hrow hid => ?_) hup
        have hof := only row hrow hid
        simp [Row.bare, Row.ofEntry, hof.title, hof.uniqueId, hof.source]

/-! ### Failures -/

/-- Unless a rival stores its copy, an entry is stored or everything stays as it is. -/
theorem createEntry_cases (alone : r.faults.rival = false) (e : Entry) (supply : Supply) :
    (∃ err, r.createEntry e supply = (.error err, r, supply)) ∨
      ∃ r', r.insert e = .ok r' ∧ r.createEntry e supply = (.ok e, r', supply) := by
  simp only [createEntry, create, afterRival, alone, Bool.false_eq_true, if_false]
  cases e.validate with
  | error rule => exact .inl ⟨_, rfl⟩
  | ok u =>
    cases guardFault r.faults.create with
    | error err => exact .inl ⟨err, rfl⟩
    | ok u =>
      cases r.insert e with
      | error err => exact .inl ⟨err, rfl⟩
      | ok r' => exact .inr ⟨r', rfl, rfl⟩

theorem createEntry_of_error {e : Entry} {supply : Supply} {err : HubError}
    (alone : r.faults.rival = false) (failed : (r.createEntry e supply).1 = .error err) :
    (r.createEntry e supply).2 = (r, supply) := by
  rcases createEntry_cases alone e supply with ⟨err', heq⟩ | ⟨r', -, heq⟩
  · rw [heq]
  · rw [heq] at failed
    cases failed

theorem updateEntry_of_error {e : Entry} {err : HubError}
    (failed : (r.updateEntry e).1 = .error err) : (r.updateEntry e).2 = r := by
  simp only [updateEntry, update] at failed ⊢
  cases hvalid : e.validate with
  | error rule => rfl
  | ok u =>
    simp only [hvalid] at failed ⊢
    split
    · rfl
    · next hfault =>
      simp only [hfault] at failed
      split
      · rfl
      · rfl
      · next hup => simp only [hup] at failed; cases failed

theorem deleteEntry_of_error {id : Uuid} {err : HubError}
    (failed : (r.deleteEntry id).1 = .error err) : (r.deleteEntry id).2 = r := by
  simp only [deleteEntry, delete] at failed ⊢
  cases hget : r.getEntry id with
  | error err => rfl
  | ok e =>
    simp only [hget] at failed ⊢
    split
    · rfl
    · next hfault => simp only [hfault] at failed; cases failed

end Repository

/-- A valid entry is stored unless its id or its unique id is taken. -/
theorem Hub.createEntry_eq {h : Hub} {e : Entry} (faultless : h.repository.faults = {})
    (valid : e.validate = .ok ()) : h.createEntry e =
      match h.repository.rows.insert? (.ofEntry e) with
      | some rows => (.ok e, { h with repository := { h.repository with rows } })
      | none => (.error Repository.databaseError, h) := by
  obtain ⟨supply, publisher, states, ⟨rows, faults⟩, loaded, network, contacts, flows⟩ := h
  cases faultless
  simp only [createEntry, Repository.createEntry, valid, Repository.create, Repository.afterRival,
    Repository.guardFault, Repository.insert, Repository.ofOption, bind, Except.bind, pure,
    Except.pure, Bool.false_eq_true, if_false]
  cases rows.insert? (.ofEntry e) <;> rfl

end HomeHub
