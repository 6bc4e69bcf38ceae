import HomeHub.Proofs.Entry.Listing
import HomeHub.Proofs.Entry.Stored

/-!
# The repository as a list of entries

`Register.answer` says what each statement answers on a plain list of entries, in the order of their
insertion, and what it makes of the list. The repository keeps texts in place of entries; as long as
these read back, `run_eq_register`, it answers any sequence of statements in the same way.
-/

namespace HomeHub

inductive Statement where
  | create (e : Entry)
  | update (e : Entry)
  | delete (id : Uuid)
  | getById (id : Uuid)
  | all
  | ofDomain (domain : String)

inductive Reply where
  | entry (result : Except HubError Entry)
  | deleted (result : Except HubError Unit)
  | found (result : Except HubError (Option Entry))
  | listed (result : Except HubError (List Entry))

namespace Entry

/-- What reads back from its row. -/
structure Storable (e : Entry) : Prop where
  data : Json.ofText e.data.text = .ok e.data
  createdAt : e.createdAt.Storable

/-- Two entries that cannot be stored together: of one domain, with the same unique id. -/
def Clashes (a b : Entry) : Prop :=
  a.domain = b.domain ∧ a.uniqueId.isSome ∧ a.uniqueId = b.uniqueId

instance (a b : Entry) : Decidable (a.Clashes b) := inferInstanceAs (Decidable (_ ∧ _))

/-- An entry after an update with another one. -/
def revised (old new : Entry) : Entry :=
  { old with title := new.title, uniqueId := new.uniqueId, source := new.source, data := new.data }

end Entry

/-! ### Statements on a list of entries -/

/-- Entries in the order of their insertion. -/
abbrev Register := List Entry

namespace Register

def answer : Statement → Register → Reply × Register
  | .create e, es =>
    if ∃ s ∈ es, s.id = e.id ∨ s.Clashes e then (.entry (.error Repository.databaseError), es)
    else (.entry (.ok e), es ++ [e])
  | .update e, es =>
    match es.find? (·.id = e.id) with
    | none => (.entry (.error (.notFound ⟨"ConfigEntry", e.id.text⟩)), es)
    | some old =>
      if ∃ s ∈ es, s.id ≠ e.id ∧ s.Clashes (old.revised e) then
        (.entry (.error Repository.databaseError), es)
      else (.entry (.ok e), es.map fun s => if s.id = e.id then s.revised e else s)
  | .delete id, es => (.deleted (.ok ()), es.filter (·.id ≠ id))
  | .getById id, es => (.found (.ok (es.find? (·.id = id))), es)
  | .all, es => (.listed (.ok (Entry.chronological es)), es)
  | .ofDomain domain, es => (.listed (.ok ((Entry.chronological es).filter (·.domain = domain))), es)

def run : List Statement → Register → List Reply × Register
  | [], es => ([], es)
  | s :: rest, es =>
    let (reply, es) := answer s es
    let (replies, es) := run rest es
    (reply :: replies, es)

end Register

/-! ### Statements on the repository -/

namespace Statement

def answer : Statement → Repository × Supply → Reply × Repository × Supply
  | .create e, (r, supply) =>
    let (result, r, supply) := r.create e supply
    (.entry result, r, supply)
  | .update e, (r, supply) =>
    let (result, r) := r.update e
    (.entry result, r, supply)
  | .delete id, (r, supply) =>
    let (result, r) := r.delete id
    (.deleted result, r, supply)
  | .getById id, (r, supply) => (.found (r.getById id), r, supply)
  | .all, (r, supply) => (.listed r.all, r, supply)
  | .ofDomain domain, (r, supply) => (.listed (r.ofDomain domain), r, supply)

def run : List Statement → Repository × Supply → List Reply × Repository × Supply
  | [], r => ([], r)
  | s :: rest, r =>
    let (reply, r) := s.answer r
    let (replies, r) := run rest r
    (reply :: replies, r)

/-- What the statement brings in reads back from its row. -/
def Storable : Statement → Prop
  | .create e => e.Storable
  | .update e => Json.ofText e.data.text = .ok e.data
  | _ => True

end Statement

/-! ### Rows of entries -/

namespace Row

theorem read?_ofEntry {e : Entry} (h : e.Storable) : (ofEntry e).read? = some e := by
  exact read?_eq_some_iff.2 ⟨⟨Uuid.parse?_text e.id, rfl, rfl, rfl⟩, Source.ofText?_text e.source,
    h.data, h.createdAt.parseStrict?_offsetText⟩

theorem stores_ofEntry {e : Entry} (h : e.Storable) : (ofEntry e).Stores e :=
  ⟨rfl, read?_ofEntry h, h.data⟩

theorem ofEntry_id_eq (e : Entry) (id : Uuid) : (ofEntry e).id = id.text ↔ e.id = id :=
  ⟨Uuid.text_injective, congrArg Uuid.text⟩

theorem ofEntry_id_beq (e : Entry) (id : Uuid) : ((ofEntry e).id == id.text) = decide (e.id = id) := by
  rw [Bool.eq_iff_iff, beq_iff_eq, decide_eq_true_iff, ofEntry_id_eq]

theorem revised_ofEntry (old new : Entry) :
    (ofEntry old).revised (ofEntry new) = ofEntry (old.revised new) := rfl

theorem clashes_ofEntry {a b : Entry} : (ofEntry a).clashes (ofEntry b) = true ↔ a.Clashes b :=
  clashes_iff

end Row

namespace Register

/-- The repository that keeps the rows of these entries. -/
def repository (es : Register) : Repository := { rows := es.map Row.ofEntry }

/-- The entries read back from their rows, and no two have the same id. -/
structure Sound (es : Register) : Prop where
  storable : ∀ e ∈ es, e.Storable
  ids : (es.map Entry.id).Nodup

theorem Sound.keys {es : Register} (h : es.Sound) : ((es.map Row.ofEntry).map (·.id)).Nodup := by
  have hkeys : (es.map Row.ofEntry).map (·.id) = (es.map Entry.id).map Uuid.text := by
    rw [List.map_map, List.map_map]
    rfl
  rw [hkeys]
  exact h.ids.map fun u v => Uuid.text_injective

theorem readAll?_map {es : List Entry} (h : ∀ e ∈ es, e.Storable) :
    Rows.readAll? (es.map Row.ofEntry) = some es := by
  induction es with
  | nil => rfl
  | cons e es ih =>
    have hread := Row.read?_ofEntry (h e List.mem_cons_self)
    have hrest : (es.map Row.ofEntry).mapM Row.read? = some es :=
      ih fun e' he' => h e' (List.mem_cons_of_mem e he')
    rw [Rows.readAll?, List.map_cons, List.mapM_cons, hread, hrest]
    rfl

theorem find?_map_ofEntry (es : List Entry) (id : Uuid) :
    (es.map Row.ofEntry).find? (·.id == id.text) = (es.find? (·.id = id)).map Row.ofEntry := by
  have hkey : (fun r : Row => r.id == id.text) ∘ Row.ofEntry = fun e => decide (e.id = id) :=
    funext fun e => Row.ofEntry_id_beq e id
  rw [List.find?_map, hkey]

theorem insert?_map_ofEntry (es : List Entry) (e : Entry) :
    Rows.insert? (es.map Row.ofEntry) (.ofEntry e) =
      if ∃ s ∈ es, s.id = e.id ∨ s.Clashes e then none else some ((es ++ [e]).map Row.ofEntry) := by
  have htaken : (es.map Row.ofEntry).any (fun s => s.id == (Row.ofEntry e).id || s.clashes (.ofEntry e)) =
      decide (∃ s ∈ es, s.id = e.id ∨ s.Clashes e) := by
    rw [Bool.eq_iff_iff, decide_eq_true_iff, List.any_map, List.any_eq_true]
    refine exists_congr fun s => and_congr_right fun _ => ?_
    rw [Function.comp_apply, Bool.or_eq_true, beq_iff_eq, Row.clashes_ofEntry]
    exact or_congr (Row.ofEntry_id_eq s e.id) Iff.rfl
  rw [Rows.insert?, htaken, List.map_append, List.map_singleton]
  by_cases h : ∃ s ∈ es, s.id = e.id ∨ s.Clashes e
  · rw [if_pos (decide_eq_true h), if_pos h]
  · rw [if_neg (by simpa using h), if_neg h]

theorem delete_map_ofEntry (es : List Entry) (id : Uuid) :
    Rows.delete (es.map Row.ofEntry) id.text = (es.filter (·.id ≠ id)).map Row.ofEntry := by
  have hkey : (fun r : Row => r.id != id.text) ∘ Row.ofEntry = fun e => decide (e.id ≠ id) := by
    funext e
    rw [Function.comp_apply, bne, Row.ofEntry_id_beq, decide_not]
  rw [Rows.delete, List.filter_map, hkey]

theorem update?_map_ofEntry_of_none {es : List Entry} {e : Entry}
    (hnone : es.find? (·.id = e.id) = none) (change : Row → Row) :
    ∃ rows, Rows.update? (es.map Row.ofEntry) e.id.text change = some (false, rows) := by
  have habsent : ∀ r ∈ es.map Row.ofEntry, (r.id == e.id.text) = false := by
    intro r hr
    obtain ⟨s, hs, rfl⟩ := List.mem_map.1 hr
    rw [Row.ofEntry_id_beq, decide_eq_false_iff_not]
    simpa using List.find?_eq_none.1 hnone s hs
  have hfound : (es.map Row.ofEntry).any (·.id == e.id.text) = false :=
    List.any_eq_false.2 fun r hr => by simp [habsent r hr]
  have htaken : ((es.map Row.ofEntry).any fun r => r.id == e.id.text &&
      ((es.map Row.ofEntry).filter (·.id != e.id.text)).any (·.clashes (change r))) = false :=
    List.any_eq_false.2 fun r hr => by simp [habsent r hr]
  rw [Rows.update?, hfound]
  simp only [htaken, Bool.false_eq_true, if_false]
  exact ⟨_, rfl⟩

/-- A change of the row with the id of an entry, unless a unique id would be taken. -/
theorem update?_map_ofEntry {es : List Entry} (ids : (es.map Entry.id).Nodup) {e old : Entry}
    (hold : es.find? (·.id = e.id) = some old) :
    Rows.update? (es.map Row.ofEntry) e.id.text (·.revised (.ofEntry e)) =
      if ∃ s ∈ es, s.id ≠ e.id ∧ s.Clashes (old.revised e) then none
      else some (true, (es.map fun s => if s.id = e.id then s.revised e else s).map Row.ofEntry) := by
  have hid : old.id = e.id := by simpa using List.find?_some hold
  have hmem := List.mem_of_find?_eq_some hold
  -- no other entry has this id
  have honly : ∀ s ∈ es, s.id = e.id → s = old := fun s hs hse =>
    List.inj_on_of_nodup_map ids hs hmem (hse.trans hid.symm)
  have hothers : (es.map Row.ofEntry).filter (·.id != e.id.text) =
      (es.filter (·.id ≠ e.id)).map Row.ofEntry := delete_map_ofEntry es e.id
  have htaken : ((es.map Row.ofEntry).any fun r => r.id == e.id.text &&
      ((es.map Row.ofEntry).filter (·.id != e.id.text)).any (·.clashes (r.revised (.ofEntry e)))) =
      decide (∃ s ∈ es, s.id ≠ e.id ∧ s.Clashes (old.revised e)) := by
    rw [hothers, Bool.eq_iff_iff, decide_eq_true_iff, List.any_map, List.any_eq_true]
    simp only [Function.comp_apply, Row.ofEntry_id_beq, Bool.and_eq_true, decide_eq_true_eq,
      Row.revised_ofEntry, List.any_map, List.any_eq_true, List.mem_filter, Row.clashes_ofEntry]
    constructor
    · rintro ⟨s, hs, hse, s', ⟨hs', hne⟩, hclash⟩
      exact ⟨s', hs', hne, honly s hs hse ▸ hclash⟩
    · rintro ⟨s', hs', hne, hclash⟩
      exact ⟨old, hmem, hid, s', ⟨hs', hne⟩, hclash⟩
  have hfound : (es.map Row.ofEntry).any (·.id == e.id.text) = true := by
    rw [List.any_map, List.any_eq_true]
    exact ⟨old, hmem, (Row.ofEntry_id_beq old e.id).trans (decide_eq_true hid)⟩
  have hmap : (es.map Row.ofEntry).map (fun r =>
      if r.id == e.id.text then r.revised (.ofEntry e) else r) =
      (es.map fun s => if s.id = e.id then s.revised e else s).map Row.ofEntry := by
    rw [List.map_map, List.map_map]
    refine List.map_congr_left fun s _ => ?_
    simp only [Function.comp_apply, Row.ofEntry_id_beq, decide_eq_true_eq, Row.revised_ofEntry]
    split <;> rfl
  rw [Rows.update?, hfound, hmap]
  simp only [htaken, decide_eq_true_eq]

/-! ### Every statement -/

theorem create_eq (es : Register) (e : Entry) (supply : Supply) :
    (Statement.create e).answer (es.repository, supply) =
      ((answer (.create e) es).1, (answer (.create e) es).2.repository, supply) := by
  simp only [Statement.answer, answer, Repository.create, Repository.afterRival, repository,
    Repository.guardFault, Repository.insert, Repository.ofOption, Bool.false_eq_true, if_false,
    insert?_map_ofEntry]
  by_cases h : ∃ s ∈ es, s.id = e.id ∨ s.Clashes e
  · simp only [if_pos h]
    rfl
  · simp only [if_neg h]
    rfl

theorem update_eq {es : Register} (h : es.Sound) (e : Entry) (supply : Supply) :
    (Statement.update e).answer (es.repository, supply) =
      ((answer (.update e) es).1, (answer (.update e) es).2.repository, supply) := by
  have hupdate := Repository.update_eq (r := es.repository) rfl e
  simp only [Statement.answer, answer, hupdate]
  cases hold : es.find? (·.id = e.id) with
  | none =>
    obtain ⟨rows, hrows⟩ := update?_map_ofEntry_of_none hold (·.revised (.ofEntry e))
    simp only [repository, hrows]
  | some old =>
    simp only [repository, update?_map_ofEntry h.ids hold]
    by_cases htaken : ∃ s ∈ es, s.id ≠ e.id ∧ s.Clashes (old.revised e)
    · simp only [if_pos htaken]
    · simp only [if_neg htaken]

theorem delete_eq (es : Register) (id : Uuid) (supply : Supply) :
    (Statement.delete id).answer (es.repository, supply) =
      ((answer (.delete id) es).1, (answer (.delete id) es).2.repository, supply) := by
  simp only [Statement.answer, answer, Repository.delete, Repository.guardFault, repository,
    delete_map_ofEntry]

theorem getById_eq {es : Register} (h : es.Sound) (id : Uuid) :
    es.repository.getById id = .ok (es.find? (·.id = id)) := by
  simp only [Repository.getById, Repository.guardFault, repository, find?_map_ofEntry, bind,
    Except.bind]
  cases hfind : es.find? (·.id = id) with
  | none => rfl
  | some e =>
    have hread := Row.read?_ofEntry (h.storable e (List.mem_of_find?_eq_some hfind))
    simp only [Option.map_some, hread]
    rfl

theorem all_eq {es : Register} (h : es.Sound) :
    es.repository.all = .ok (Entry.chronological es) := by
  have hrows := Entry.byAge_map_ofEntry fun e he => (h.storable e he).createdAt
  have hread := readAll?_map fun e he => h.storable e (Entry.mem_chronological.1 he)
  simp only [Repository.all, Repository.guardFault, repository, hrows, hread]
  rfl

theorem ofDomain_eq {es : Register} (h : es.Sound) (domain : String) :
    es.repository.ofDomain domain = .ok ((Entry.chronological es).filter (·.domain = domain)) := by
  have hrows := Entry.byAge_map_ofEntry fun e he => (h.storable e he).createdAt
  have hpick : (fun r : Row => r.domain == domain) ∘ Row.ofEntry = fun e => decide (e.domain = domain) := by
    funext e
    rw [Function.comp_apply, beq_eq_decide]
    rfl
  have hread : Rows.readAll? (((Entry.chronological es).filter (·.domain = domain)).map Row.ofEntry) =
      some ((Entry.chronological es).filter (·.domain = domain)) := readAll?_map fun e he =>
    h.storable e (Entry.mem_chronological.1 (List.mem_filter.1 he).1)
  simp only [Repository.ofDomain, Repository.guardFault, repository]
  rw [← Rows.filter_byAge, hrows, List.filter_map, hpick, hread]
  rfl

/-- The repository answers a statement as the list does. -/
theorem answer_eq {es : Register} (h : es.Sound) (s : Statement) (supply : Supply) :
    s.answer (es.repository, supply) = ((answer s es).1, (answer s es).2.repository, supply) := by
  cases s with
  | create e => exact create_eq es e supply
  | update e => exact update_eq h e supply
  | delete id => exact delete_eq es id supply
  | getById id => simp only [Statement.answer, answer, getById_eq h]
  | all => simp only [Statement.answer, answer, all_eq h]
  | ofDomain domain => simp only [Statement.answer, answer, ofDomain_eq h]

theorem Sound.answer {es : Register} (h : es.Sound) {s : Statement} (hs : s.Storable) :
    (Register.answer s es).2.Sound := by
  cases s with
  | create e =>
    simp only [Register.answer]
    split
    · exact h
    · next hfree =>
      refine ⟨fun x hx => ?_, ?_⟩
      · exact (List.mem_append.1 hx).elim (h.storable x) fun hx => List.mem_singleton.1 hx ▸ hs
      · rw [List.map_append, List.map_singleton, ← List.concat_eq_append]
        refine h.ids.concat fun hmem => ?_
        obtain ⟨x, hx, hid⟩ := List.mem_map.1 hmem
        exact hfree ⟨x, hx, .inl hid⟩
  | update e =>
    simp only [Register.answer]
    split
    · exact h
    · split
      · exact h
      · refine ⟨fun x hx => ?_, ?_⟩
        · obtain ⟨y, hy, rfl⟩ := List.mem_map.1 hx
          split
          · exact ⟨hs, (h.storable y hy).createdAt⟩
          · exact h.storable y hy
        · have hids : (Entry.id ∘ fun x : Entry => if x.id = e.id then x.revised e else x) = Entry.id := by
            funext x
            rw [Function.comp_apply]
            split <;> rfl
          rw [List.map_map, hids]
          exact h.ids
  | delete id =>
    exact ⟨fun x hx => h.storable x (List.mem_filter.1 hx).1,
      h.ids.sublist (List.filter_sublist.map Entry.id)⟩
  | getById id => exact h
  | all => exact h
  | ofDomain domain => exact h

/-- From an empty database the repository answers any statements as a list of entries does, and
keeps the rows of that list, in which no id is repeated. -/
theorem run_eq_register (statements : List Statement) (storable : ∀ s ∈ statements, s.Storable)
    (supply : Supply) :
    Statement.run statements ({}, supply) =
        ((Register.run statements []).1, (Register.run statements []).2.repository, supply) ∧
      (Register.run statements []).2.Sound := by
  suffices ∀ es : Register, es.Sound → Statement.run statements (es.repository, supply) =
        ((Register.run statements es).1, (Register.run statements es).2.repository, supply) ∧
      (Register.run statements es).2.Sound from this [] ⟨nofun, List.nodup_nil⟩
  induction statements with
  | nil => exact fun es h => ⟨rfl, h⟩
  | cons s rest ih =>
    intro es h
    obtain ⟨hrest, hsound⟩ := ih (fun s' hs' => storable s' (List.mem_cons_of_mem s hs'))
      (Register.answer s es).2 (h.answer (storable s List.mem_cons_self))
    exact ⟨by simp only [Statement.run, Register.run, answer_eq h, hrest], hsound⟩

/-- An entry of a lamp, created at the beginning of 1970. -/
def lamp : Entry where
  id := .generated 0
  domain := nativeApiDomain
  title := "lamp"
  uniqueId := some "lamp"
  source := .user
  data := (EntryData.mk "10.0.0.7" 6053 "").toJson
  createdAt := ⟨0, 0⟩

/-- A second lamp, stored later but created earlier, of an unknown device. -/
def olderLamp : Entry :=
  { lamp with id := .generated 1, uniqueId := none, createdAt := ⟨-1, 0⟩ }

theorem storable_lamp : lamp.Storable :=
  ⟨EntryData.ofText_toJson ⟨"10.0.0.7", 6053, ""⟩, by decide, by decide⟩

theorem storable_olderLamp : olderLamp.Storable := ⟨storable_lamp.data, by decide, by decide⟩

/-- A second entry of a device is refused; the older of two entries is listed first. -/
theorem run_lamps :
    (Statement.run [.create lamp, .create { lamp with id := .generated 2 }, .create olderLamp, .all]
      ({}, ⟨0, ⟨0, 0⟩⟩)).1 = [.entry (.ok lamp), .entry (.error Repository.databaseError),
        .entry (.ok olderLamp), .listed (.ok [olderLamp, lamp])] := by
  rw [(run_eq_register _ ?_ _).1]
  · rfl
  · intro s hs
    simp only [List.mem_cons, List.not_mem_nil, or_false] at hs
    rcases hs with rfl | rfl | rfl | rfl
    · exact storable_lamp
    · exact ⟨storable_lamp.data, storable_lamp.createdAt⟩
    · exact storable_olderLamp
    · exact trivial

end Register

end HomeHub
