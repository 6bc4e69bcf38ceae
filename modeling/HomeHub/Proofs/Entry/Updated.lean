import HomeHub.Proofs.Entry.Register

/-!
# What an update leaves

An update writes title, unique id, source and data of an entry over those stored. Domain and
creation time stay as they were, so what the update answers, the entry it was given, is what is
stored only if it has these two in common with the stored one: `Repository.updated_reads_back_iff`.
-/

namespace HomeHub

/-- Keys are not repeated, and every row stores an entry. -/
structure Rows.Stored (rows : Rows) : Prop where
  keys : (rows.map (·.id)).Nodup
  entries : ∀ row ∈ rows, ∃ e, row.Stores e

/-- What becomes of a stored entry when one is updated. -/
def Entry.after (e s : Entry) : Entry := if s.id = e.id then s.revised e else s

/-- What becomes of a row when an entry is updated. -/
def Row.after (e : Entry) (row : Row) : Row :=
  if row.id == e.id.text then row.revised (.ofEntry e) else row

namespace Entry

theorem after_of_id {e s : Entry} (h : s.id = e.id) : e.after s = s.revised e := if_pos h

theorem after_of_ne {e s : Entry} (h : s.id ≠ e.id) : e.after s = s := if_neg h

@[simp] theorem after_id (e s : Entry) : (e.after s).id = s.id := by
  by_cases h : s.id = e.id
  · rw [after_of_id h]
    rfl
  · rw [after_of_ne h]

/-- The parts that an update leaves alone. -/
theorem revised_eq_iff {old e : Entry} (h : old.id = e.id) :
    old.revised e = e ↔ e.domain = old.domain ∧ e.createdAt = old.createdAt := by
  obtain ⟨id, domain, title, uniqueId, source, data, createdAt⟩ := e
  cases h
  constructor
  · intro heq
    exact ⟨(congrArg Entry.domain heq).symm, (congrArg Entry.createdAt heq).symm⟩
  · rintro ⟨rfl, rfl⟩
    rfl

end Entry

namespace Row

variable {e : Entry} {row : Row}

theorem after_of_id (h : row.id = e.id.text) : row.after e = row.revised (.ofEntry e) :=
  if_pos (beq_iff_eq.2 h)

theorem after_of_ne (h : row.id ≠ e.id.text) : row.after e = row := if_neg (mt beq_iff_eq.1 h)

@[simp] theorem after_id : (row.after e).id = row.id := by
  by_cases h : row.id = e.id.text
  · rw [after_of_id h, revised_id]
  · rw [after_of_ne h]

@[simp] theorem after_domain : (row.after e).domain = row.domain := by
  by_cases h : row.id = e.id.text
  · rw [after_of_id h, revised_domain]
  · rw [after_of_ne h]

@[simp] theorem after_createdAt : (row.after e).createdAt = row.createdAt := by
  by_cases h : row.id = e.id.text
  · rw [after_of_id h, revised_createdAt]
  · rw [after_of_ne h]

/-- An update with an entry, and with what it leaves of another one, writes the same. -/
theorem revised_ofEntry_revised (row : Row) (s e : Entry) :
    row.revised (.ofEntry (s.revised e)) = row.revised (.ofEntry e) := by
  simp only [revised, ofEntry, Entry.revised]

theorem Stores.after {s : Entry} (h : row.Stores s) (data : Json.ofText e.data.text = .ok e.data) :
    (row.after e).Stores (e.after s) := by
  by_cases heq : s.id = e.id
  · rw [Row.after_of_id (h.id.trans (congrArg Uuid.text heq)), Entry.after_of_id heq,
      ← revised_ofEntry_revised row s e]
    exact h.revised rfl rfl rfl data
  · rw [Row.after_of_ne fun hid => heq (Uuid.text_injective (h.id.symm.trans hid)),
      Entry.after_of_ne heq]
    exact h

end Row

namespace Rows

variable {rows : Rows} {e : Entry}

/-- The row with a key is found by it. -/
theorem find?_of_mem {row : Row} {key : String} (once : (rows.map (·.id)).Nodup) (hrow : row ∈ rows)
    (hid : row.id = key) : rows.find? (·.id == key) = some row := by
  cases hfind : rows.find? (·.id == key) with
  | none => exact absurd (beq_iff_eq.2 hid) (List.find?_eq_none.1 hfind row hrow)
  | some row' =>
    have hkey := List.find?_some hfind
    rw [List.inj_on_of_nodup_map once (List.mem_of_find?_eq_some hfind) hrow
      ((beq_iff_eq.1 hkey).trans hid.symm)]

theorem byAge_map {f : Row → Row} (h : ∀ row, (f row).createdAt = row.createdAt) (rows : Rows) :
    Rows.byAge (rows.map f) = rows.byAge.map f := by
  rw [byAge_eq, byAge_eq, List.map_insertionSort NotAfter NotAfter]
  intro a _ b _
  rw [NotAfter, NotAfter, h, h]

theorem readAll?_map_after (stored : ∀ row ∈ rows, ∃ s, row.Stores s)
    (data : Json.ofText e.data.text = .ok e.data) :
    Rows.readAll? (rows.map (Row.after e)) = rows.readAll?.map (List.map e.after) := by
  induction rows with
  | nil => rfl
  | cons row rest ih =>
    obtain ⟨s, hs⟩ := stored row List.mem_cons_self
    have hrest := ih fun row hrow => stored row (List.mem_cons_of_mem _ hrow)
    simp only [readAll?] at hrest
    simp only [readAll?, List.map_cons, List.mapM_cons, hrest, (hs.after data).read, hs.read]
    cases List.mapM Row.read? rest <;> rfl

end Rows

namespace Repository

variable {r r' : Repository} {e e' : Entry}

/-- An update that succeeds has found the row, and rewrites it. -/
theorem updateEntry_eq_ok (updated : r.updateEntry e = (.ok e', r')) : e' = e ∧
    r' = { r with rows := r.rows.map (Row.after e) } ∧ ∃ row ∈ r.rows, row.id = e.id.text := by
  cases hvalid : e.validate with
  | error rule => simp [updateEntry, hvalid] at updated
  | ok u =>
    cases hfault : r.faults.update with
    | some reason => simp [updateEntry, hvalid, update, hfault, guardFault] at updated
    | none =>
      simp only [updateEntry, hvalid, update_eq hfault] at updated
      split at updated
      · cases updated
      · cases updated
      · next rows hup =>
        cases updated
        refine ⟨rfl, by rw [Rows.eq_map_of_update? hup]; rfl, ?_⟩
        simp only [Rows.update?] at hup
        split at hup
        · cases hup
        · have hfound := (Prod.mk.inj (Option.some.inj hup)).1
          simpa using hfound

/-- An entry is read back from its row. -/
theorem getEntry_of_stores {s : Entry} {row : Row} {id : Uuid} (stored : r.rows.Stored)
    (faultless : r.faults.get = none) (hrow : row ∈ r.rows) (hs : row.Stores s) (hid : s.id = id) :
    r.getEntry id = .ok s := by
  have hkey : row.id = id.text := hs.id.trans (congrArg Uuid.text hid)
  simp only [getEntry, getById, faultless, guardFault, Rows.find?_of_mem stored.keys hrow hkey,
    hs.read]
  rfl

/-- The row found by an id is the one that was found before the update, as this leaves it. -/
theorem find?_map_after (rows : Rows) (e : Entry) (id : Uuid) :
    (rows.map (Row.after e)).find? (·.id == id.text) =
      (rows.find? (·.id == id.text)).map (Row.after e) := by
  have hkey : (fun row : Row => row.id == id.text) ∘ Row.after e = fun row => row.id == id.text :=
    funext fun row => by rw [Function.comp_apply, Row.after_id]
  rw [List.find?_map, hkey]

/-- Other entries read back as before. -/
theorem getEntry_after_of_ne {id : Uuid} (other : id ≠ e.id) :
    getEntry { r with rows := r.rows.map (Row.after e) } id = r.getEntry id := by
  simp only [getEntry, getById, find?_map_after]
  cases hfind : r.rows.find? (·.id == id.text) with
  | none => rfl
  | some row =>
    have hkey := List.find?_some hfind
    rw [beq_iff_eq] at hkey
    have hne : row.id ≠ e.id.text := fun hid => other (Uuid.text_injective (hkey.symm.trans hid))
    rw [Option.map_some, Row.after_of_ne hne]

section After

variable (stored : r.rows.Stored) (data : Json.ofText e.data.text = .ok e.data)

include stored data

theorem ofDomain_after (domain : String) :
    ofDomain { r with rows := r.rows.map (Row.after e) } domain =
      (r.ofDomain domain).map (List.map e.after) := by
  have hpick : (fun row : Row => row.domain == domain) ∘ Row.after e = (·.domain == domain) :=
    funext fun row => by rw [Function.comp_apply, Row.after_domain]
  have listed : ∀ row ∈ Rows.byAge (r.rows.filter (·.domain == domain)), ∃ s, row.Stores s :=
    fun row hrow => stored.entries row (List.mem_filter.1 (Rows.mem_byAge.1 hrow)).1
  have hread := Rows.readAll?_map_after listed data
  simp only [ofDomain, List.filter_map, hpick, Rows.byAge_map fun row => Row.after_createdAt, hread]
  cases guardFault r.faults.find with
  | error err => rfl
  | ok u => cases Rows.readAll? (Rows.byAge (r.rows.filter (·.domain == domain))) <;> rfl

variable {old : Entry} {row : Row} (hrow : row ∈ r.rows) (hold : row.Stores old)
  (same : old.id = e.id)

include hrow hold same

/-- By its id an entry reads back as what the update left of the stored one. -/
theorem getEntry_after (get : r.faults.get = none) :
    getEntry { r with rows := r.rows.map (Row.after e) } e.id = .ok (old.revised e) := by
  have hkey : row.id = e.id.text := hold.id.trans (congrArg Uuid.text same)
  simp only [getEntry, getById, get, guardFault, find?_map_after,
    Rows.find?_of_mem stored.keys hrow hkey, Option.map_some, (hold.after data).read,
    Entry.after_of_id same]
  rfl

theorem getEntry_after_iff (get : r.faults.get = none) :
    getEntry { r with rows := r.rows.map (Row.after e) } e.id = .ok e ↔
      e.domain = old.domain ∧ e.createdAt = old.createdAt := by
  rw [getEntry_after stored data hrow hold same get, ← Entry.revised_eq_iff same]
  exact ⟨Except.ok.inj, congrArg Except.ok⟩

/-- The listing of its domain has an entry if the update left it of the stored one. -/
theorem mem_ofDomain_after_iff (find : r.faults.find = none) :
    (∃ es, ofDomain { r with rows := r.rows.map (Row.after e) } e.domain = .ok es ∧ e ∈ es) ↔
      e.domain = old.domain ∧ e.createdAt = old.createdAt := by
  obtain ⟨es, hes, hmem⟩ :=
    ofDomain_of_stores e.domain find fun s hs _ => stored.entries s hs
  rw [ofDomain_after stored data, hes, ← Entry.revised_eq_iff same, ← Entry.after_of_id same]
  constructor
  · rintro ⟨es', hes', he⟩
    cases hes'
    obtain ⟨s, hs, hafter⟩ := List.mem_map.1 he
    obtain ⟨row', hrow', -, hs'⟩ := (hmem s).1 hs
    have hid : s.id = e.id := (Entry.after_id e s).symm.trans (congrArg Entry.id hafter)
    -- no other row has this key
    cases List.inj_on_of_nodup_map stored.keys hrow' hrow
      (hs'.id.trans ((congrArg Uuid.text (hid.trans same.symm)).trans hold.id.symm))
    cases hs'.unique hold
    exact hafter
  · intro hkept
    have hdomain : row.domain = e.domain := by
      rw [hold.reads.domain, ← hkept, Entry.after_of_id same]
      rfl
    exact ⟨_, rfl, List.mem_map.2 ⟨old, (hmem old).2 ⟨row, hrow, hdomain, hold⟩, hkept⟩⟩

end After

end Repository

namespace Register

/-- Entries that read back are stored by their rows. -/
theorem Sound.stored {es : Register} (h : es.Sound) : es.repository.rows.Stored where
  keys := h.keys
  entries row hrow := by
    obtain ⟨e, he, rfl⟩ := List.mem_map.1 hrow
    exact ⟨e, Row.stores_ofEntry (h.storable e he)⟩

theorem sound_lamp : Register.Sound [lamp] :=
  ⟨fun _ he => List.mem_singleton.1 he ▸ storable_lamp, List.nodup_singleton _⟩

def retitledLamp : Entry := { lamp with title := "desk" }

/-- The lamp as an entry of another integration. -/
def movedLamp : Entry := { lamp with domain := "mysensors" }

/-- A lamp that is the only entry may become any valid entry with its id. -/
theorem updateEntry_lamp {e : Entry} (valid : e.validate = .ok ()) (same : lamp.id = e.id) :
    ∃ r', (Register.repository [lamp]).updateEntry e = (.ok e, r') := by
  obtain ⟨rows, heq, -⟩ := Repository.updateEntry_of_free (r := Register.repository [lamp])
    sound_lamp.keys rfl List.mem_cons_self (congrArg Uuid.text same) valid
    fun s hs hne => absurd (congrArg Row.id (List.mem_singleton.1 hs)) hne
  exact ⟨_, heq⟩

end Register

namespace Repository

variable {r r' : Repository} {e e' : Entry}

/-- What an update answers is the entry it was given. Reading the entry back, by its id or in the
listing of its domain, gives this answer exactly if domain and creation time are those of the entry
stored before; otherwise it gives the stored entry, changed in title, unique id, source and data. No
other entry changes, by any way of reading it. -/
theorem updated_reads_back_iff (stored : r.rows.Stored) (get : r.faults.get = none)
    (find : r.faults.find = none) (data : Json.ofText e.data.text = .ok e.data)
    (updated : r.updateEntry e = (.ok e', r')) :
    e' = e ∧ (∀ id, id ≠ e.id → r'.getEntry id = r.getEntry id) ∧
      (∀ domain, r'.ofDomain domain = (r.ofDomain domain).map (List.map e.after)) ∧
      ∃ old, r.getEntry e.id = .ok old ∧ r'.getEntry e.id = .ok (old.revised e) ∧
        (r'.getEntry e'.id = .ok e' ↔ e'.domain = old.domain ∧ e'.createdAt = old.createdAt) ∧
        ((∃ es, r'.ofDomain e'.domain = .ok es ∧ e' ∈ es) ↔
          e'.domain = old.domain ∧ e'.createdAt = old.createdAt) := by
  obtain ⟨rfl, rfl, row, hrow, hid⟩ := updateEntry_eq_ok updated
  obtain ⟨old, hold⟩ := stored.entries row hrow
  have same : old.id = e'.id := Uuid.text_injective (hold.id.symm.trans hid)
  exact ⟨rfl, fun id => getEntry_after_of_ne, ofDomain_after stored data, old,
    getEntry_of_stores stored get hrow hold same, getEntry_after stored data hrow hold same get,
    getEntry_after_iff stored data hrow hold same get,
    mem_ofDomain_after_iff stored data hrow hold same find⟩

/-- A lamp gets another title, which is read back. -/
theorem updated_reads_back_of_title : ∃ r',
    (Register.repository [Register.lamp]).updateEntry Register.retitledLamp =
        (.ok Register.retitledLamp, r') ∧
      r'.getEntry Register.lamp.id = .ok Register.retitledLamp ∧
      ∃ es, r'.ofDomain nativeApiDomain = .ok es ∧ Register.retitledLamp ∈ es := by
  have hstored := Register.sound_lamp.stored
  have hlamp := Row.stores_ofEntry Register.storable_lamp
  have valid : Register.retitledLamp.validate = .ok () := by decide +kernel
  obtain ⟨r', updated⟩ := Register.updateEntry_lamp valid rfl
  obtain ⟨-, -, -, old, hold, -, hget, hlist⟩ :=
    updated_reads_back_iff (e := Register.retitledLamp) hstored rfl rfl Register.storable_lamp.data
      updated
  cases (getEntry_of_stores hstored rfl List.mem_cons_self hlamp rfl).symm.trans hold
  exact ⟨r', updated, hget.2 ⟨rfl, rfl⟩, hlist.2 ⟨rfl, rfl⟩⟩

/-- An update with a lamp of another domain answers that lamp, and stores the one it had. -/
theorem not_always_updated : ¬ ∀ (r r' : Repository) (e e' : Entry), r.rows.Stored → r.faults = {} →
    e.Storable → r.updateEntry e = (.ok e', r') →
    r'.getEntry e.id = .ok e' ∧ (∃ es, r'.ofDomain e'.domain = .ok es ∧ e' ∈ es) ∧
      ∀ id, id ≠ e.id → r'.getEntry id = r.getEntry id := by
  intro claimed
  have hstored := Register.sound_lamp.stored
  have hdata := Register.storable_lamp.data
  have valid : Register.movedLamp.validate = .ok () := by decide +kernel
  obtain ⟨r', updated⟩ := Register.updateEntry_lamp valid rfl
  have hread := (claimed _ _ Register.movedLamp _ hstored rfl
    ⟨hdata, Register.storable_lamp.createdAt⟩ updated).1
  obtain ⟨-, rfl, -⟩ := updateEntry_eq_ok updated
  have hdomain := ((getEntry_after_iff (e := Register.movedLamp) hstored hdata List.mem_cons_self
    (Row.stores_ofEntry Register.storable_lamp) rfl rfl).1 hread).1
  exact absurd hdomain (by decide)

end Repository

end HomeHub
