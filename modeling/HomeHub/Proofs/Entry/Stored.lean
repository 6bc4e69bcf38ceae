import HomeHub.Proofs.Entry.Rows
import HomeHub.Proofs.Json.RoundTrip
import Mathlib.Data.List.Nodup

/-!
# Rows that store entries

`Row.Stores` says that a row is the row of an entry and reads back as it. An update with such an
entry, changed in what may change, replaces that one row by one that stores the changed entry, or
changes nothing if a unique id is taken.
-/

namespace HomeHub

namespace Source

theorem ofText?_text (source : Source) : ofText? source.text = some source := by
  cases source <;> decide

end Source

namespace Row

/-- A row after an update with another one. -/
def revised (old new : Row) : Row :=
  { old with title := new.title, uniqueId := new.uniqueId, source := new.source, data := new.data }

section Revised

variable (old new : Row)

@[simp] theorem revised_id : (old.revised new).id = old.id := rfl
@[simp] theorem revised_domain : (old.revised new).domain = old.domain := rfl
@[simp] theorem revised_uniqueId : (old.revised new).uniqueId = new.uniqueId := rfl
@[simp] theorem revised_source : (old.revised new).source = new.source := rfl
@[simp] theorem revised_createdAt : (old.revised new).createdAt = old.createdAt := rfl

end Revised

theorem clashes_congr {a b b' : Row} (domain : b.domain = b'.domain)
    (uniqueId : b.uniqueId = b'.uniqueId) : a.clashes b = a.clashes b' := by
  rw [clashes, clashes, domain, uniqueId]

/-- The row has the key of the entry and reads back as it, and so does the text of its data. -/
structure Stores (r : Row) (e : Entry) : Prop where
  id : r.id = e.id.text
  read : r.read? = some e
  data : Json.ofText e.data.text = .ok e.data

namespace Stores

variable {r : Row} {e e' : Entry}

theorem reads (h : r.Stores e) : r.Reads e := reads_of_read? h.read

theorem unique (h : r.Stores e) (h' : r.Stores e') : e = e' := by
  have hread := h'.read
  rw [h.read] at hread
  exact Option.some.inj hread

/-- What an update leaves of the row of an entry stores the changed entry. -/
theorem revised (h : r.Stores e) (id : e'.id = e.id) (domain : e'.domain = e.domain)
    (createdAt : e'.createdAt = e.createdAt) (data : Json.ofText e'.data.text = .ok e'.data) :
    (r.revised (.ofEntry e')).Stores e' := by
  obtain ⟨⟨hid, hdomain, -⟩, -, -, hcreated⟩ := read?_eq_some_iff.1 h.read
  have hkey : r.id = e'.id.text := by rw [h.id, id]
  refine ⟨(revised_id _ _).trans hkey, read?_eq_some_iff.2 ⟨⟨?_, ?_, rfl, rfl⟩, ?_, data, ?_⟩, data⟩
  · rw [revised_id, hid, id]
  · rw [revised_domain, hdomain, domain]
  · rw [revised_source]
    exact Source.ofText?_text e'.source
  · rw [revised_createdAt, hcreated, createdAt]

end Stores

end Row

namespace Rows

/-- The rows differ in one row. -/
def Replaces (before after : Rows) (r r' : Row) : Prop :=
  ∃ pre post, before = pre ++ r :: post ∧ after = pre ++ r' :: post

/-- The rows differ at most in the row of one entry of a node, which now stores another one. -/
def Changes (before after : Rows) (e e' : Entry) : Prop :=
  ∃ r r', before.Replaces after r r' ∧ r.domain = nativeApiDomain ∧ r.Stores e ∧ r'.Stores e'

variable {rows : Rows} {r : Row}

theorem replaces_map (once : (rows.map (·.id)).Nodup) (hr : r ∈ rows) (f : Row → Row) :
    rows.Replaces (rows.map fun s => if s.id == r.id then f s else s) r (f r) := by
  obtain ⟨pre, post, rfl⟩ := List.append_of_mem hr
  rw [List.map_append, List.map_cons, List.nodup_append, List.nodup_cons] at once
  obtain ⟨-, ⟨hpost, -⟩, hpre⟩ := once
  have others {l : Rows} (hl : ∀ s ∈ l, s.id ≠ r.id) :
      l.map (fun s => if s.id == r.id then f s else s) = l :=
    (List.map_congr_left fun s hs => if_neg (by simpa using hl s hs)).trans (List.map_id l)
  refine ⟨pre, post, rfl, ?_⟩
  rw [List.map_append, List.map_cons, if_pos BEq.rfl, others, others]
  · exact fun s hs heq => hpost (List.mem_map.2 ⟨s, hs, heq⟩)
  · exact fun s hs => hpre s.id (List.mem_map_of_mem hs) r.id List.mem_cons_self

/-- A row is changed unless its unique id would be taken by another one. -/
theorem update?_of_mem (once : (rows.map (·.id)).Nodup) (hr : r ∈ rows) (f : Row → Row) :
    rows.update? r.id f = none ∧ (∃ s ∈ rows, s.id ≠ r.id ∧ s.clashes (f r) = true) ∨
      ∃ rows', rows.update? r.id f = some (true, rows') ∧ rows.Replaces rows' r (f r) := by
  have hfound : rows.any (·.id == r.id) = true := List.any_eq_true.2 ⟨r, hr, BEq.rfl⟩
  simp only [update?]
  split
  · next htaken =>
    obtain ⟨r', hr', hclash⟩ := List.any_eq_true.1 htaken
    rw [Bool.and_eq_true, beq_iff_eq, List.any_eq_true] at hclash
    obtain ⟨hid, s, hs, hclash⟩ := hclash
    cases List.inj_on_of_nodup_map once hr' hr hid
    obtain ⟨hs, hne⟩ := List.mem_filter.1 hs
    exact .inl ⟨rfl, s, hs, by simpa using hne, hclash⟩
  · exact .inr ⟨_, by rw [hfound], replaces_map once hr f⟩

end Rows

namespace Repository

variable {r : Repository} {row : Row} {e : Entry}

theorem update_eq (h : r.faults.update = none) (e : Entry) : r.update e =
    match r.rows.update? e.id.text (·.revised (.ofEntry e)) with
    | none => (.error databaseError, r)
    | some (false, _) => (.error (.notFound ⟨"ConfigEntry", e.id.text⟩), r)
    | some (true, rows) => (.ok e, { r with rows }) := by
  rw [update, h]
  rfl

/-- An update with an entry that has a row replaces that row, or nothing. -/
theorem rows_updateEntry (once : (r.rows.map (·.id)).Nodup) (hrow : row ∈ r.rows)
    (hid : row.id = e.id.text) : (r.updateEntry e).2.rows = r.rows ∨
      r.rows.Replaces (r.updateEntry e).2.rows row (row.revised (.ofEntry e)) := by
  cases hfault : r.faults.update with
  | some reason =>
    left
    simp only [updateEntry, update, hfault, guardFault]
    split <;> rfl
  | none =>
    simp only [updateEntry, update_eq hfault]
    split
    · exact .inl rfl
    · have hupdate := Rows.update?_of_mem once hrow (·.revised (.ofEntry e))
      rw [hid] at hupdate
      rcases hupdate with ⟨heq, -⟩ | ⟨rows', heq, hreplaces⟩
      · exact .inl (by rw [heq])
      · exact .inr (by rw [heq]; exact hreplaces)

/-- A domain whose rows store entries is listed, all of these and no others. -/
theorem ofDomain_of_stores (domain : String) (faultless : r.faults.find = none)
    (stored : ∀ row ∈ r.rows, row.domain = domain → ∃ e, row.Stores e) :
    ∃ es, r.ofDomain domain = .ok es ∧
      ∀ e, e ∈ es ↔ ∃ row ∈ r.rows, row.domain = domain ∧ row.Stores e := by
  have hread : ∀ row ∈ Rows.byAge (r.rows.filter (·.domain == domain)), ∃ e, row.read? = some e := by
    intro row hrow
    obtain ⟨hmem, hdomain⟩ := List.mem_filter.1 (Rows.mem_byAge.1 hrow)
    obtain ⟨e, hstores⟩ := stored row hmem (by simpa using hdomain)
    exact ⟨e, hstores.read⟩
  obtain ⟨es, hes⟩ := Rows.readAll?_of_forall hread
  have hlist := ofDomain_eq_ok_iff.2 ⟨faultless, hes⟩
  obtain ⟨hall, hfrom⟩ := read?_of_ofDomain hlist
  refine ⟨es, hlist, fun e => ⟨fun he => ?_, ?_⟩⟩
  · obtain ⟨row, hrow, hdomain, hr⟩ := hfrom e he
    obtain ⟨e', hstores⟩ := stored row hrow hdomain
    cases hstores.read.symm.trans hr
    exact ⟨row, hrow, hdomain, hstores⟩
  · rintro ⟨row, hrow, hdomain, hstores⟩
    obtain ⟨e', he', hr⟩ := hall row hrow hdomain
    cases hstores.read.symm.trans hr
    exact he'

/-- What is found was read from a row of the domain. -/
theorem exists_row_of_found {domain id : String} (h : r.findByUniqueId domain id = .ok (some e)) :
    e.uniqueId = some id ∧ ∃ row ∈ r.rows, row.domain = domain ∧ row.read? = some e := by
  unfold findByUniqueId at h
  cases hes : r.ofDomain domain with
  | error err => rw [hes] at h; cases h
  | ok es =>
    rw [hes] at h
    have hfind : es.find? (·.uniqueId == some id) = some e := Except.ok.inj h
    exact ⟨by simpa using List.find?_some hfind,
      (read?_of_ofDomain hes).2 e (List.mem_of_find?_eq_some hfind)⟩

/-- The update succeeds if the entry is valid and no other row has its unique id. -/
theorem updateEntry_of_free (once : (r.rows.map (·.id)).Nodup) (faultless : r.faults.update = none)
    (hrow : row ∈ r.rows) (hid : row.id = e.id.text) (valid : e.validate = .ok ())
    (free : ∀ s ∈ r.rows, s.id ≠ row.id → ¬ s.clashes (row.revised (.ofEntry e)) = true) :
    ∃ rows, r.updateEntry e = (.ok e, { r with rows }) ∧
      r.rows.Replaces rows row (row.revised (.ofEntry e)) := by
  rcases Rows.update?_of_mem once hrow (·.revised (.ofEntry e)) with ⟨-, s, hs, hne, hclash⟩ | hupdate
  · exact absurd hclash (free s hs hne)
  · obtain ⟨rows, heq, hreplaces⟩ := hupdate
    refine ⟨rows, ?_, hreplaces⟩
    rw [hid] at heq
    simp only [updateEntry, valid, update_eq faultless, heq]

end Repository

end HomeHub
