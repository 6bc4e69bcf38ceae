import HomeHub.Proofs.Entry.Rows
import HomeHub.Proofs.Timestamp.Text
import Mathlib.Data.List.Sort
import Mathlib.Data.String.Basic

/-!
# The order of listings

Rows are listed in the order of the text of their creation time, each put after those that are not
later: `byAge` is a stable sort. For instants that can be stored it is the chronological order, and
listing the rows of a domain picks them from the listing of all rows.
-/

namespace HomeHub

/-! ### Stable sorting -/

section Sorting

variable {α : Type} {r : α → α → Prop} [DecidableRel r]

theorem orderedInsert_of_forall {a : α} {l : List α} (h : ∀ b ∈ l, r a b) :
    l.orderedInsert r a = a :: l := by
  cases l with
  | nil => rfl
  | cons b l => exact List.orderedInsert_cons_of_le r l (h b List.mem_cons_self)

theorem filter_orderedInsert [IsTrans α r] (p : α → Bool) {a : α} {l : List α} (h : l.Pairwise r) :
    (l.orderedInsert r a).filter p = if p a then (l.filter p).orderedInsert r a else l.filter p := by
  induction l with
  | nil => cases hp : p a <;> simp [hp]
  | cons b l ih =>
    obtain ⟨hb, hl⟩ := List.pairwise_cons.1 h
    by_cases hab : r a b
    · -- all that follows belongs after the new one, whether it is picked or not
      have hall : ∀ c ∈ (b :: l).filter p, r a c := by
        intro c hc
        rcases List.mem_cons.1 (List.mem_filter.1 hc).1 with rfl | hc
        · exact hab
        · exact trans_of r hab (hb c hc)
      rw [List.orderedInsert_cons_of_le r l hab, orderedInsert_of_forall hall, List.filter_cons]
    · rw [List.orderedInsert_of_not_le r l hab, List.filter_cons, List.filter_cons, ih hl]
      cases p a <;> cases p b <;> simp [List.orderedInsert_cons, hab]

/-- Sorting and picking can change places. -/
theorem filter_insertionSort [Std.Total r] [IsTrans α r] (p : α → Bool) (l : List α) :
    (l.insertionSort r).filter p = (l.filter p).insertionSort r := by
  induction l with
  | nil => rfl
  | cons a l ih =>
    rw [List.insertionSort_cons, filter_orderedInsert p (List.pairwise_insertionSort r l), ih,
      List.filter_cons]
    split <;> rfl

end Sorting

namespace Rows

/-- Whether a row is listed before another if it was stored before it. -/
def NotAfter (a b : Row) : Prop := a.createdAt ≤ b.createdAt

instance : DecidableRel NotAfter := fun a b => inferInstanceAs (Decidable (a.createdAt ≤ b.createdAt))

/-- Putting a later row in its place does not disturb the place of an earlier one. -/
theorem insertByAge_orderedInsert (a b : Row) (rows : Rows) :
    insertByAge a (rows.orderedInsert NotAfter b) = (insertByAge a rows).orderedInsert NotAfter b := by
  have hage {a b : Row} : ¬ a.createdAt < b.createdAt ↔ NotAfter b a := not_lt
  induction rows with
  | nil =>
    rw [List.orderedInsert_nil, insertByAge, insertByAge]
    by_cases hab : a.createdAt < b.createdAt
    · rw [if_pos hab, List.orderedInsert_of_not_le _ _ (fun h => hage.2 h hab)]
      rfl
    · rw [if_neg hab, List.orderedInsert_cons_of_le _ _ (hage.1 hab)]
      rfl
  | cons c rest ih =>
    by_cases hbc : NotAfter b c
    · rw [List.orderedInsert_cons_of_le _ _ hbc, insertByAge]
      by_cases hab : a.createdAt < b.createdAt
      · rw [if_pos hab, insertByAge, if_pos (lt_of_lt_of_le hab hbc),
          List.orderedInsert_of_not_le _ _ (fun h => hage.2 h hab),
          List.orderedInsert_cons_of_le _ _ hbc]
      · rw [if_neg hab, insertByAge]
        by_cases hac : a.createdAt < c.createdAt
        · rw [if_pos hac, List.orderedInsert_cons_of_le _ _ (hage.1 hab)]
        · rw [if_neg hac, List.orderedInsert_cons_of_le _ _ hbc]
    · rw [List.orderedInsert_of_not_le _ _ hbc, insertByAge, insertByAge]
      have hcb : c.createdAt < b.createdAt := not_le.1 hbc
      by_cases hac : a.createdAt < c.createdAt
      · rw [if_pos hac, if_pos hac,
          List.orderedInsert_of_not_le _ _ (fun h => hage.2 h (lt_trans hac hcb)),
          List.orderedInsert_of_not_le _ _ hbc]
      · rw [if_neg hac, if_neg hac, ih, List.orderedInsert_of_not_le _ _ hbc]

/-- Listing is a stable sort. -/
theorem byAge_eq (rows : Rows) : rows.byAge = rows.insertionSort NotAfter := by
  have later (b : Row) (rows acc : Rows) :
      rows.foldl (fun acc r => insertByAge r acc) (acc.orderedInsert NotAfter b) =
        (rows.foldl (fun acc r => insertByAge r acc) acc).orderedInsert NotAfter b := by
    induction rows generalizing acc with
    | nil => rfl
    | cons a rows ih => rw [List.foldl_cons, List.foldl_cons, insertByAge_orderedInsert, ih]
  induction rows with
  | nil => rfl
  | cons b rows ih =>
    rw [List.insertionSort_cons, ← ih]
    exact later b rows []

instance : Std.Total NotAfter := ⟨fun a b => le_total a.createdAt b.createdAt⟩

instance : IsTrans Row NotAfter := ⟨fun _ _ _ => le_trans (α := String)⟩

theorem filter_byAge (p : Row → Bool) (rows : Rows) : rows.byAge.filter p = Rows.byAge (rows.filter p) := by
  rw [byAge_eq, byAge_eq, filter_insertionSort]

end Rows

namespace Entry

/-- Whether an entry was created no later than another. -/
def NotAfter (a b : Entry) : Prop := b.createdAt.before a.createdAt = false

instance : DecidableRel NotAfter := fun a b =>
  inferInstanceAs (Decidable (b.createdAt.before a.createdAt = false))

/-- Entries in chronological order, those of one instant as they were. -/
def chronological (entries : List Entry) : List Entry := entries.insertionSort NotAfter

theorem notAfter_ofEntry_iff {a b : Entry} (ha : a.createdAt.Storable) (hb : b.createdAt.Storable) :
    NotAfter a b ↔ Rows.NotAfter (.ofEntry a) (.ofEntry b) := by
  rw [NotAfter, Rows.NotAfter, ← not_lt, ← Bool.not_eq_true]
  exact not_congr (hb.offsetText_lt_iff ha).symm

/-- The rows of entries are listed as the entries are in chronological order. -/
theorem byAge_map_ofEntry {entries : List Entry} (h : ∀ e ∈ entries, e.createdAt.Storable) :
    Rows.byAge (entries.map Row.ofEntry) = (chronological entries).map Row.ofEntry := by
  rw [Rows.byAge_eq, chronological, List.map_insertionSort NotAfter Rows.NotAfter]
  exact fun a ha b hb => notAfter_ofEntry_iff (h a ha) (h b hb)

theorem mem_chronological {e : Entry} {entries : List Entry} :
    e ∈ chronological entries ↔ e ∈ entries := List.mem_insertionSort NotAfter

end Entry

end HomeHub
