import HomeHub.Proofs.Json.Record

/-!
# What holds of tables

A property of all values of a table is kept by storing values that have it (`Table.All`). Of two tables, the
one may hold all that the other holds, as a relation of the values allows (`Table.Grows`), or differ from it
under one key only (`Table.Changes`).
-/

namespace HomeHub

namespace Table

variable {κ α : Type} [Ord κ] {P : κ → α → Prop} {R S : α → α → Prop} {s t u : Table κ α} {k : κ}

/-- Every value is as its key asks. -/
def All (P : κ → α → Prop) (t : Table κ α) : Prop := ∀ k v, t.get? k = some v → P k v

/-- What the first table holds the second holds under the same key, as the relation allows. -/
def Grows (R : α → α → Prop) (s t : Table κ α) : Prop :=
  ∀ k v, s.get? k = some v → ∃ v', t.get? k = some v' ∧ R v v'

/-- The tables differ under this key at most, and there as the relation allows. -/
structure Changes (k : κ) (R : α → α → Prop) (s t : Table κ α) : Prop where
  here : ∃ v v', s.get? k = some v ∧ t.get? k = some v' ∧ R v v'
  elsewhere : ∀ k' ≠ k, t.get? k' = s.get? k'

theorem all_empty : All P (empty : Table κ α) := nofun

theorem Grows.refl (hR : ∀ v, R v v) (t : Table κ α) : t.Grows R t := fun _ v hv => ⟨v, hv, hR v⟩

theorem Grows.mono (h : s.Grows R t) (hRS : ∀ v v', R v v' → S v v') : s.Grows S t := by
  intro k v hv
  obtain ⟨v', hv', hvv'⟩ := h k v hv
  exact ⟨v', hv', hRS v v' hvv'⟩

theorem Grows.trans (hR : ∀ {v v' v''}, R v v' → R v' v'' → R v v'') (h : s.Grows R t)
    (h' : t.Grows R u) : s.Grows R u := by
  intro k v hv
  obtain ⟨v', hv', hvv'⟩ := h k v hv
  obtain ⟨v'', hv'', hvv''⟩ := h' k v' hv'
  exact ⟨v'', hv'', hR hvv' hvv''⟩

theorem Changes.grows (h : s.Changes k R t) (hRS : ∀ v v', R v v' → S v v') (hS : ∀ v, S v v) :
    s.Grows S t := by
  obtain ⟨v, v', hv, hv', hvv'⟩ := h.here
  intro k' w hw
  by_cases hk : k' = k
  · rw [hk, hv] at hw
    cases hw
    exact ⟨v', hk ▸ hv', hRS _ _ hvv'⟩
  · exact ⟨w, (h.elsewhere k' hk).trans hw, hS w⟩

theorem map_eq_self_iff {f : α → α} : t.map f = t ↔ ∀ p ∈ t.pairs, f p.2 = p.2 := by
  have hpairs : t.map f = t ↔ t.pairs.map (fun p => (p.1, f p.2)) = t.pairs.map id := by
    rw [List.map_id]
    exact ⟨congrArg pairs, fun h => eq_of_pairs h⟩
  rw [hpairs, List.map_inj_left]
  exact forall₂_congr fun p _ => ⟨congrArg Prod.snd, fun h => Prod.ext rfl h⟩

theorem values_map {β : Type} (g : α → β) (t : Table κ α) : (t.map g).values = t.values.map g := by
  simp only [values, map, List.map_map]
  rfl

variable [Std.LawfulEqOrd κ]

theorem all_iff : t.All P ↔ ∀ p ∈ t.pairs, P p.1 p.2 :=
  ⟨fun h _ hp => h _ _ (mem_pairs_iff.1 hp), fun h _ _ hget => h _ (mem_pairs_iff.2 hget)⟩

instance [∀ k v, Decidable (P k v)] : Decidable (t.All P) := decidable_of_iff _ all_iff.symm

theorem contains_iff : t.contains k = true ↔ ∃ v, (k, v) ∈ t.pairs := by
  rw [contains, Option.isSome_iff_exists]
  exact exists_congr fun _ => mem_pairs_iff.symm

variable [Std.TransOrd κ]

/-- The first key is the one that no other is below. -/
theorem head?_keys_eq_some_iff : t.keys.head? = some k ↔
    t.contains k = true ∧ ∀ k', t.contains k' = true → compare k' k ≠ .lt := by
  simp only [contains_iff]
  obtain ⟨pairs, hascending⟩ := t
  cases pairs with
  | nil => simp [keys]
  | cons p r =>
    have hr := (List.pairwise_cons.1 hascending).1
    have hself : compare k k ≠ .lt := by simp
    show some p.1 = some k ↔ _
    constructor
    · rintro ⟨⟩
      refine ⟨⟨p.2, List.mem_cons_self⟩, ?_⟩
      rintro k' ⟨v, hk'⟩ hlt
      rcases List.mem_cons.1 hk' with rfl | hk'
      · exact hself hlt
      · exact hself (Std.TransCmp.lt_trans (hr _ hk') hlt)
    · rintro ⟨⟨v, hk⟩, hleast⟩
      rcases List.mem_cons.1 hk with rfl | hk
      · rfl
      · exact absurd (hr _ hk) (hleast p.1 ⟨p.2, List.mem_cons_self⟩)

/-! ### Stored and changed values -/

omit [Std.LawfulEqOrd κ] in
theorem pairs_foldl_insert (l : List (κ × α)) (t : Table κ α) :
    (l.foldl (fun t p => t.insert p.1 p.2) t).pairs =
      l.foldl (fun acc p => Pairs.insert p.1 p.2 acc) t.pairs := by
  induction l generalizing t with
  | nil => rfl
  | cons p r ih => exact ih _

omit [Std.LawfulEqOrd κ] in
/-- A table of a list is what storing its pairs one after another makes. -/
theorem foldl_insert_empty (l : List (κ × α)) :
    l.foldl (fun t p => t.insert p.1 p.2) empty = ofList l := eq_of_pairs (pairs_foldl_insert l empty)

theorem mem_pairs_ofList_iff {l : List (κ × α)} (once : (l.map Prod.fst).Nodup) {p : κ × α} :
    p ∈ (ofList l).pairs ↔ p ∈ l := by
  obtain ⟨k, v⟩ := p
  rw [mem_pairs_iff, get?, ofList, Pairs.get?_ofList once]
  exact ⟨Pairs.mem_of_get?, Pairs.get?_of_mem once⟩

theorem get?_insert_of_ne {k' : κ} (hk : k' ≠ k) (v : α) : (t.insert k v).get? k' = t.get? k' := by
  rw [get?_insert, if_neg fun h => hk (Std.LawfulEqOrd.eq_of_compare h)]

/-- Values stored under other keys do not matter. -/
theorem get?_foldl_insert_of_ne {key : α → κ} {l : List α} (hl : ∀ x ∈ l, key x ≠ k) (t : Table κ α) :
    (l.foldl (fun t x => t.insert (key x) x) t).get? k = t.get? k := by
  induction l generalizing t with
  | nil => rfl
  | cons x r ih =>
    rw [List.foldl_cons, ih fun y hy => hl y (List.mem_cons_of_mem x hy),
      get?_insert_of_ne (hl x List.mem_cons_self).symm]

theorem get?_modify (t : Table κ α) (k k' : κ) (f : α → α) :
    (t.modify k f).get? k' = if compare k' k = .eq then (t.get? k').map f else t.get? k' := by
  unfold modify
  split
  · next v hv =>
    rw [get?_insert]
    split
    · next heq =>
      cases Std.LawfulEqOrd.eq_of_compare heq
      rw [hv, Option.map_some]
    · rfl
  · next hnone =>
    split
    · next heq =>
      cases Std.LawfulEqOrd.eq_of_compare heq
      rw [hnone, Option.map_none]
    · rfl

theorem get?_modify_of_ne {k' : κ} (hk : k' ≠ k) (f : α → α) : (t.modify k f).get? k' = t.get? k' := by
  rw [get?_modify, if_neg fun h => hk (Std.LawfulEqOrd.eq_of_compare h)]

theorem get?_modify_self (t : Table κ α) (k : κ) (f : α → α) :
    (t.modify k f).get? k = (t.get? k).map f := by
  rw [get?_modify, if_pos Std.ReflCmp.compare_self]

section Map

variable {β : Type} (g : α → β)

theorem map_insert (t : Table κ α) (k : κ) (v : α) : (t.insert k v).map g = (t.map g).insert k (g v) :=
  eq_of_get? fun k' => by
    rw [get?_map, get?_insert, get?_insert, get?_map]
    split <;> rfl

theorem map_erase (t : Table κ α) (k : κ) : (t.erase k).map g = (t.map g).erase k :=
  eq_of_get? fun k' => by
    rw [get?_map, get?_erase, get?_erase, get?_map]
    split <;> rfl

theorem map_modify {f : α → α} {f' : β → β} (h : ∀ v, g (f v) = f' (g v)) (t : Table κ α) (k : κ) :
    (t.modify k f).map g = (t.map g).modify k f' := by
  unfold modify
  rw [get?_map]
  cases t.get? k with
  | none => rfl
  | some v =>
    show (t.insert k (f v)).map g = (t.map g).insert k (f' (g v))
    rw [map_insert, h]

end Map

theorem All.insert (h : t.All P) {k : κ} {v : α} (hv : P k v) : (t.insert k v).All P := by
  intro k' v' hget
  rw [get?_insert] at hget
  split at hget
  · next heq =>
    cases Std.LawfulEqOrd.eq_of_compare heq
    cases hget
    exact hv
  · exact h k' v' hget

theorem All.modify (h : t.All P) {k : κ} {f : α → α} (hf : ∀ v, P k v → P k (f v)) :
    (t.modify k f).All P := by
  unfold Table.modify
  split
  · next v hv => exact h.insert (hf v (h k v hv))
  · exact h

theorem grows_insert {w : α} (hw : ∀ v, t.get? k = some v → R v w) (hR : ∀ v, R v v) :
    t.Grows R (t.insert k w) := by
  intro k' v hv
  by_cases hk : k' = k
  · exact ⟨w, hk ▸ get?_insert_self t k w, hw v (hk ▸ hv)⟩
  · exact ⟨v, (get?_insert_of_ne hk w).trans hv, hR v⟩

theorem changes_modify {v : α} {f : α → α} (hv : t.get? k = some v) (hf : R v (f v)) :
    t.Changes k R (t.modify k f) where
  here := ⟨v, f v, hv, by rw [get?_modify_self, hv, Option.map_some], hf⟩
  elsewhere _ hk := get?_modify_of_ne hk f

end Table

end HomeHub
