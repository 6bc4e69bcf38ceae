/-!
# Finite maps in ascending key order

`Pairs` are the operations on plain lists of pairs, which JSON objects use too. A `Table` is such
a list whose keys ascend strictly, so two tables that answer every look-up alike are equal.
-/

namespace HomeHub

variable {κ α β : Type}

namespace Pairs

variable [Ord κ]

/-- The value of the first pair with this key. -/
def get? (k : κ) : List (κ × α) → Option α
  | [] => none
  | (k', v) :: r => if compare k k' = .eq then some v else get? k r

/-- Puts a pair at its place in ascending order, replacing the pair of an equal key. -/
def insert (k : κ) (v : α) : List (κ × α) → List (κ × α)
  | [] => [(k, v)]
  | (k', v') :: r =>
    match compare k k' with
    | .lt => (k, v) :: (k', v') :: r
    | .eq => (k, v) :: r
    | .gt => (k', v') :: insert k v r

/-- Drops the pairs with this key. -/
def erase (k : κ) (l : List (κ × α)) : List (κ × α) :=
  l.filter fun p => compare k p.1 != .eq

/-- The pairs in ascending order; of two with one key the later wins. -/
def ofList (l : List (κ × α)) : List (κ × α) :=
  l.foldl (fun acc p => insert p.1 p.2 acc) []

def Ascending (l : List (κ × α)) : Prop :=
  l.Pairwise fun a b => compare a.1 b.1 = .lt

/-- Equal keys compare alike with a third one. -/
theorem compare_congr [Std.TransOrd κ] {a b : κ} (h : compare a b = .eq) (c : κ) :
    compare a c = compare b c := Std.TransCmp.congr_left h

theorem mem_insert {k : κ} {v : α} {l : List (κ × α)} {p : κ × α} :
    p ∈ insert k v l → p = (k, v) ∨ p ∈ l := by
  induction l with
  | nil => simp [insert]
  | cons q r ih =>
    obtain ⟨k', v'⟩ := q
    rw [insert]
    split
    · simp
    · intro h
      rcases List.mem_cons.1 h with h | h <;> simp [h]
    · intro h
      rcases List.mem_cons.1 h with h | h
      · simp [h]
      · rcases ih h with h | h <;> simp [h]

theorem Ascending.insert [Std.TransOrd κ] {k : κ} {v : α} {l : List (κ × α)} (h : Ascending l) :
    Ascending (insert k v l) := by
  induction l with
  | nil => simp [Pairs.insert, Ascending]
  | cons q r ih =>
    obtain ⟨k', v'⟩ := q
    obtain ⟨hq, hr⟩ := List.pairwise_cons.1 h
    rw [Pairs.insert]
    split
    · next hlt =>
      refine List.pairwise_cons.2 ⟨fun p hp => ?_, h⟩
      rcases List.mem_cons.1 hp with rfl | hp
      · exact hlt
      · exact Std.TransCmp.lt_trans hlt (hq p hp)
    · next heq =>
      exact List.pairwise_cons.2
        ⟨fun p hp => Std.TransCmp.lt_of_eq_of_lt heq (hq p hp), hr⟩
    · next hgt =>
      refine List.pairwise_cons.2 ⟨fun p hp => ?_, ih hr⟩
      rcases mem_insert hp with rfl | hp
      · exact Std.OrientedCmp.lt_of_gt hgt
      · exact hq p hp

theorem Ascending.erase {k : κ} {l : List (κ × α)} (h : Ascending l) : Ascending (erase k l) :=
  List.Pairwise.sublist List.filter_sublist h

theorem ascending_ofList [Std.TransOrd κ] (l : List (κ × α)) : Ascending (ofList l) := by
  unfold ofList
  suffices ∀ acc : List (κ × α), Ascending acc →
      Ascending (l.foldl (fun acc p => Pairs.insert p.1 p.2 acc) acc) from this [] List.Pairwise.nil
  induction l with
  | nil => exact fun _ h => h
  | cons p r ih => exact fun acc h => ih _ h.insert

theorem get?_insert [Std.TransOrd κ] (k k' : κ) (v : α) (l : List (κ × α)) :
    get? k' (insert k v l) = if compare k' k = .eq then some v else get? k' l := by
  induction l with
  | nil => simp [insert, get?]
  | cons q r ih =>
    obtain ⟨a, b⟩ := q
    rw [insert]
    split
    · simp [get?]
    · next heq =>
      have : compare k' a = compare k' k := (Std.TransCmp.congr_right heq).symm
      simp only [get?, this]
      split <;> rfl
    · next hgt =>
      simp only [get?, ih]
      by_cases h : compare k' a = .eq
      · have : compare k' k ≠ .eq := by
          intro hk
          have := compare_congr hk a
          simp_all
        simp [h, this]
      · simp [h]

theorem get?_erase [Std.TransOrd κ] (k k' : κ) (l : List (κ × α)) :
    get? k' (erase k l) = if compare k' k = .eq then none else get? k' l := by
  induction l with
  | nil => simp [erase, get?]
  | cons q r ih =>
    obtain ⟨a, b⟩ := q
    simp only [erase, List.filter_cons]
    by_cases h : compare k a = .eq
    · have : compare k' a = compare k' k := (Std.TransCmp.congr_right h).symm
      simp only [erase] at ih
      simp only [h, bne_self_eq_false, Bool.false_eq_true, ↓reduceIte, ih, get?, this]
      split <;> rfl
    · simp only [erase] at ih
      simp only [bne_iff_ne, ne_eq, h, not_false_eq_true, ↓reduceIte, get?, ih]
      by_cases hk : compare k' a = .eq
      · have : compare k' k ≠ .eq := by
          intro h'
          have e : compare k a = .eq := by
            rw [← compare_congr h' a]; exact hk
          exact h e
        simp [hk, this]
      · simp [hk]

theorem get?_eq_none {k : κ} {l : List (κ × α)} :
    get? k l = none ↔ ∀ p ∈ l, compare k p.1 ≠ .eq := by
  induction l with
  | nil => simp [get?]
  | cons q r ih =>
    obtain ⟨a, b⟩ := q
    by_cases h : compare k a = .eq
    · simp [get?, h]
    · simp [get?, h, ih]

/-- Ascending pairs that answer every look-up alike are equal. -/
theorem eq_of_get? [Std.TransOrd κ] [Std.LawfulEqOrd κ] {l m : List (κ × α)} (hl : Ascending l)
    (hm : Ascending m) (h : ∀ k, get? k l = get? k m) : l = m := by
  -- a key that comes before all of a list is not in it
  have below {k : κ} {q : κ × α} {r : List (κ × α)} (hr : Ascending (q :: r))
      (hk : compare k q.1 = .lt) : get? k (q :: r) = none := by
    refine get?_eq_none.2 fun p hp => ?_
    rcases List.mem_cons.1 hp with rfl | hp
    · simp [hk]
    · simp [Std.TransCmp.lt_trans hk ((List.pairwise_cons.1 hr).1 p hp)]
  induction l generalizing m with
  | nil =>
    cases m with
    | nil => rfl
    | cons q r => simpa [get?] using h q.1
  | cons p l ih =>
    cases m with
    | nil => simpa [get?] using h p.1
    | cons q m =>
      obtain ⟨hp, hl'⟩ := List.pairwise_cons.1 hl
      obtain ⟨hq, hm'⟩ := List.pairwise_cons.1 hm
      obtain ⟨a, v⟩ := p
      obtain ⟨b, w⟩ := q
      cases hab : compare a b with
      | lt =>
        have := h a
        rw [below hm hab] at this
        simp [get?] at this
      | gt =>
        have := h b
        rw [below hl (Std.OrientedCmp.lt_of_gt hab)] at this
        simp [get?] at this
      | eq =>
        cases Std.LawfulEqOrd.eq_of_compare hab
        have hv := h a
        simp only [get?, Std.ReflCmp.compare_self, if_true, Option.some.injEq] at hv
        subst hv
        have absent {r : List (κ × α)} (hr : ∀ q ∈ r, compare a q.1 = .lt) : get? a r = none :=
          get?_eq_none.2 fun q hq => by simp [hr q hq]
        refine congrArg _ (ih hl' hm' fun k => ?_)
        have hk := h k
        simp only [get?] at hk
        split at hk
        · next heq =>
          cases Std.LawfulEqOrd.eq_of_compare heq
          rw [absent hp, absent hq]
        · exact hk

end Pairs

/-- A finite map, its pairs in strictly ascending key order. -/
structure Table (κ α : Type) [Ord κ] where
  pairs : List (κ × α)
  ascending : Pairs.Ascending pairs

namespace Table

variable [Ord κ]

def empty : Table κ α := ⟨[], List.Pairwise.nil⟩

instance : Inhabited (Table κ α) := ⟨empty⟩

instance [DecidableEq κ] [DecidableEq α] : DecidableEq (Table κ α) := fun s t =>
  if h : s.pairs = t.pairs then isTrue (by cases s; cases t; simp_all)
  else isFalse fun e => h (e ▸ rfl)

def get? (t : Table κ α) (k : κ) : Option α := Pairs.get? k t.pairs

def contains (t : Table κ α) (k : κ) : Bool := (t.get? k).isSome

def insert [Std.TransOrd κ] (t : Table κ α) (k : κ) (v : α) : Table κ α :=
  ⟨Pairs.insert k v t.pairs, t.ascending.insert⟩

def erase (t : Table κ α) (k : κ) : Table κ α := ⟨Pairs.erase k t.pairs, t.ascending.erase⟩

/-- Of two pairs with one key the later wins. -/
def ofList [Std.TransOrd κ] (l : List (κ × α)) : Table κ α :=
  ⟨Pairs.ofList l, Pairs.ascending_ofList l⟩

def keys (t : Table κ α) : List κ := t.pairs.map Prod.fst

def values (t : Table κ α) : List α := t.pairs.map Prod.snd

def map (t : Table κ α) (f : α → β) : Table κ β where
  pairs := t.pairs.map fun p => (p.1, f p.2)
  ascending := by simpa [Pairs.Ascending, List.pairwise_map] using t.ascending

/-- Changes the value of a key that is present. -/
def modify [Std.TransOrd κ] (t : Table κ α) (k : κ) (f : α → α) : Table κ α :=
  match t.get? k with
  | some v => t.insert k (f v)
  | none => t

@[simp] theorem get?_empty (k : κ) : (empty : Table κ α).get? k = none := rfl

theorem get?_insert [Std.TransOrd κ] (t : Table κ α) (k k' : κ) (v : α) :
    (t.insert k v).get? k' = if compare k' k = .eq then some v else t.get? k' :=
  Pairs.get?_insert k k' v t.pairs

@[simp] theorem get?_insert_self [Std.TransOrd κ] (t : Table κ α) (k : κ) (v : α) :
    (t.insert k v).get? k = some v := by
  simp [get?_insert]

theorem get?_erase [Std.TransOrd κ] (t : Table κ α) (k k' : κ) :
    (t.erase k).get? k' = if compare k' k = .eq then none else t.get? k' :=
  Pairs.get?_erase k k' t.pairs

theorem eq_of_get? [Std.TransOrd κ] [Std.LawfulEqOrd κ] {s t : Table κ α}
    (h : ∀ k, s.get? k = t.get? k) : s = t := by
  cases s with
  | mk l hl =>
  cases t with
  | mk m hm =>
  cases Pairs.eq_of_get? hl hm h
  rfl

theorem eq_of_pairs {s t : Table κ α} (h : s.pairs = t.pairs) : s = t := by
  cases s
  cases t
  cases h
  rfl

theorem map_id (t : Table κ α) : (t.map fun x => x) = t := eq_of_pairs (List.map_id' t.pairs)

theorem map_map {γ : Type} (t : Table κ α) (f : α → β) (g : β → γ) :
    (t.map f).map g = t.map (g ∘ f) := eq_of_pairs (List.map_map ..)

theorem get?_map (t : Table κ α) (f : α → β) (k : κ) : (t.map f).get? k = (t.get? k).map f := by
  show Pairs.get? k (t.pairs.map fun p => (p.1, f p.2)) = (Pairs.get? k t.pairs).map f
  induction t.pairs with
  | nil => rfl
  | cons p r ih =>
    rw [List.map_cons, Pairs.get?, Pairs.get?, ih]
    split <;> rfl

end Table

end HomeHub
