import HomeHub.Json.Reader
import HomeHub.Proofs.Json.RoundTrip
import Mathlib.Data.List.Forall2

/-!
# Reading back a record

A record that this library writes is an object with each key once. `Shape.Accepts` says that a shape
makes a value of the fields given to it, one lemma for each way to put shapes together; an object that
gives those fields is then read as that value, whatever other members it has: `Shape.read_obj`.
-/

namespace HomeHub

namespace Pairs

variable {κ α : Type} [Ord κ]

theorem get?_eq_none_of_notMem [Std.LawfulEqOrd κ] {k : κ} {l : List (κ × α)}
    (h : k ∉ l.map Prod.fst) : get? k l = none :=
  get?_eq_none.2 fun p hp heq =>
    h (List.mem_map.2 ⟨p, hp, (Std.LawfulEqOrd.eq_of_compare heq).symm⟩)

theorem mem_of_get? [Std.LawfulEqOrd κ] {k : κ} {v : α} {l : List (κ × α)} (h : get? k l = some v) :
    (k, v) ∈ l := by
  induction l with
  | nil => cases h
  | cons p r ih =>
    rw [get?] at h
    split at h
    · next heq =>
      cases Std.LawfulEqOrd.eq_of_compare heq
      cases h
      exact List.mem_cons_self
    · exact List.mem_cons_of_mem _ (ih h)

theorem Ascending.nodup [Std.ReflOrd κ] {l : List (κ × α)} (h : Ascending l) :
    (l.map Prod.fst).Nodup := by
  refine List.pairwise_map.2 (h.imp fun {p q} hlt heq => ?_)
  have hself : compare q.1 q.1 = .eq := Std.ReflCmp.compare_self
  rw [heq, hself] at hlt
  cases hlt

theorem get?_of_mem [Std.LawfulEqOrd κ] {k : κ} {v : α} {l : List (κ × α)}
    (once : (l.map Prod.fst).Nodup) (h : (k, v) ∈ l) : get? k l = some v := by
  induction l with
  | nil => cases h
  | cons p r ih =>
    obtain ⟨hp, hr⟩ := List.nodup_cons.1 once
    rcases List.mem_cons.1 h with rfl | h
    · exact if_pos Std.ReflCmp.compare_self
    · rw [get?, if_neg, ih hr h]
      intro heq
      cases Std.LawfulEqOrd.eq_of_compare heq
      exact hp (List.mem_map.2 ⟨_, h, rfl⟩)

theorem filter_of_get? [Std.LawfulEqOrd κ] [DecidableEq κ] {k : κ} {v : α} {l : List (κ × α)}
    (once : (l.map Prod.fst).Nodup) (h : get? k l = some v) :
    l.filter (fun p => p.1 = k) = [(k, v)] := by
  induction l with
  | nil => cases h
  | cons p r ih =>
    obtain ⟨hp, hr⟩ := List.nodup_cons.1 once
    rw [get?] at h
    split at h
    · next heq =>
      cases Std.LawfulEqOrd.eq_of_compare heq
      cases h
      have rest : r.filter (fun q => q.1 = p.1) = [] := by
        refine List.filter_eq_nil_iff.2 fun q hq heq => hp (List.mem_map.2 ⟨q, hq, ?_⟩)
        exact of_decide_eq_true heq
      rw [List.filter_cons, if_pos (decide_eq_true rfl), rest]
    · next hne =>
      rw [List.filter_cons, if_neg, ih hr h]
      intro heq
      exact hne (of_decide_eq_true heq ▸ Std.ReflCmp.compare_self)

variable [Std.TransOrd κ] [Std.LawfulEqOrd κ]

theorem get?_foldl_insert {l acc : List (κ × α)} (once : (l.map Prod.fst).Nodup) (k : κ) :
    get? k (l.foldl (fun acc p => insert p.1 p.2 acc) acc) = (get? k l <|> get? k acc) := by
  induction l generalizing acc with
  | nil => rfl
  | cons p r ih =>
    obtain ⟨hp, hr⟩ := List.nodup_cons.1 once
    rw [List.foldl_cons, ih hr, get?_insert, get?]
    split
    · next heq =>
      cases Std.LawfulEqOrd.eq_of_compare heq
      rw [get?_eq_none_of_notMem hp]
      rfl
    · rfl

theorem get?_ofList {l : List (κ × α)} (once : (l.map Prod.fst).Nodup) (k : κ) :
    get? k (ofList l) = get? k l := by
  rw [ofList, get?_foldl_insert once]
  cases get? k l <;> rfl

end Pairs

namespace Table

variable {κ α : Type} [Ord κ] [Std.LawfulEqOrd κ] {t : Table κ α}

theorem mem_pairs_iff {k : κ} {v : α} : (k, v) ∈ t.pairs ↔ t.get? k = some v :=
  ⟨Pairs.get?_of_mem t.ascending.nodup, Pairs.mem_of_get?⟩

/-! Values that tell their own keys. -/

variable {key : α → κ}

theorem mem_values_iff (h : ∀ k v, t.get? k = some v → key v = k) {v : α} :
    v ∈ t.values ↔ t.get? (key v) = some v := by
  constructor
  · intro hv
    obtain ⟨⟨k, v⟩, hmem, rfl⟩ := List.mem_map.1 hv
    have hget := mem_pairs_iff.1 hmem
    rwa [h k v hget]
  · exact fun hget => List.mem_map.2 ⟨_, mem_pairs_iff.2 hget, rfl⟩

theorem ascending_values (key : α → κ) (h : ∀ k v, t.get? k = some v → key v = k) :
    t.values.Pairwise fun x y => compare (key x) (key y) = .lt := by
  refine List.pairwise_map.2 (t.ascending.imp_of_mem fun {p q} hp hq hlt => ?_)
  rwa [h _ _ (mem_pairs_iff.1 hp), h _ _ (mem_pairs_iff.1 hq)]

end Table

namespace Json

theorem get?_record {members : List (String × Json)} (once : (members.map Prod.fst).Nodup)
    (key : String) : (record members).get? key = Pairs.get? key members :=
  Pairs.get?_ofList once key

theorem depth_lt_record {members : List (String × Json)} (once : (members.map Prod.fst).Nodup)
    {key : String} {j : Json} (h : (key, j) ∈ members) : j.depth < (record members).depth := by
  have hmem : (key, j) ∈ Pairs.ofList members :=
    Pairs.mem_of_get? ((Pairs.get?_ofList once key).trans (Pairs.get?_of_mem once h))
  exact Nat.lt_succ_of_le (memberDepths_le_iff.1 le_rfl _ hmem)

/-! ### Readers put together -/

namespace Reader

variable {α β : Type} {depth : Nat}

theorem andThen_ok {read : Reader α} {f : α → Option β} {node : Node} {x : α} {y : β}
    (hread : read depth node = .ok x) (hf : f x = some y) : andThen read f depth node = .ok y := by
  simp only [andThen, hread, bind, Except.bind, hf]
  rfl

theorem text_toNode (s : String) : text depth (Json.str s).toNode = .ok s := rfl

theorem option_ok {read : Reader α} {j : Json} {x : α} (hread : read depth j.toNode = .ok x)
    (hnull : j ≠ .null) : option read depth j.toNode = .ok (some x) := by
  cases j <;> first | exact absurd rfl hnull | exact congrArg (Except.map some) hread

theorem option_toNode {read : Reader α} {f : α → Json} {x : Option α}
    (h : ∀ y ∈ x, read depth (f y).toNode = .ok y ∧ f y ≠ .null) :
    option read depth (Json.ofOption f x).toNode = .ok x := by
  cases x with
  | none => rfl
  | some y => exact option_ok (h y rfl).1 (h y rfl).2

/-- The members of an object are read in order, each under its own key. -/
theorem members_toMemberNodes (read : Reader α) (R : Json → α → Prop) {ms : List (String × Json)}
    (h : ∀ m ∈ ms, ∃ x, read depth m.2.toNode = .ok x ∧ R m.2 x) :
    ∃ found, members read (depth + 1) (.obj (toMemberNodes ms) true) = .ok found ∧
      List.Forall₂ (fun m p => m.1 = p.1 ∧ R m.2 p.2) ms found := by
  induction ms with
  | nil => exact ⟨[], rfl, .nil⟩
  | cons m r ih =>
    obtain ⟨key, j⟩ := m
    obtain ⟨x, hx, hR⟩ := h (key, j) List.mem_cons_self
    obtain ⟨found, hfound, hall⟩ := ih fun m hm => h m (List.mem_cons_of_mem _ hm)
    refine ⟨(key, x) :: found, ?_, .cons ⟨rfl, hR⟩ hall⟩
    simp only [members, ↓reduceIte, bind_pure] at hfound ⊢
    simp only [toMemberNodes, toMemberNode, List.mapM_cons, hx, hfound]
    rfl

/-- A table is read back with the same keys. -/
theorem table_toNode (read : Reader α) (R : Json → α → Prop) {t : Table String Json}
    (h : ∀ m ∈ t.pairs, ∃ x, read depth m.2.toNode = .ok x ∧ R m.2 x) :
    ∃ t', table read (depth + 1) (Json.obj t.pairs).toNode = .ok t' ∧
      List.Forall₂ (fun m p => m.1 = p.1 ∧ R m.2 p.2) t.pairs t'.pairs := by
  obtain ⟨found, hfound, hall⟩ := members_toMemberNodes read R h
  have hkeys : t.pairs.map Prod.fst = found.map Prod.fst :=
    List.forall₂_eq_eq_eq ▸ List.forall₂_map_left_iff.2
      (List.forall₂_map_right_iff.2 (hall.imp fun _ _ h => h.1))
  have hasc : Pairs.Ascending found := (Pairs.ascending_iff_of_keys hkeys).1 t.ascending
  refine ⟨⟨found, hasc⟩, ?_, hall⟩
  rw [table, toNode, hfound]
  exact congrArg Except.ok (by simp only [Table.ofList, Pairs.ofList_eq_self hasc])

end Reader

/-! ### What a shape makes of given fields -/

namespace Shape

variable {α β : Type} {depth : Nat} {given : String → Option Node}

/-- Every field that is given can be read, and what is built from them is `x`. -/
structure Accepts (s : Shape α) (depth : Nat) (given : String → Option Node) (x : α) : Prop where
  /-- Only the shape's own fields matter. -/
  build : ∀ found : String → Option Node, (∀ f ∈ s.fields, found f.name = given f.name) →
    s.build depth found = .ok x
  checks : ∀ f ∈ s.fields, ∀ node, given f.name = some node → f.check depth node = .ok ()

theorem accepts_field {name : String} {presence : Presence} {read : Reader α}
    {absent : Except Fault α} {node : Node} {x : α} (hgiven : given name = some node)
    (hread : read depth node = .ok x) : (field name presence read absent).Accepts depth given x where
  build found hfound := by
    have hname : found name = some node := (hfound _ List.mem_cons_self).trans hgiven
    simp only [field, hname, hread]
  checks f hf node' hnode' := by
    cases List.mem_singleton.1 hf
    cases hgiven.symm.trans hnode'
    simp only [hread, Except.map]

theorem accepts_member {ms : List (String × Json)} (once : (ms.map Prod.fst).Nodup) {name : String}
    {presence : Presence} {read : Reader α} {absent : Except Fault α} {j : Json} {x : α}
    (hmem : (name, j) ∈ ms) (hread : read depth j.toNode = .ok x) :
    (field name presence read absent).Accepts depth (fun key => (Pairs.get? key ms).map toNode) x :=
  accepts_field (congrArg (Option.map toNode) (Pairs.get?_of_mem once hmem)) hread

theorem accepts_pure (x : α) : (pure x : Shape α).Accepts depth given x where
  build _ _ := rfl
  checks _ hf := by cases hf

theorem Accepts.seq {f : Shape (α → β)} {s : Shape α} {g : α → β} {x : α}
    (hf : f.Accepts depth given g) (hs : s.Accepts depth given x) :
    (f <*> s).Accepts depth given (g x) where
  build found hfound := by
    have hg := hf.build found fun f hf => hfound f (List.mem_append_left _ hf)
    have hx := hs.build found fun f hf => hfound f (List.mem_append_right _ hf)
    show (f.build depth found >>= fun g => s.build depth found >>= fun y => pure (g y)) = _
    rw [hg, hx]
    rfl
  checks field hfield := (List.mem_append.1 hfield).elim (hf.checks field) (hs.checks field)

theorem Accepts.map {s : Shape α} {x : α} (hs : s.Accepts depth given x) (g : α → β) :
    (g <$> s).Accepts depth given (g x) :=
  (accepts_pure g).seq hs

/-! ### Objects -/

/-- What the walk has found under a name. -/
def located (found : List (String × Node)) (name : String) : Option Node :=
  (found.find? (·.1 == name)).map Prod.snd

theorem located_nil (name : String) : located [] name = none := rfl

theorem located_cons (key : String) (node : Node) (found : List (String × Node)) (name : String) :
    located ((key, node) :: found) name = if key = name then some node else located found name := by
  by_cases h : key = name <;> simp [located, h]

theorem any_eq_false_of_located {found : List (String × Node)} {key : String}
    (h : located found key = none) : found.any (·.1 == key) = false := by
  simpa [located] using h

/-- The walk over members with each key once finds under every field's name the member of that name,
as long as those can be read. -/
theorem walkMembers_toMemberNodes {fields : List Field} {members : List (String × Json)}
    (once : (members.map Prod.fst).Nodup) {found : List (String × Node)}
    (hchecks : ∀ f ∈ fields, ∀ j, Pairs.get? f.name members = some j →
      f.check depth j.toNode = .ok ())
    (hnew : ∀ key ∈ members.map Prod.fst, located found key = none) :
    ∃ found', walkMembers fields depth (toMemberNodes members) found = .ok found' ∧
      ∀ f ∈ fields, located found' f.name =
        ((Pairs.get? f.name members).map toNode <|> located found f.name) := by
  induction members generalizing found with
  | nil => exact ⟨found, rfl, fun f _ => rfl⟩
  | cons m r ih =>
    obtain ⟨key, j⟩ := m
    obtain ⟨hkey, hr⟩ := List.nodup_cons.1 once
    have hrest : ∀ f ∈ fields, ∀ j, Pairs.get? f.name r = some j →
        f.check depth j.toNode = .ok () := by
      intro f hf j' hj'
      refine hchecks f hf j' ?_
      rw [Pairs.get?, if_neg, hj']
      intro heq
      rw [Std.LawfulEqOrd.eq_of_compare heq, Pairs.get?_eq_none_of_notMem hkey] at hj'
      cases hj'
    rw [toMemberNodes, toMemberNode, walkMembers]
    cases hfind : fields.find? (·.name == key) with
    | none =>
      -- an unknown member, which no field's name asks for
      obtain ⟨found', hwalk, hlocated⟩ := ih hr hrest fun k hk => hnew k (List.mem_cons_of_mem _ hk)
      refine ⟨found', hwalk, fun f hf => ?_⟩
      have hne : f.name ≠ key := by simpa using List.find?_eq_none.1 hfind f hf
      rw [hlocated f hf, Pairs.get?, if_neg fun heq => hne (Std.LawfulEqOrd.eq_of_compare heq)]
    | some field =>
      have hname : field.name = key := by simpa using List.find?_some hfind
      have hcheck : field.check depth j.toNode = .ok () :=
        hchecks field (List.mem_of_find?_eq_some hfind) j (by simp [Pairs.get?, hname])
      have hfresh := any_eq_false_of_located (hnew key List.mem_cons_self)
      have hnext : ∀ k ∈ r.map Prod.fst, located ((key, j.toNode) :: found) k = none := by
        intro k hk
        have hne : key ≠ k := fun h => hkey (by rwa [h])
        rw [located_cons, if_neg hne, hnew k (List.mem_cons_of_mem _ hk)]
      obtain ⟨found', hwalk, hlocated⟩ := ih hr hrest hnext
      refine ⟨found', ?_, fun f hf => ?_⟩
      · simp only [hfresh, Bool.false_eq_true, ↓reduceIte, hcheck]
        exact hwalk
      · rw [hlocated f hf, located_cons, Pairs.get?]
        by_cases heq : f.name = key
        · rw [if_pos heq.symm, if_pos (by rw [heq]; exact Std.ReflCmp.compare_self), heq,
            Pairs.get?_eq_none_of_notMem hkey]
          rfl
        · rw [if_neg fun h => heq h.symm, if_neg fun h => heq (Std.LawfulEqOrd.eq_of_compare h)]

/-- An object with each key once is read as the value that the shape makes of its members. -/
theorem read_obj {s : Shape α} {members : List (String × Json)}
    (once : (members.map Prod.fst).Nodup) {x : α}
    (h : s.Accepts depth (fun name => ((Json.obj members).get? name).map toNode) x) :
    s.read (depth + 1) (Json.obj members).toNode = .ok x := by
  have hchecks : ∀ f ∈ s.fields, ∀ j, Pairs.get? f.name members = some j →
      f.check depth j.toNode = .ok () := fun f hf j hj =>
    h.checks f hf j.toNode (by simp only [Json.get?, hj, Option.map_some])
  obtain ⟨found, hwalk, hlocated⟩ := walkMembers_toMemberNodes once hchecks fun _ _ => located_nil _
  have hbuild := h.build (located found) fun f hf => by
    rw [hlocated f hf, Json.get?]
    cases Pairs.get? f.name members <;> rfl
  rw [toNode, read, hwalk]
  exact hbuild

/-- A record whose members are named once is read as the value that the shape makes of them. -/
theorem read_record {s : Shape α} {members : List (String × Json)}
    (once : (members.map Prod.fst).Nodup) {x : α}
    (h : s.Accepts depth (fun name => (Pairs.get? name members).map toNode) x) :
    s.read (depth + 1) (Json.record members).toNode = .ok x := by
  refine read_obj (Pairs.ascending_ofList members).nodup ?_
  simpa only [Json.get?, Pairs.get?_ofList once] using h

end Shape

end Json

end HomeHub
