import HomeHub.Connection
import HomeHub.Proofs.Json.Text

/-!
# Values that survive storage

The text of a value is read as the value again if every number in it is kept, the members of every
object ascend, and it is not nested too deep: `ofText_text_iff`. These are conditions on the parts of
a value, so a value that survives still does after members were set in it.
-/

namespace HomeHub

namespace Pairs

variable {κ α : Type} [Ord κ]

theorem insert_eq_append [Std.OrientedOrd κ] {k : κ} {v : α} {l : List (κ × α)}
    (h : ∀ p ∈ l, compare p.1 k = .lt) : insert k v l = l ++ [(k, v)] := by
  induction l with
  | nil => rfl
  | cons p r ih =>
    have hp : compare k p.1 = .gt := Std.OrientedCmp.gt_of_lt (h p List.mem_cons_self)
    rw [insert, hp, ih fun q hq => h q (List.mem_cons_of_mem p hq)]
    rfl

theorem ofList_eq_self [Std.OrientedOrd κ] {l : List (κ × α)} (h : Ascending l) : ofList l = l := by
  suffices ∀ acc : List (κ × α), Ascending (acc ++ l) →
      l.foldl (fun acc p => insert p.1 p.2 acc) acc = acc ++ l from this [] h
  clear h
  induction l with
  | nil => exact fun acc _ => (List.append_nil acc).symm
  | cons p r ih =>
    intro acc h
    have hbelow : ∀ q ∈ acc, compare q.1 p.1 = .lt := fun q hq =>
      (List.pairwise_append.1 h).2.2 q hq p List.mem_cons_self
    rw [List.foldl_cons, insert_eq_append hbelow, ih _ (by rwa [List.append_assoc]),
      List.append_assoc]
    rfl

theorem ascending_foldl_insert [Std.TransOrd κ] {l acc : List (κ × α)} (h : Ascending acc) :
    Ascending (l.foldl (fun acc p => insert p.1 p.2 acc) acc) := by
  induction l generalizing acc with
  | nil => exact h
  | cons p r ih => exact ih h.insert

theorem mem_foldl_insert {l : List (κ × α)} {acc : List (κ × α)} {p : κ × α}
    (h : p ∈ l.foldl (fun acc p => insert p.1 p.2 acc) acc) : p ∈ acc ∨ p ∈ l := by
  induction l generalizing acc with
  | nil => exact .inl h
  | cons q r ih =>
    rcases ih h with h | h
    · rcases mem_insert h with rfl | h
      · exact .inr List.mem_cons_self
      · exact .inl h
    · exact .inr (List.mem_cons_of_mem q h)

theorem mem_of_mem_ofList {l : List (κ × α)} {p : κ × α} (h : p ∈ ofList l) : p ∈ l :=
  (mem_foldl_insert h).resolve_left nofun

/-- Whether pairs ascend is a matter of their keys. -/
theorem ascending_iff_of_keys {β : Type} {l : List (κ × α)} {m : List (κ × β)}
    (h : l.map Prod.fst = m.map Prod.fst) : Ascending l ↔ Ascending m := by
  have hkeys {γ : Type} (l : List (κ × γ)) :
      Ascending l ↔ (l.map Prod.fst).Pairwise fun a b => compare a b = .lt := by
    rw [List.pairwise_map, Ascending]
  rw [hkeys, hkeys, h]

end Pairs

namespace Json

open Utf8 (glyphs)

/-- Every number is kept, and the members of every object ascend. -/
inductive Kept : Json → Prop where
  | null : Kept .null
  | bool (b : Bool) : Kept (.bool b)
  | num {n : Number} : n.Kept → Kept (.num n)
  | str (s : String) : Kept (.str s)
  | arr {items : List Json} : (∀ j ∈ items, Kept j) → Kept (.arr items)
  | obj {members : List (String × Json)} :
      Pairs.Ascending members → (∀ m ∈ members, Kept m.2) → Kept (.obj members)

theorem kept_num_iff {n : Number} : (Json.num n).Kept ↔ n.Kept :=
  ⟨fun h => by cases h with | num h => exact h, .num⟩

theorem kept_arr_iff {items : List Json} : (Json.arr items).Kept ↔ ∀ j ∈ items, j.Kept :=
  ⟨fun h => by cases h with | arr h => exact h, .arr⟩

theorem kept_obj_iff {members : List (String × Json)} : (Json.obj members).Kept ↔
    Pairs.Ascending members ∧ ∀ m ∈ members, m.2.Kept :=
  ⟨fun h => by cases h with | obj hasc hall => exact ⟨hasc, hall⟩, fun h => .obj h.1 h.2⟩

theorem Kept.legible {j : Json} (h : j.Kept) : j.Legible := by
  induction h with
  | null => exact .null
  | bool b => exact .bool b
  | num h => obtain ⟨numeral, hread, -⟩ := h; exact .num hread
  | str s => exact .str s
  | arr _ ih => exact .arr ih
  | obj _ _ ih => exact .obj ih

theorem depths_le_iff {items : List Json} {n : Nat} : depths items ≤ n ↔ ∀ j ∈ items, j.depth ≤ n := by
  induction items with
  | nil => simp [depths]
  | cons j r ih => rw [depths, Nat.max_le, List.forall_mem_cons, ih]

theorem memberDepths_le_iff {members : List (String × Json)} {n : Nat} :
    memberDepths members ≤ n ↔ ∀ m ∈ members, m.2.depth ≤ n := by
  induction members with
  | nil => simp [memberDepths]
  | cons m r ih => rw [memberDepths, memberDepth, Nat.max_le, List.forall_mem_cons, ih]

/-! ### Reading back -/

theorem values_echoes_iff {depth : Nat} (items : List Json) :
    Node.values depth (echoes items) = .ok items ↔ ∀ j ∈ items, j.echo.value depth = .ok j := by
  induction items with
  | nil => simp [echoes, Node.values]
  | cons j r ih =>
    rw [echoes, Node.values, List.forall_mem_cons, ← ih]
    cases j.echo.value depth with
    | error err => simp [bind, Except.bind]
    | ok x =>
      cases Node.values depth (echoes r) with
      | error err => simp [bind, Except.bind]
      | ok xs =>
        simp only [bind, Except.bind, pure, Except.pure, Except.ok.injEq, List.cons.injEq]

theorem memberValue_echo (depth : Nat) (m : String × Json) :
    Node.memberValue depth (memberEcho m) = (m.2.echo.value depth).map (m.1, ·) := by
  obtain ⟨key, j⟩ := m
  simp only [memberEcho, Node.memberValue, quotedKey]
  cases j.echo.value depth <;> rfl

/-- The keys are read as they are, so only the values can differ. -/
theorem keys_of_memberValues {depth : Nat} {members found : List (String × Json)}
    (h : Node.memberValues depth (memberEchoes members) = .ok found) :
    found.map Prod.fst = members.map Prod.fst := by
  induction members generalizing found with
  | nil => cases h; rfl
  | cons m r ih =>
    rw [memberEchoes, Node.memberValues, memberValue_echo] at h
    cases hm : m.2.echo.value depth with
    | error err => rw [hm] at h; cases h
    | ok x =>
      cases hr : Node.memberValues depth (memberEchoes r) with
      | error err => rw [hm, hr] at h; cases h
      | ok xs =>
        rw [hm, hr] at h
        cases h
        rw [List.map_cons, List.map_cons, ih hr]

theorem memberValues_echoes_iff {depth : Nat} (members : List (String × Json)) :
    Node.memberValues depth (memberEchoes members) = .ok members ↔
      ∀ m ∈ members, m.2.echo.value depth = .ok m.2 := by
  induction members with
  | nil => simp [memberEchoes, Node.memberValues]
  | cons m r ih =>
    rw [memberEchoes, Node.memberValues, List.forall_mem_cons, ← ih, memberValue_echo]
    cases m.2.echo.value depth with
    | error err => simp [Except.map, bind, Except.bind]
    | ok x =>
      cases Node.memberValues depth (memberEchoes r) with
      | error err => simp [Except.map, bind, Except.bind]
      | ok xs =>
        simp only [Except.map, bind, Except.bind, pure, Except.pure, Except.ok.injEq,
          List.cons.injEq, Prod.ext_iff, true_and]

theorem Number.kept_iff (n : Number) : n.Kept ↔ n.reread = some n := by
  unfold Number.Kept Number.reread
  cases readNumeral (glyphs n.text) with
  | none => simp
  | some p =>
    obtain ⟨numeral, left⟩ := p
    cases left <;> simp

theorem value_echo_iff (j : Json) (depth : Nat) :
    j.echo.value depth = .ok j ↔ j.Kept ∧ j.depth ≤ depth := by
  have plain {j : Json} {depth : Nat} (hkept : j.Kept) (hdepth : j.depth = 0)
      (hvalue : j.echo.value depth = .ok j) :
      j.echo.value depth = .ok j ↔ j.Kept ∧ j.depth ≤ depth :=
    ⟨fun _ => ⟨hkept, hdepth ▸ Nat.zero_le depth⟩, fun _ => hvalue⟩
  induction j using induction generalizing depth with
  | null => exact plain .null rfl (by simp only [echo, Node.value])
  | bool b => exact plain (.bool b) rfl (by simp only [echo, Node.value])
  | str s => exact plain (.str s) rfl (by simp only [echo, Node.value])
  | num n =>
    rw [kept_num_iff, n.kept_iff, echo]
    cases n.reread <;> simp [Node.value, Json.depth]
  | arr items ih =>
    cases depth with
    | zero => simp [echo, Node.value, Json.depth]
    | succ depth =>
      have hvalues : (Json.arr items).echo.value (depth + 1) = .ok (.arr items) ↔
          Node.values depth (echoes items) = .ok items := by
        rw [echo, Node.value]
        cases Node.values depth (echoes items) <;>
          simp [bind, Except.bind, pure, Except.pure]
      rw [hvalues, values_echoes_iff, kept_arr_iff, Json.depth, Nat.add_le_add_iff_right, depths_le_iff,
        ← forall₂_and]
      exact forall₂_congr fun j hj => ih j hj depth
  | obj members ih =>
    cases depth with
    | zero => simp [echo, Node.value, Json.depth]
    | succ depth =>
      have hvalue : (Json.obj members).echo.value (depth + 1) = .ok (.obj members) ↔
          Pairs.Ascending members ∧
            Node.memberValues depth (memberEchoes members) = .ok members := by
        rw [echo, Node.value]
        cases hread : Node.memberValues depth (memberEchoes members) with
        | error err => simp [bind, Except.bind]
        | ok found =>
          have hkeys := Pairs.ascending_iff_of_keys (keys_of_memberValues hread)
          simp only [bind, Except.bind, pure, Except.pure, if_true, Except.ok.injEq, Json.obj.injEq]
          constructor
          · rintro rfl
            have hasc := Pairs.ascending_ofList found
            exact ⟨hasc, (Pairs.ofList_eq_self (hkeys.2 hasc)).symm⟩
          · rintro ⟨hasc, rfl⟩
            exact Pairs.ofList_eq_self hasc
      rw [hvalue, memberValues_echoes_iff, kept_obj_iff, Json.depth, Nat.add_le_add_iff_right,
        memberDepths_le_iff, and_assoc, ← forall₂_and]
      exact and_congr_right fun _ => forall₂_congr fun m hm => ih m hm depth

/-- The values that are read back as they were written. -/
theorem ofText_text_iff (j : Json) : ofText j.text = .ok j ↔ j.Kept ∧ j.depth ≤ maxDepth := by
  obtain ⟨hlegible, hlost⟩ := j.read_text
  by_cases hl : j.Legible
  · rw [ofText, hlegible hl, ← value_echo_iff]
    simp only [Document.finish]
    cases j.echo.value maxDepth <;> simp [bind, Except.bind, pure, Except.pure]
  · refine ⟨fun h => ?_, fun h => absurd h.1.legible hl⟩
    rw [ofText, Document.finish, hlost hl] at h
    cases hv : (Document.ofText j.text).root.value maxDepth with
    | error err => rw [hv] at h; cases h
    | ok x => rw [hv] at h; cases h

/-! ### Setting members -/

/-- A value that holds no others and survives. -/
def Simple (j : Json) : Prop := j.Kept ∧ j.depth = 0

theorem Simple.str (s : String) : Simple (.str s) := ⟨.str s, rfl⟩

theorem Simple.nat {n : Nat} (hn : n ≤ maxNat) : Simple (.nat n) := ⟨.num (Number.kept_nat hn), rfl⟩

/-- A port, or any other number of 16 bits. -/
theorem Simple.port (port : UInt16) : Simple (.nat port.toNat) :=
  .nat (Nat.le_trans (Nat.le_of_lt port.toNat_lt) (by decide))

theorem ofText_obj {members : List (String × Json)} (hasc : Pairs.Ascending members)
    (hall : ∀ m ∈ members, m.2.Simple) : ofText (Json.obj members).text = .ok (.obj members) := by
  refine (ofText_text_iff _).2 ⟨.obj hasc fun m hm => (hall m hm).1, ?_⟩
  have hdepths : memberDepths members ≤ 0 :=
    memberDepths_le_iff.2 fun m hm => Nat.le_of_eq (hall m hm).2
  exact Nat.succ_le_succ (Nat.le_trans hdepths (Nat.zero_le 126))

theorem ofText_record {members : List (String × Json)} (hall : ∀ m ∈ members, m.2.Simple) :
    ofText (record members).text = .ok (record members) :=
  ofText_obj (Pairs.ascending_ofList members) fun m hm => hall m (Pairs.mem_of_mem_ofList hm)

/-- Setting simple members of a value that survives gives such a value. -/
theorem ofText_merge {j : Json} {updates : List (String × Json)} (hj : ofText j.text = .ok j)
    (hasc : Pairs.Ascending updates) (hall : ∀ u ∈ updates, u.2.Simple) :
    ofText (j.merge updates).text = .ok (j.merge updates) := by
  cases j with
  | obj members =>
    obtain ⟨hkept, hdepth⟩ := (ofText_text_iff _).1 hj
    obtain ⟨hmembers, hparts⟩ := kept_obj_iff.1 hkept
    have hdepths : ∀ m ∈ members, m.2.depth ≤ 126 :=
      memberDepths_le_iff.1 (Nat.le_of_succ_le_succ hdepth)
    refine (ofText_text_iff _).2 ⟨.obj ?_ fun m hm => ?_, ?_⟩
    · exact Pairs.ascending_foldl_insert hmembers
    · exact (Pairs.mem_foldl_insert hm).elim (hparts m) fun h => (hall m h).1
    · refine Nat.succ_le_succ (memberDepths_le_iff.2 fun m hm => ?_)
      exact (Pairs.mem_foldl_insert hm).elim (hdepths m) fun h => (hall m h).2 ▸ Nat.zero_le _
  | _ => exact ofText_obj hasc hall

/-- The member that was set is there, whatever the value was. -/
theorem get?_merge_self (j : Json) (key : String) (value : Json) :
    (j.merge [(key, value)]).get? key = some value := by
  cases j with
  | obj members =>
    show Pairs.get? key (Pairs.insert key value members) = some value
    rw [Pairs.get?_insert, if_pos Std.ReflCmp.compare_self]
  | _ =>
    show Pairs.get? key [(key, value)] = some value
    rw [Pairs.get?, if_pos Std.ReflCmp.compare_self]

/-- Other members of an object stay as they are. -/
theorem get?_merge_of_forall {j : Json} {members updates : List (String × Json)} {key : String}
    (hj : j = .obj members) (h : ∀ u ∈ updates, key ≠ u.1) :
    (j.merge updates).get? key = j.get? key := by
  subst hj
  show Pairs.get? key (updates.foldl (fun acc p => Pairs.insert p.1 p.2 acc) members) =
    Pairs.get? key members
  induction updates generalizing members with
  | nil => rfl
  | cons u updates ih =>
    have hne : compare key u.1 ≠ .eq := fun heq =>
      h u List.mem_cons_self (Std.LawfulEqOrd.eq_of_compare heq)
    rw [List.foldl_cons, ih fun u' hu' => h u' (List.mem_cons_of_mem u hu'), Pairs.get?_insert,
      if_neg hne]

end Json

/-- What the entry of a node stores survives. -/
theorem EntryData.ofText_toJson (d : EntryData) : Json.ofText d.toJson.text = .ok d.toJson := by
  refine Json.ofText_record fun m hm => ?_
  simp only [List.mem_cons, List.not_mem_nil, or_false] at hm
  rcases hm with rfl | rfl | rfl
  · exact .str d.host
  · exact .port d.port
  · exact .str d.password

end HomeHub
