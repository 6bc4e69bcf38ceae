import HomeHub.Proofs.Entity.Reading
import HomeHub.Proofs.Number.Rounding

/-!
# Attributes from JSON and back

A value becomes an attribute in two ways: sorted by its kind (`Attribute.ofJson`), or read by the first
kind that takes it (`Attribute.reader`). Both make the same of it, and the attribute is written as the
value again, unless this is an integer beyond 64 signed bits, which has become the nearest float.
-/

namespace HomeHub

open Json (Node Reader)

namespace Json

/-- An integer of 64 bits, signed or unsigned, or a finite float. -/
def Number.Proper : Number → Prop
  | .int n => minInt ≤ n ∧ n ≤ maxNat
  | .float x => Binary64.isFinite x = true

/-- What a text can say: numbers are proper, and the members of objects ascend. -/
inductive Proper : Json → Prop
  | null : Proper .null
  | bool (b : Bool) : Proper (.bool b)
  | num {n : Number} : n.Proper → Proper (.num n)
  | str (s : String) : Proper (.str s)
  | arr {items : List Json} : (∀ j ∈ items, Proper j) → Proper (.arr items)
  | obj {members : List (String × Json)} :
      Pairs.Ascending members → (∀ m ∈ members, Proper m.2) → Proper (.obj members)

theorem values_toNodes_eq {d : Nat} {items : List Json}
    (h : ∀ j ∈ items, j.toNode.value d = .ok j) : Node.values d (toNodes items) = .ok items := by
  induction items with
  | nil => rfl
  | cons j r ih =>
    rw [toNodes, Node.values, h j List.mem_cons_self, ih fun x hx => h x (List.mem_cons_of_mem _ hx)]
    rfl

theorem memberValues_toMemberNodes_eq {d : Nat} {members : List (String × Json)}
    (h : ∀ m ∈ members, m.2.toNode.value d = .ok m.2) :
    Node.memberValues d (toMemberNodes members) = .ok members := by
  induction members with
  | nil => rfl
  | cons m r ih =>
    obtain ⟨key, j⟩ := m
    have hj : j.toNode.value d = .ok j := h (key, j) List.mem_cons_self
    have hrest := ih fun x hx => h x (List.mem_cons_of_mem _ hx)
    simp only [toMemberNodes, toMemberNode, Node.memberValues, Node.memberValue, hj, hrest]
    rfl

/-- A proper value is read back from its node if enough containers may be opened. -/
theorem Proper.value_toNode {j : Json} (h : j.Proper) {d : Nat} (hd : j.depth ≤ d) :
    j.toNode.value d = .ok j := by
  induction h generalizing d with
  | null | bool b | num h | str s => rfl
  | @arr items _ ih =>
    obtain - | d := d
    · simp [depth] at hd
    have hitems := depths_le_iff.1 (Nat.le_of_succ_le_succ hd)
    rw [toNode, Node.value, values_toNodes_eq fun j hj => ih j hj (hitems j hj)]
    rfl
  | @obj members hasc _ ih =>
    obtain - | d := d
    · simp [depth] at hd
    have hmembers := memberDepths_le_iff.1 (Nat.le_of_succ_le_succ hd)
    rw [toNode, Node.value, memberValues_toMemberNodes_eq fun m hm => ih m hm (hmembers m hm)]
    exact congrArg (fun m => Except.ok (Json.obj m)) (Pairs.ofList_eq_self hasc)

/-- A proper integer that is no signed one of 64 bits is rounded to the nearest float. -/
theorem isNearest_ofInt {n : Int} (high : maxInt < n) (proper : n ≤ maxNat) :
    Binary64.IsNearest (Float.ofInt n) n := by
  obtain ⟨m, rfl⟩ := Int.eq_ofNat_of_zero_le (Int.le_of_lt (Int.lt_trans (by decide) high))
  simp only [maxInt, maxNat] at high proper
  exact Binary64.isNearest_ofNat (k := 11) (by decide) (by decide) (by omega) (by omega)

end Json

/-- A number that is nearest to another one is finite. -/
theorem Binary64.IsNearest.isFinite {x : Float} {q : ℚ} (h : Binary64.IsNearest x q) :
    Binary64.isFinite x = true := by
  obtain ⟨_, _, _, hvalue, -⟩ := h
  rw [Binary64.isFinite, hvalue]

namespace Attribute

/-- The first kind that takes a value is its own. -/
theorem firstReading_eq (j : Json) : firstReading j = some (ofJson j) := by
  cases j with
  | num n =>
    cases hn : n.toInt? <;>
      simp [firstReading, attempts, ofJson, Json.bool?, Json.int?, Json.float?, hn]
  | _ => rfl

/-- What is read of a node is the value of the node, sorted by its kind. -/
theorem reader_eq_ok {d : Nat} {node : Node} {j : Json} (h : node.value d = .ok j) :
    reader d node = .ok (ofJson j) :=
  Reader.andThen_ok h (firstReading_eq j)

/-- Integers of 64 signed bits and values of all other kinds are written as they were. -/
theorem toJson_ofJson {j : Json} (h : j.Proper) (low : ∀ n, j = .int n → n ≤ Json.maxInt) :
    (ofJson j).toJson = j := by
  cases h with
  | @num n hn =>
    cases n with
    | int n =>
      have hint : (Json.Number.int n).toInt? = some n := if_pos ⟨hn.1, low n rfl⟩
      simp only [ofJson, hint]
      rfl
    | float x => exact if_pos hn
  | _ => rfl

/-- An integer beyond 64 signed bits is written as the nearest float. -/
theorem toJson_ofJson_of_lt {n : Int} (high : Json.maxInt < n) (proper : n ≤ Json.maxNat) :
    ∃ x, (ofJson (.int n)).toJson = .num (.float x) ∧ Binary64.IsNearest x n := by
  have hnearest := Json.isNearest_ofInt high proper
  have hint : (Json.Number.int n).toInt? = none := if_neg fun h => absurd h.2 (Int.not_le.2 high)
  refine ⟨Float.ofInt n, ?_, hnearest⟩
  simp only [Json.int, ofJson, hint]
  exact if_pos hnearest.isFinite

/-- Reading a proper value makes the same attribute of it as sorting it, from whatever text the value
was read. The attribute is written as the value again, unless this is an integer beyond 64 signed
bits, which is written as the nearest float. -/
theorem decode_eq_ofJson_and_toJson {j : Json} (h : j.Proper) :
    Json.decode reader j = .ok (ofJson j) ∧
      (∀ d node, Node.value d node = .ok j → reader d node = .ok (ofJson j)) ∧
      ((∀ n, j = .int n → n ≤ Json.maxInt) → (ofJson j).toJson = j) ∧
      ∀ n, j = .int n → Json.maxInt < n →
        ∃ x, (ofJson j).toJson = .num (.float x) ∧ Binary64.IsNearest x n := by
  refine ⟨reader_eq_ok (h.value_toNode (Nat.le_succ _)), fun d node => reader_eq_ok,
    toJson_ofJson h, ?_⟩
  rintro n rfl high
  cases h with
  | num hn => exact toJson_ofJson_of_lt high hn.2

/-- The greatest integer of 64 bits is read as a float, inside an array it stays what it is. -/
theorem decode_maxNat :
    (∃ x, (ofJson (.int Json.maxNat)).toJson = .num (.float x) ∧ Binary64.IsNearest x (Json.maxNat : Int)) ∧
      (ofJson (.arr [.int Json.maxNat])).toJson = .arr [.int Json.maxNat] := by
  have hproper : (Json.int Json.maxNat).Proper := .num ⟨by decide, by decide⟩
  obtain ⟨-, -, -, hlarge⟩ := decode_eq_ofJson_and_toJson hproper
  obtain ⟨-, -, hsame, -⟩ := decode_eq_ofJson_and_toJson (j := .arr [.int Json.maxNat])
    (.arr fun j hj => List.mem_singleton.1 hj ▸ hproper)
  exact ⟨hlarge _ rfl (by decide), hsame nofun⟩

end Attribute

end HomeHub
