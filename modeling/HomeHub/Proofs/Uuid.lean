import HomeHub.Uuid
import Mathlib.Algebra.Group.Nat.Defs

/-!
# The text of an identifier

The text of an identifier reads back as the identifier, so no two have the same text.
-/

namespace HomeHub

namespace Hex

theorem value?_digit : ∀ n < 16, value? (digit n) = some n := by
  decide

theorem length_fixed (width n : Nat) : (fixed width n).length = width := by
  induction width generalizing n with
  | zero => rfl
  | succ width ih => rw [fixed, List.length_append, ih]; rfl

/-- Reading digits goes on from what was read before. -/
theorem foldlM_fixed (width n start : Nat) :
    (fixed width n).foldlM (fun n c => (value? c).map (n * 16 + ·)) start =
      some (start * 16 ^ width + n % 16 ^ width) := by
  induction width generalizing n with
  | zero => simp [fixed, Nat.mod_one]
  | succ width ih =>
    have hdigit := value?_digit (n % 16) (Nat.mod_lt n (by decide))
    have hmod : n % 16 ^ (width + 1) = 16 * (n / 16 % 16 ^ width) + n % 16 := by
      rw [Nat.pow_succ, Nat.mul_comm, Nat.mod_mul, Nat.add_comm]
    rw [fixed, List.foldlM_append, ih]
    simp only [List.foldlM_cons, List.foldlM_nil, Option.bind_eq_bind, Option.bind_some, hdigit,
      Option.map_some, Option.pure_def]
    congr 1
    rw [hmod, Nat.pow_succ, ← Nat.mul_assoc]
    omega

theorem number?_fixed {width n : Nat} (hw : 0 < width) (hn : n < 16 ^ width) :
    number? (fixed width n) = some n := by
  have hne : (fixed width n).isEmpty = false := by
    rw [List.isEmpty_eq_false_iff_exists_mem]
    exact List.exists_mem_of_length_pos (by rw [length_fixed]; exact hw)
  rw [number?, hne, if_neg Bool.false_ne_true, foldlM_fixed, Nat.zero_mul, Nat.zero_add,
    Nat.mod_eq_of_lt hn]

end Hex

namespace Uuid

theorem ofGroups?_join {a b c d e : List Char} (ha : a.length = 8) (hb : b.length = 4)
    (hc : c.length = 4) (hd : d.length = 4) (he : e.length = 12) :
    ofGroups? (a ++ '-' :: b ++ '-' :: c ++ '-' :: d ++ '-' :: e) =
      ofDigits? (a ++ b ++ c ++ d ++ e) := by
  unfold ofGroups?
  simp [List.drop_append, List.getElem?_append, List.drop_of_length_le, ha, hb, hc, hd, he]

theorem parse?_text (u : Uuid) : parse? u.text = some u := by
  have hlen := Hex.length_fixed 32 u.value.toNat
  have hdigits : ofDigits? (Hex.fixed 32 u.value.toNat) = some u := by
    have hnum : Hex.number? (Hex.fixed 32 u.value.toNat) = some u.value.toNat :=
      Hex.number?_fixed (by decide) u.value.isLt
    rw [ofDigits?, if_pos hlen, hnum, Option.map_some, BitVec.ofNat_toNat, BitVec.setWidth_eq]
  obtain ⟨ds, hds⟩ : ∃ ds, ds = Hex.fixed 32 u.value.toNat := ⟨_, rfl⟩
  rw [← hds] at hlen hdigits
  have hsplit : ds.take 8 ++ (ds.drop 8).take 4 ++ (ds.drop 12).take 4 ++ (ds.drop 16).take 4 ++
      (ds.drop 20).take 12 = ds := by
    have hlast : (ds.drop 20).take 12 = ds.drop 20 := List.take_of_length_le (by simp [hlen])
    rw [hlast, List.append_assoc, List.append_assoc, List.append_assoc]
    have hdrop (i : Nat) : (ds.drop i).take 4 ++ ds.drop (i + 4) = ds.drop i := by
      rw [← List.drop_drop, List.take_append_drop]
    rw [hdrop 16, hdrop 12, hdrop 8, List.take_append_drop]
  have hlist : u.text.toList = ds.take 8 ++ '-' :: (ds.drop 8).take 4 ++ '-' :: (ds.drop 12).take 4 ++
      '-' :: (ds.drop 16).take 4 ++ '-' :: (ds.drop 20).take 12 := by
    rw [hds, text, String.toList_ofList]
    rfl
  have hjoin : ofGroups? u.text.toList = some u := by
    rw [hlist, ofGroups?_join (by simp [hlen]) (by simp [hlen]) (by simp [hlen]) (by simp [hlen])
      (by simp [hlen]), hsplit, hdigits]
  have h36 : u.text.toList.length = 36 := by
    rw [hlist]
    simp [hlen]
  simp only [parse?, h36, hjoin]

theorem text_injective {u v : Uuid} (h : u.text = v.text) : u = v := by
  have hu := parse?_text u
  rw [h, parse?_text] at hu
  exact (Option.some.inj hu).symm

end Uuid

end HomeHub
