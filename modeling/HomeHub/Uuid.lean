import HomeHub.Text.Hex

/-!
# Universally unique identifiers

Written as 32 lower-case digits in groups of 8, 4, 4, 4 and 12. Besides that form `parse?` takes
the digits without hyphens, and the hyphenated form in braces or after `urn:uuid:`.
-/

namespace HomeHub

structure Uuid where
  value : BitVec 128
  deriving DecidableEq, Inhabited

namespace Uuid

instance : Ord Uuid := ⟨fun a b => compare a.value b.value⟩

theorem compare_def (a b : Uuid) : compare a b = compare a.value b.value := rfl

instance : Std.TransOrd Uuid where
  eq_swap {a b} := by simpa only [compare_def] using Std.OrientedOrd.eq_swap
  isLE_trans {a b c} := by simpa only [compare_def] using Std.TransOrd.isLE_trans

instance : Std.LawfulEqOrd Uuid where
  compare_self {a} := by simp
  eq_of_compare {a b} h := by
    have := Std.LawfulEqOrd.eq_of_compare (compare_def a b ▸ h)
    cases a; cases b; simp_all

def text (u : Uuid) : String :=
  let ds := Hex.fixed 32 u.value.toNat
  let group (start length : Nat) := (ds.drop start).take length
  String.ofList (group 0 8 ++ '-' :: group 8 4 ++ '-' :: group 12 4 ++ '-' :: group 16 4 ++
    '-' :: group 20 12)

/-- Exactly 32 digits. -/
def ofDigits? (ds : List Char) : Option Uuid :=
  if ds.length = 32 then (Hex.number? ds).map fun n => ⟨BitVec.ofNat 128 n⟩ else none

/-- Digits in groups of 8, 4, 4, 4 and 12. -/
def ofGroups? (cs : List Char) : Option Uuid :=
  let hyphens := [8, 13, 18, 23]
  if cs.length = 36 && hyphens.all fun i => cs[i]? = some '-' then
    ofDigits? (cs.take 8 ++ (cs.drop 9).take 4 ++ (cs.drop 14).take 4 ++ (cs.drop 19).take 4 ++
      cs.drop 24)
  else none

def parse? (s : String) : Option Uuid :=
  let cs := s.toList
  match cs.length with
  | 32 => ofDigits? cs
  | 36 => ofGroups? cs
  | 38 =>
    if cs.head? = some '\x7b' && cs.getLast? = some '\x7d' then ofGroups? (cs.drop 1).dropLast
    else none
  | 45 =>
    if (cs.take 9).map Char.toLower = "urn:uuid:".toList then ofGroups? (cs.drop 9) else none
  | _ => none

end Uuid

end HomeHub
