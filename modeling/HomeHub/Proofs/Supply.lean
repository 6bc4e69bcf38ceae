import HomeHub.Supply
import Mathlib.Algebra.Group.Nat.Defs

/-!
# Generated identifiers are distinct

There are `2 ^ 128` identifiers. As long as no more were drawn, no two draws gave the same one.
-/

namespace HomeHub

/-- No identifier was drawn a second time so far. -/
def Supply.Lasts (s : Supply) : Prop := s.drawn ≤ 2 ^ 128

theorem Supply.Lasts.mono {s t : Supply} (h : t.Lasts) (hst : s.drawn ≤ t.drawn) : s.Lasts :=
  Nat.le_trans hst h

theorem Uuid.generated_inj {m n : Nat} (hm : m < 2 ^ 128) (hn : n < 2 ^ 128)
    (h : Uuid.generated m = Uuid.generated n) : m = n := by
  have hv := congrArg (fun u => u.value.toNat) h
  simp only [Uuid.generated, BitVec.toNat_ofNat] at hv
  omega

end HomeHub
