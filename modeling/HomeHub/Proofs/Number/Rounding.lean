import HomeHub.Number.Nearest
import Mathlib

/-!
# Natural numbers as binary64 numbers

A natural number of more than 53 bits is shifted until 53 are left, and the bits that were shifted out
decide whether it is rounded up. What this gives is the nearest multiple of a power of two, a tie to
the even one (`nearestQuotient_nearest`), and no binary64 number is nearer: `isNearest_ofNat`.
-/

namespace HomeHub.Binary64

/-! ### The nearest multiple -/

theorem nearestQuotient_cases (a d : Nat) :
    nearestQuotient a d = a / d ∧ 2 * (a % d) ≤ d ∨
      nearestQuotient a d = a / d + 1 ∧ d ≤ 2 * (a % d) := by
  unfold nearestQuotient
  dsimp only
  split
  · next h =>
    simp only [Bool.or_eq_true, decide_eq_true_eq, Bool.and_eq_true] at h
    exact .inl ⟨rfl, by omega⟩
  · next h =>
    simp only [Bool.or_eq_true, decide_eq_true_eq, Bool.and_eq_true, not_or, not_lt] at h
    exact .inr ⟨rfl, h.1⟩

/-- Of two multiples that are equally near the even one is taken. -/
theorem nearestQuotient_even {a d : Nat} (h : 2 * (a % d) = d) : nearestQuotient a d % 2 = 0 := by
  unfold nearestQuotient
  by_cases heven : a / d % 2 = 0
  · simp [h, heven]
  · simp [h, heven]
    omega

theorem nearestQuotient_mul (a d : Nat) {c : Nat} (hc : 0 < c) :
    nearestQuotient (a * c) (d * c) = nearestQuotient a d := by
  have htwice : 2 * (a % d * c) = 2 * (a % d) * c := (Nat.mul_assoc _ _ _).symm
  simp only [nearestQuotient, Nat.mul_div_mul_right _ _ hc, Nat.mul_mod_mul_right, htwice,
    Nat.mul_lt_mul_right hc, Nat.mul_left_inj hc.ne']

/-- The multiple is at most half a divisor away, and if it is half a divisor, then it is even. -/
theorem abs_nearestQuotient_le {a d : Nat} (hd : 0 < d) :
    2 * |(nearestQuotient a d * d - a : Int)| ≤ d ∧
      (2 * |(nearestQuotient a d * d - a : Int)| = d → nearestQuotient a d % 2 = 0) := by
  have hmod := Nat.mod_lt a hd
  have hdiv : ((a / d : Nat) * d + (a % d : Nat) : Int) = a := by exact_mod_cast Nat.div_add_mod' a d
  have heven := nearestQuotient_even (a := a) (d := d)
  rcases nearestQuotient_cases a d with ⟨hq, hr⟩ | ⟨hq, hr⟩
  · have habs : |(nearestQuotient a d * d - a : Int)| = (a % d : Nat) := by
      rw [hq, ← hdiv, sub_add_cancel_left, abs_neg, Nat.abs_cast]
    omega
  · have habs : |(nearestQuotient a d * d - a : Int)| = d - (a % d : Nat) := by
      rw [hq, ← hdiv, Nat.cast_add, Nat.cast_one, add_mul, one_mul, add_sub_add_left_eq_sub,
        abs_of_nonneg (by omega)]
    omega

/-- No multiple is nearer, and if another one is as near, then this one is even. -/
theorem nearestQuotient_nearest {a d : Nat} (hd : 0 < d) (k : Int) :
    |(nearestQuotient a d * d - a : Int)| ≤ |k * d - a| ∧
      (|(nearestQuotient a d * d - a : Int)| = |k * d - a| →
        k = nearestQuotient a d ∨ nearestQuotient a d % 2 = 0) := by
  obtain ⟨hle, heven⟩ := abs_nearestQuotient_le (a := a) hd
  by_cases hk : k = nearestQuotient a d
  · rw [hk]
    exact ⟨le_rfl, fun _ => .inl rfl⟩
  · -- another multiple is at least a divisor away from this one
    have hapart : (d : Int) ≤ |k * d - nearestQuotient a d * d| := by
      rw [← sub_mul, abs_mul, Nat.abs_cast]
      exact le_mul_of_one_le_left (Int.natCast_nonneg d) (Int.one_le_abs (sub_ne_zero.2 hk))
    have htriangle := abs_sub_le (k * d : Int) a (nearestQuotient a d * d)
    rw [abs_sub_comm (a : Int)] at htriangle
    exact ⟨by omega, fun h => .inr (heven (by omega))⟩

/-! ### Shifting -/

open Float.Model (totalExponent Format)
open Float.Model.UnpackedFloat

/-- What is kept of a number after `k` bits were shifted out of it. Two bits tell how twice the rest
compares with the divisor. -/
structure Shifted (n k : Nat) (m : ExtendedMantissa) : Prop where
  mantissa : m.mantissa = n / 2 ^ k
  round : m.roundBit = true ↔ 2 ^ k ≤ 2 * (n % 2 ^ k)
  sticky : m.stickyBit = true ↔ n % 2 ^ k ≠ 0 ∧ 2 * (n % 2 ^ k) ≠ 2 ^ k

namespace Shifted

variable {n k : Nat} {m : ExtendedMantissa}

theorem start (n : Nat) : Shifted n 0 ⟨n, false, false⟩ where
  mantissa := (Nat.div_one n).symm
  round := by simp [Nat.mod_one]
  sticky := by simp [Nat.mod_one]

theorem shiftRightOne (h : Shifted n k m) : Shifted n (k + 1) m.shiftRightOne := by
  have hmod : n % 2 ^ (k + 1) = n % 2 ^ k + 2 ^ k * (n / 2 ^ k % 2) := by rw [pow_succ, Nat.mod_mul]
  have hrest := Nat.mod_lt n (Nat.two_pow_pos k)
  constructor
  · rw [ExtendedMantissa.shiftRightOne, h.mantissa, Nat.div_div_eq_div_mul, pow_succ]
  · rw [ExtendedMantissa.shiftRightOne, h.mantissa, bne_iff_ne, hmod, pow_succ]
    rcases Nat.mod_two_eq_zero_or_one (n / 2 ^ k) with hbit | hbit <;> rw [hbit] <;> omega
  · rw [ExtendedMantissa.shiftRightOne, Bool.or_eq_true, h.round, h.sticky, hmod, pow_succ]
    rcases Nat.mod_two_eq_zero_or_one (n / 2 ^ k) with hbit | hbit <;> rw [hbit] <;> omega

theorem shiftRight (n k : Nat) :
    Shifted n k (ExtendedMantissa.ofMantissaAndAccuracy n .exact >>> k) := by
  induction k with
  | zero => exact start n
  | succ k ih => exact ih.shiftRightOne

theorem roundedMantissa (h : Shifted n k m) : m.roundedMantissa = nearestQuotient n (2 ^ k) := by
  obtain ⟨q, round, sticky⟩ := m
  obtain ⟨rfl, hround, hsticky⟩ := h
  have hrest := Nat.mod_lt n (Nat.two_pow_pos k)
  simp only [nearestQuotient, Bool.or_eq_true, Bool.and_eq_true, decide_eq_true_eq]
  cases round <;> cases sticky <;>
    simp only [ExtendedMantissa.roundedMantissa, ExtendedMantissa.accuracy,
      Accuracy.roundToNearestEven, Bool.false_eq_true, false_iff, true_iff] at hround hsticky ⊢ <;>
    grind

end Shifted

/-! ### Rounding and packing -/

theorem log2_eq {m k : Nat} (h : 2 ^ k ≤ m) (h' : m < 2 ^ (k + 1)) : m.log2 = k :=
  (Nat.log2_eq_iff (Nat.two_pow_pos k |>.trans_le h).ne').2 ⟨h, h'⟩

theorem targetExponent_eq {m k : Nat} {e : Int} (h : 2 ^ (52 + k) ≤ m) (h' : m < 2 ^ (53 + k))
    (he : -1074 ≤ e + k) : Format.binary64.targetExponent (totalExponent m e) = e + k := by
  have hlog : m.log2 = 52 + k := log2_eq h (by rwa [show 52 + k + 1 = 53 + k by omega])
  simp only [Format.targetExponent, totalExponent, hlog, Format.mantissaBits, Format.minExponent]
  omega

theorem nearestQuotient_bounds {n k : Nat} (h : 2 ^ (52 + k) ≤ n) (h' : n < 2 ^ (53 + k)) :
    2 ^ 52 ≤ nearestQuotient n (2 ^ k) ∧ nearestQuotient n (2 ^ k) ≤ 2 ^ 53 := by
  have hpos := Nat.two_pow_pos k
  have hlow : 2 ^ 52 ≤ n / 2 ^ k := (Nat.le_div_iff_mul_le hpos).2 (by rwa [← pow_add])
  have hhigh : n / 2 ^ k < 2 ^ 53 := (Nat.div_lt_iff_lt_mul hpos).2 (by rwa [← pow_add])
  rcases nearestQuotient_cases n (2 ^ k) with ⟨hq, -⟩ | ⟨hq, -⟩ <;> omega

/-- A number is rounded to 53 bits. If it is rounded up to 54 bits, the last one is zero and left
out. -/
theorem roundWithAccuracy_eq {n k : Nat} {e : Int} (h : 2 ^ (52 + k) ≤ n) (h' : n < 2 ^ (53 + k))
    (he : -1074 ≤ e + k) :
    (∃ pos, nearestQuotient n (2 ^ k) < 2 ^ 53 ∧
      roundWithAccuracy .binary64 .positive n e .exact =
        .finite .positive (nearestQuotient n (2 ^ k)) (e + k) pos) ∨
    ∃ pos, nearestQuotient n (2 ^ k) = 2 ^ 53 ∧
      roundWithAccuracy .binary64 .positive n e .exact =
        .finite .positive (2 ^ 52) (e + k + 1) pos := by
  obtain ⟨hlow, hhigh⟩ := nearestQuotient_bounds h h'
  have hshift : (e + k - e).toNat = k := by omega
  have hround := (Shifted.shiftRight n k).roundedMantissa
  generalize nearestQuotient n (2 ^ k) = q at *
  rw [roundWithAccuracy]
  simp only [shiftToTargetExponent, targetExponent_eq h h' he, shiftToExponent, hshift, hround]
  rcases Nat.lt_or_eq_of_le hhigh with hlt | rfl
  · left
    have ht : Format.binary64.targetExponent (totalExponent q (e + k)) = e + k := by
      simpa using targetExponent_eq (k := 0) (e := e + k) hlow hlt (by omega)
    have hmantissa : (ExtendedMantissa.ofMantissaAndAccuracy q .exact >>> 0).mantissa = q := rfl
    refine ⟨by omega, hlt, ?_⟩
    simp only [ht, sub_self, Int.toNat_zero, hmantissa, Nat.cast_zero, add_zero]
    exact dif_neg (by omega)
  · right
    have ht : Format.binary64.targetExponent (totalExponent (2 ^ 53) (e + k)) = e + k + 1 :=
      targetExponent_eq (k := 1) (by decide) (by decide) (by omega)
    have hone : (e + k + 1 - (e + k)).toNat = 1 := by omega
    have hmantissa : (ExtendedMantissa.ofMantissaAndAccuracy (2 ^ 53) .exact >>> 1).mantissa = 2 ^ 52 :=
      rfl
    refine ⟨by decide, rfl, ?_⟩
    simp only [ht, hone, hmantissa, Nat.cast_one]
    exact dif_neg (by decide)

theorem toNat_packComponents {e m : Nat} (he : e < 2 ^ 11) (hm : m < 2 ^ 52) :
    (packComponents .binary64 .positive (BitVec.ofNat 11 e) (BitVec.ofNat 52 m)).toNat =
      e * 2 ^ 52 + m := by
  rw [packComponents, BitVec.toNat_append, BitVec.toNat_append, BitVec.toNat_ofNat,
    BitVec.toNat_ofNat, Nat.mod_eq_of_lt he, Nat.mod_eq_of_lt hm, Sign.toBitVec,
    ← Nat.shiftLeft_add_eq_or_of_lt hm, ← Nat.shiftLeft_add_eq_or_of_lt he, Nat.shiftLeft_eq]
  simp

theorem toBits_pack {m : Nat} {e : Int} (pos : 0 < m) (h : 2 ^ 52 ≤ m) (h' : m < 2 ^ 53)
    (he : -1074 ≤ e) (he' : e ≤ 971) :
    (Float.toBits (.ofModel (.pack (.finite .positive m e pos)))).toNat =
      (e + 1075).toNat * 2 ^ 52 + (m - 2 ^ 52) := by
  have hlog : m.log2 + 1 = 53 := by rw [log2_eq h h']
  have hbiased : (e + Format.binary64.exponentBias +
      Format.binary64.mantissaBitsWithoutImplicit).toNat = (e + 1075).toNat := by
    simp only [Format.exponentBias]
    omega
  -- the leading bit is not stored
  have hstored : BitVec.ofNat 52 m = BitVec.ofNat 52 (m - 2 ^ 52) := by
    refine BitVec.eq_of_toNat_eq ?_
    rw [BitVec.toNat_ofNat, BitVec.toNat_ofNat, Nat.mod_eq_sub_mod h]
  show (Float.Model.UnpackedFloat.pack .binary64 (.finite .positive m e pos)).toNat = _
  rw [Float.Model.UnpackedFloat.pack]
  simp only [hbiased]
  rw [if_neg (by omega), if_pos (by simp [hlog, Format.mantissaBits]), hstored]
  exact toNat_packComponents (by omega) (by omega)

/-- A number of 53 bits is packed as itself. -/
theorem value_pack {m : Nat} {e : Int} (pos : 0 < m) (h : 2 ^ 52 ≤ m) (h' : m < 2 ^ 53)
    (he : -1074 ≤ e) (he' : e ≤ 971) :
    value (.ofModel (.pack (.finite .positive m e pos))) = .finite false m e := by
  have hbits := toBits_pack pos h h' he he'
  have hleading : leadingBit = 2 ^ 52 := rfl
  have hsign : signBit = 2 ^ 63 := rfl
  generalize hbiased : (e + 1075).toNat = biased at hbits
  generalize hfraction : m - 2 ^ 52 = fraction at hbits
  have hnegative : ¬ 2 ^ 63 ≤ biased * 2 ^ 52 + fraction := by omega
  have hexponent : (biased * 2 ^ 52 + fraction) / 2 ^ 52 % 2048 = biased := by omega
  have hrest : (biased * 2 ^ 52 + fraction) % 2 ^ 52 = fraction := by omega
  simp only [value, hbits, hleading, hsign, hnegative, hexponent, hrest]
  rw [if_neg (by omega), if_neg (by omega)]
  simp only [Value.finite.injEq, Int.ofNat_eq_natCast]
  exact ⟨by decide, by omega, by omega⟩

/-- A number of more than 53 bits is multiplied by the zeroth power of ten, in full precision. -/
theorem ofNat_eq {n : Nat} (h : 2 ^ 53 ≤ n) : Float.ofNat n =
    .ofModel (.pack (roundWithAccuracy .binary64 .positive (n * 2 ^ 53) (-53) .exact)) := by
  have hslow : ¬ (n < 2 ^ 53 ∧ 0 ≤ 22) := by omega
  have hn : n ≠ 0 := by omega
  have hmul : Float.Model.UnpackedFloat.ofScientific .binary64 n 0 =
      roundWithAccuracy .binary64 .positive (n * 2 ^ 53) (-53) .exact := by
    rw [Float.Model.UnpackedFloat.ofScientific, dif_neg hn, if_neg (by decide), if_neg (by simp),
      if_pos (by decide), Float.Model.UnpackedFloat.mul]
    simp only [Format.mantissaBits, Nat.shiftLeft_eq, Int.toNat_zero, pow_zero, mul_one]
    rfl
  show Float.ofScientific n false 0 = _
  rw [Float.ofScientific, dif_neg hslow]
  exact congrArg (fun u => Float.ofModel (.pack u)) hmul

/-- A natural number of `53 + k` bits becomes the nearest multiple of `2 ^ k`. -/
theorem value_ofNat {n k : Nat} (hk : 1 ≤ k) (hk' : k ≤ 970) (h : 2 ^ (52 + k) ≤ n)
    (h' : n < 2 ^ (53 + k)) :
    nearestQuotient n (2 ^ k) < 2 ^ 53 ∧
        value (Float.ofNat n) = .finite false (nearestQuotient n (2 ^ k)) k ∨
      nearestQuotient n (2 ^ k) = 2 ^ 53 ∧ value (Float.ofNat n) = .finite false (2 ^ 52) (k + 1) := by
  have hbig : 2 ^ 53 ≤ n := le_trans (Nat.pow_le_pow_right (by decide) (by omega)) h
  have hlow : 2 ^ (52 + (k + 53)) ≤ n * 2 ^ 53 :=
    calc 2 ^ (52 + (k + 53)) = 2 ^ (52 + k) * 2 ^ 53 := by rw [← pow_add, add_assoc]
      _ ≤ n * 2 ^ 53 := Nat.mul_le_mul_right _ h
  have hhigh : n * 2 ^ 53 < 2 ^ (53 + (k + 53)) :=
    calc n * 2 ^ 53 < 2 ^ (53 + k) * 2 ^ 53 := (Nat.mul_lt_mul_right (Nat.two_pow_pos 53)).2 h'
      _ = 2 ^ (53 + (k + 53)) := by rw [← pow_add, add_assoc]
  have hq : nearestQuotient (n * 2 ^ 53) (2 ^ (k + 53)) = nearestQuotient n (2 ^ k) := by
    rw [pow_add, nearestQuotient_mul _ _ (Nat.two_pow_pos 53)]
  have hexponent : (-53 + (k + 53 : Nat) : Int) = k := by omega
  have hround := roundWithAccuracy_eq (e := -53) hlow hhigh (by omega)
  rw [hq, hexponent] at hround
  rw [ofNat_eq hbig]
  rcases hround with ⟨pos, hlt, heq⟩ | ⟨pos, htop, heq⟩
  · have hfull := (nearestQuotient_bounds h h').1
    exact .inl ⟨hlt, by rw [heq, value_pack pos hfull hlt (by omega) (by omega)]⟩
  · exact .inr ⟨htop, by rw [heq, value_pack pos (by decide) (by decide) (by omega) (by omega)]⟩

/-! ### Nearest numbers -/

/-- `± significand · 2 ^ exponent` as a rational number. -/
def signed (negative : Bool) (significand : Nat) (exponent : Int) : ℚ :=
  (if negative then -(significand : ℚ) else significand) * 2 ^ exponent

/-- The number is finite, no finite number is nearer to `q`, and if another one is as near, then the
significand is even. -/
def IsNearest (x : Float) (q : ℚ) : Prop :=
  ∃ negative m e, value x = .finite negative m e ∧
    ∀ y negative' m' e', value y = .finite negative' m' e' →
      |signed negative m e - q| ≤ |signed negative' m' e' - q| ∧
        (|signed negative m e - q| = |signed negative' m' e' - q| →
          signed negative' m' e' = signed negative m e ∨ m % 2 = 0)

theorem significand_lt {x : Float} {negative : Bool} {m : Nat} {e : Int}
    (h : value x = .finite negative m e) : m < 2 ^ 53 := by
  have hfraction := Nat.mod_lt x.toBits.toNat (show 0 < leadingBit by decide)
  have hleading : leadingBit = 2 ^ 52 := rfl
  simp only [value] at h
  split at h
  · split at h <;> cases h
  · split at h <;> cases h <;> omega

theorem abs_signed (negative : Bool) (m : Nat) (e : Int) : |signed negative m e| = m * 2 ^ e := by
  have hpow : (0 : ℚ) < 2 ^ e := zpow_pos (by norm_num) e
  cases negative <;> simp [signed, abs_mul, abs_of_pos hpow]

/-- A number whose exponent is at least `k` is a multiple of `2 ^ k`. -/
theorem signed_eq_mul (negative : Bool) (m : Nat) {k : Nat} {e : Int} (h : (k : Int) ≤ e) :
    ∃ j : Int, signed negative m e = (j * (2 ^ k : Nat) : Int) := by
  obtain ⟨i, rfl⟩ := Int.le.dest h
  refine ⟨(if negative then -(m : Int) else m) * 2 ^ i, ?_⟩
  rw [signed, zpow_add₀ two_ne_zero, zpow_natCast, zpow_natCast]
  cases negative
  · simp
    ring
  · simp
    ring

/-- A number whose exponent is less is less than `2 ^ 52` such multiples. -/
theorem abs_signed_lt (negative : Bool) {m k : Nat} {e : Int} (hm : m < 2 ^ 53)
    (h : e < (k : Int)) :
    |signed negative m e| < (2 ^ 52 * 2 ^ k : Nat) := by
  have hpow : (0 : ℚ) < 2 ^ e := zpow_pos (by norm_num) e
  have hle : (2 : ℚ) ^ (e + 1) ≤ 2 ^ (k : Int) := zpow_le_zpow_right₀ (by norm_num) h
  calc |signed negative m e| = (m * 2 ^ e : ℚ) := abs_signed negative m e
    _ < 2 ^ 53 * 2 ^ e := mul_lt_mul_of_pos_right (by exact_mod_cast hm) hpow
    _ = 2 ^ 52 * 2 ^ (e + 1) := by
      rw [zpow_add_one₀ two_ne_zero]
      ring
    _ ≤ 2 ^ 52 * 2 ^ (k : Int) := by gcongr
    _ = (2 ^ 52 * 2 ^ k : Nat) := by
      rw [Nat.cast_mul, Nat.cast_pow, Nat.cast_pow, Nat.cast_ofNat, zpow_natCast]

/-- Of all numbers with significands of 53 bits the nearest multiple is the nearest. -/
theorem nearest_of_significand_lt {n k : Nat} (hn : 2 ^ 52 * 2 ^ k ≤ n) {negative : Bool} {m : Nat}
    {e : Int} (hm : m < 2 ^ 53) :
    |((nearestQuotient n (2 ^ k) * (2 ^ k : Nat) : Int) - (n : ℚ))| ≤ |signed negative m e - n| ∧
      (|((nearestQuotient n (2 ^ k) * (2 ^ k : Nat) : Int) - (n : ℚ))| = |signed negative m e - n| →
        signed negative m e = (nearestQuotient n (2 ^ k) * (2 ^ k : Nat) : Int) ∨
          nearestQuotient n (2 ^ k) % 2 = 0) := by
  have hpos := Nat.two_pow_pos k
  generalize hq : nearestQuotient n (2 ^ k) = q
  rcases le_or_gt (k : Int) e with he | he
  · obtain ⟨j, hj⟩ := signed_eq_mul negative m he
    obtain ⟨hle, htie⟩ := nearestQuotient_nearest (a := n) hpos j
    rw [hq] at hle htie
    rw [hj]
    refine ⟨by exact_mod_cast hle, fun heq => ?_⟩
    exact (htie (by exact_mod_cast heq)).imp_left fun h => by rw [h]
  · -- the number is less than a multiple that is at most `n`
    have hlt := abs_signed_lt negative hm he
    have hbelow : ((2 ^ 52 * 2 ^ k : Nat) : ℚ) ≤ n := by exact_mod_cast hn
    have hself := le_abs_self (signed negative m e)
    have hle := (nearestQuotient_nearest (a := n) hpos (2 ^ 52)).1
    rw [hq] at hle
    have hnear : |((q * (2 ^ k : Nat) : Int) - (n : ℚ))| ≤ |((2 ^ 52 * 2 ^ k : Nat) : ℚ) - n| := by
      exact_mod_cast hle
    have hfar : |((2 ^ 52 * 2 ^ k : Nat) : ℚ) - n| < |signed negative m e - n| := by
      rw [abs_of_nonpos (sub_nonpos.2 hbelow), abs_of_nonpos (by linarith)]
      linarith
    exact ⟨(hnear.trans_lt hfar).le, fun heq => absurd heq (hnear.trans_lt hfar).ne⟩

/-- A natural number of more than 53 bits becomes the nearest number. -/
theorem isNearest_ofNat {n k : Nat} (hk : 1 ≤ k) (hk' : k ≤ 970) (h : 2 ^ (52 + k) ≤ n)
    (h' : n < 2 ^ (53 + k)) : IsNearest (Float.ofNat n) n := by
  obtain ⟨m, e, hvalue, hsame, heven⟩ : ∃ m e, value (Float.ofNat n) = .finite false m e ∧
      signed false m e = (nearestQuotient n (2 ^ k) * (2 ^ k : Nat) : Int) ∧
      (nearestQuotient n (2 ^ k) % 2 = 0 → m % 2 = 0) := by
    rcases value_ofNat hk hk' h h' with ⟨-, hvalue⟩ | ⟨hq, hvalue⟩
    · exact ⟨_, _, hvalue, by simp [signed], id⟩
    · refine ⟨_, _, hvalue, ?_, fun _ => by decide⟩
      rw [hq]
      simp [signed, zpow_add_one₀]
      ring
  refine ⟨false, m, e, hvalue, fun y negative' m' e' hy => ?_⟩
  have hn : 2 ^ 52 * 2 ^ k ≤ n := by rwa [← pow_add]
  obtain ⟨hle, htie⟩ := nearest_of_significand_lt (e := e') hn (significand_lt hy)
  rw [hsame]
  exact ⟨hle, fun heq => (htie heq).imp_right heven⟩

end HomeHub.Binary64
