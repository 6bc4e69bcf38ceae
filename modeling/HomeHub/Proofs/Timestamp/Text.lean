import HomeHub.Proofs.Timestamp.Calendar
import Mathlib.Data.List.TakeWhile
import Mathlib.Data.String.Basic

/-!
# The texts of instants

The text of an instant of a year from 0000 to 9999 is made of numbers of fixed width, but for the
fraction, so it reads back as the instant, and of two instants the earlier has the smaller text.
-/

namespace HomeHub

/-! ### Numbers of fixed width -/

namespace Decimal

/-- The last `width` digits of a number, leading zeros included. -/
def fixed : Nat → Nat → List Char
  | 0, _ => []
  | width + 1, n => fixed width (n / 10) ++ [Nat.digitChar (n % 10)]

theorem length_fixed (width n : Nat) : (fixed width n).length = width := by
  induction width generalizing n with
  | zero => rfl
  | succ width ih => rw [fixed, List.length_append, ih]; rfl

theorem fixed_zero (width : Nat) : fixed width 0 = List.replicate width '0' := by
  induction width with
  | zero => rfl
  | succ width ih => rw [fixed, Nat.zero_div, ih, List.replicate_succ']; rfl

theorem fixed_eq {width n : Nat} (hw : 0 < width) (hn : n < 10 ^ width) :
    fixed width n =
      List.replicate (width - (Nat.toDigits 10 n).length) '0' ++ Nat.toDigits 10 n := by
  induction width generalizing n with
  | zero => exact absurd hw (Nat.lt_irrefl 0)
  | succ width ih =>
    rw [fixed]
    by_cases hlt : n < 10
    · rw [Nat.toDigits_of_lt_base hlt, Nat.div_eq_of_lt hlt, Nat.mod_eq_of_lt hlt, fixed_zero]
      rfl
    · have hrest : n / 10 < 10 ^ width := by
        rw [Nat.div_lt_iff_lt_mul (by decide), ← Nat.pow_succ]
        exact hn
      have hwidth : 0 < width := by
        rcases Nat.eq_zero_or_pos width with rfl | h
        · omega
        · exact h
      rw [Nat.toDigits_of_base_le (by decide) (Nat.le_of_not_lt hlt), ih hwidth hrest,
        List.append_assoc, List.length_append, List.length_singleton, Nat.add_sub_add_right]

theorem isDigit_of_mem_fixed {width n : Nat} {c : Char} (h : c ∈ fixed width n) :
    Timestamp.isDigit c = true := by
  have digit : ∀ n < 10, Timestamp.isDigit (Nat.digitChar n) = true := by decide
  induction width generalizing n with
  | zero => cases h
  | succ width ih =>
    rcases List.mem_append.1 h with h | h
    · exact ih h
    · rw [List.mem_singleton.1 h]
      exact digit _ (Nat.mod_lt n (by decide))

theorem digitsValue_fixed {width n : Nat} (hn : n < 10 ^ width) :
    Timestamp.digitsValue (fixed width n) = n := by
  have digit : ∀ n < 10, (Nat.digitChar n).toNat - 48 = n := by decide
  induction width generalizing n with
  | zero => rw [Nat.lt_one_iff.1 hn]; rfl
  | succ width ih =>
    have hrest : n / 10 < 10 ^ width := by
      rw [Nat.div_lt_iff_lt_mul (by decide), ← Nat.pow_succ]
      exact hn
    have hvalue := ih hrest
    rw [Timestamp.digitsValue] at hvalue ⊢
    rw [fixed, List.foldl_append, hvalue]
    simp only [List.foldl_cons, List.foldl_nil, digit _ (Nat.mod_lt n (by decide))]
    omega

/-- Of texts that begin with as many digits each, the first digits that differ decide. -/
theorem append_lt_append {a b : List Char} (hlen : a.length = b.length) (h : a < b)
    (s t : List Char) : a ++ s < b ++ t := by
  induction a generalizing b with
  | nil => rw [List.eq_nil_of_length_eq_zero hlen.symm] at h; exact absurd h (List.not_lt_nil _)
  | cons x a ih =>
    cases b with
    | nil => exact absurd h (List.not_lt_nil _)
    | cons y b =>
      rw [List.cons_append, List.cons_append, List.cons_lt_cons_iff]
      rw [List.cons_lt_cons_iff] at h
      exact h.imp_right fun h => ⟨h.1, ih (Nat.succ.inj hlen) h.2⟩

theorem fixed_lt {width m n : Nat} (h : m < n) (hn : n < 10 ^ width) :
    fixed width m < fixed width n := by
  have digit : ∀ m < 10, ∀ n < 10, m < n → Nat.digitChar m < Nat.digitChar n := by decide
  induction width generalizing m n with
  | zero => omega
  | succ width ih =>
    have hrest : n / 10 < 10 ^ width := by
      rw [Nat.div_lt_iff_lt_mul (by decide), ← Nat.pow_succ]
      exact hn
    rw [fixed, fixed]
    rcases Nat.lt_or_eq_of_le (Nat.div_le_div_right (c := 10) (Nat.le_of_lt h)) with hlt | heq
    · exact append_lt_append (by rw [length_fixed, length_fixed]) (ih hlt hrest) _ _
    · rw [heq]
      refine List.append_left_lt ?_
      rw [List.cons_lt_cons_iff]
      exact .inl (digit _ (Nat.mod_lt m (by decide)) _ (Nat.mod_lt n (by decide)) (by omega))

theorem fixed_append_lt {width m n : Nat} {s t : List Char} (h : m < n ∨ m = n ∧ s < t)
    (hn : n < 10 ^ width) : fixed width m ++ s < fixed width n ++ t := by
  rcases h with h | ⟨rfl, h⟩
  · exact append_lt_append (by rw [length_fixed, length_fixed]) (fixed_lt h hn) s t
  · exact List.append_left_lt h

end Decimal

namespace Timestamp

open Decimal (fixed)

theorem padded_toList {width n : Nat} (hw : 0 < width) (hn : n < 10 ^ width) :
    (padded width n).toList = fixed width n := by
  have hdigits : (toString n).toList = Nat.toDigits 10 n := Nat.toList_repr
  have hlen : (toString n).length = (Nat.toDigits 10 n).length := by
    rw [← String.length_toList, hdigits]
  simp only [padded, String.toList_append, String.toList_ofList, hdigits, hlen,
    Decimal.fixed_eq hw hn]

theorem number?_fixed {width n : Nat} (hn : n < 10 ^ width) (rest : List Char) :
    number? width width (fixed width n ++ rest) = some (n, rest) := by
  have hlen := Decimal.length_fixed width n
  have hall : (fixed width n).takeWhile isDigit = fixed width n :=
    List.takeWhile_eq_self_iff.2 fun c hc => Decimal.isDigit_of_mem_fixed hc
  simp only [number?, List.take_left' hlen, hall, hlen, Decimal.digitsValue_fixed hn,
    List.drop_left' hlen, Nat.lt_irrefl, if_false]

/-! ### Fractions -/

/-- Groups of three digits, those at the end that are zero left out. -/
def groups : Nat → Nat → List Char
  | 0, _ => []
  | k + 1, n => if n = 0 then [] else fixed 3 (n / 1000 ^ k) ++ groups k (n % 1000 ^ k)

/-- What follows the seconds in the form with a numeric time zone. -/
def tail (nanos : Nat) : List Char :=
  (if nanos = 0 then [] else '.' :: groups 3 nanos) ++ "+00:00".toList

theorem fixed_add (width k n : Nat) :
    fixed (width + k) n = fixed width (n / 10 ^ k) ++ fixed k (n % 10 ^ k) := by
  induction k generalizing n with
  | zero => simp [fixed]
  | succ k ih =>
    have hdiv : n % 10 ^ (k + 1) / 10 = n / 10 % 10 ^ k := by
      rw [Nat.pow_succ, Nat.mul_comm, Nat.mod_mul_right_div_self]
    have hmod : n % 10 ^ (k + 1) % 10 = n % 10 :=
      Nat.mod_mod_of_dvd n ⟨10 ^ k, by rw [Nat.pow_succ, Nat.mul_comm]⟩
    rw [Nat.add_succ, fixed, fixed, ih, hdiv, hmod, Nat.div_div_eq_div_mul, ← Nat.pow_succ',
      List.append_assoc]

theorem groups_zero (k : Nat) : groups k 0 = [] := by
  cases k <;> rfl

theorem groups_of_ne {k n : Nat} (hn : n ≠ 0) :
    groups (k + 1) n = fixed 3 (n / 1000 ^ k) ++ groups k (n % 1000 ^ k) := by
  rw [groups, if_neg hn]

theorem fractionText_toList {nanos : Nat} (hn : nanos < nanosPerSecond) :
    (fractionText nanos ++ "+00:00").toList = tail nanos := by
  have hpoint (s : String) : ("." ++ s).toList = '.' :: s.toList := String.toList_append
  simp only [nanosPerSecond] at hn
  rw [String.toList_append, tail]
  congr 1
  unfold fractionText
  by_cases h0 : nanos = 0
  · rw [if_pos h0, if_pos h0]
    rfl
  rw [if_neg h0, if_neg h0]
  have hmillis : groups 3 nanos = fixed 3 (nanos / 1000000) ++ groups 2 (nanos % 1000000) :=
    groups_of_ne h0
  by_cases h3 : nanos % 1000000 = 0
  · rw [if_pos h3, hpoint, padded_toList (by decide) (by omega), hmillis, h3, groups_zero,
      List.append_nil]
  rw [if_neg h3]
  have hmicros : groups 2 (nanos % 1000000) = fixed 3 (nanos / 1000 % 1000) ++ groups 1 (nanos % 1000) := by
    rw [groups_of_ne h3]
    congr 2 <;> omega
  by_cases h6 : nanos % 1000 = 0
  · rw [if_pos h6, hpoint, padded_toList (by decide) (by omega), hmillis, hmicros, h6, groups_zero,
      List.append_nil, fixed_add 3 3, Nat.div_div_eq_div_mul]
    rfl
  · have hnanos : groups 1 (nanos % 1000) = fixed 3 (nanos % 1000) := by
      rw [groups_of_ne h6, groups, List.append_nil, Nat.pow_zero, Nat.div_one]
    rw [if_neg h6, hpoint, padded_toList (by decide) (by omega), hmillis, hmicros, hnanos,
      fixed_add 3 6, fixed_add 3 3]
    congr 4 <;> omega

theorem plus_lt_fixed {width : Nat} (hw : 0 < width) (n : Nat) (s t : List Char) :
    '+' :: s < fixed width n ++ t := by
  cases hfixed : fixed width n with
  | nil =>
    have hlen := Decimal.length_fixed width n
    rw [hfixed] at hlen
    exact absurd hlen.symm (Nat.ne_of_gt hw)
  | cons c cs =>
    have hc : isDigit c = true := Decimal.isDigit_of_mem_fixed (hfixed ▸ List.mem_cons_self)
    simp only [isDigit, Bool.and_eq_true, decide_eq_true_eq] at hc
    rw [List.cons_append, List.cons_lt_cons_iff]
    exact .inl (lt_of_lt_of_le (by decide : '+' < '0') hc.1)

/-- Of two fractions the smaller has the smaller text, since the sign after them comes before all
digits. -/
theorem groups_lt {k m n : Nat} (h : m < n) (hn : n < 1000 ^ k) (rest : List Char) :
    groups k m ++ '+' :: rest < groups k n ++ '+' :: rest := by
  induction k generalizing m n with
  | zero => omega
  | succ k ih =>
    have hgroup : n / 1000 ^ k < 10 ^ 3 := by
      rw [Nat.div_lt_iff_lt_mul (Nat.pow_pos (by decide)), Nat.mul_comm]
      exact hn
    rw [groups_of_ne (Nat.ne_of_gt (Nat.lt_of_le_of_lt (Nat.zero_le m) h))]
    by_cases hm : m = 0
    · rw [hm, groups_zero, List.append_assoc]
      exact plus_lt_fixed (by decide) _ _ _
    · rw [groups_of_ne hm, List.append_assoc, List.append_assoc]
      refine Decimal.fixed_append_lt ?_ hgroup
      refine (Nat.lt_or_eq_of_le (Nat.div_le_div_right (Nat.le_of_lt h))).imp_right fun heq => ?_
      refine ⟨heq, ih ?_ (Nat.mod_lt n (Nat.pow_pos (by decide)))⟩
      have hm' := Nat.div_add_mod m (1000 ^ k)
      have hn' := Nat.div_add_mod n (1000 ^ k)
      rw [heq] at hm'
      omega

theorem tail_lt {m n : Nat} (h : m < n) (hn : n < nanosPerSecond) : tail m < tail n := by
  have hlt := groups_lt (k := 3) h hn "00:00".toList
  unfold tail
  rw [if_neg (show n ≠ 0 by omega)]
  split
  · rw [List.nil_append, List.cons_append]
    exact List.cons_lt_cons_iff.2 (.inl (by decide))
  · rw [List.cons_append, List.cons_append]
    exact List.cons_lt_cons_iff.2 (.inr ⟨rfl, hlt⟩)

theorem fraction?_fixed {width n : Nat} (hw : 0 < width) (h9 : width ≤ 9) (hn : n < 10 ^ width) :
    fraction? ('.' :: (fixed width n ++ "+00:00".toList)) =
      some (n * Decimal.tenTo (9 - width), "+00:00".toList) := by
  have hlen := Decimal.length_fixed width n
  have hall : ∀ c ∈ fixed width n, isDigit c = true := fun c hc => Decimal.isDigit_of_mem_fixed hc
  have hplus (k : Nat) : (("+00:00".toList).take k).takeWhile isDigit = [] := by
    cases k <;> rfl
  have htake : ((fixed width n ++ "+00:00".toList).take 9).takeWhile isDigit = fixed width n := by
    rw [List.take_append, hlen, List.take_of_length_le (by omega),
      List.takeWhile_append_of_pos hall, hplus, List.append_nil]
  have hne : (fixed width n).isEmpty = false := by
    rw [List.isEmpty_eq_false_iff_exists_mem]
    exact List.exists_mem_of_length_pos (by rw [hlen]; exact hw)
  simp only [fraction?, htake, hne, hlen, Decimal.digitsValue_fixed hn, List.drop_left' hlen,
    Bool.false_eq_true, if_false]
  rfl

theorem fraction?_tail {nanos : Nat} (hn : nanos < nanosPerSecond) :
    fraction? (tail nanos) = some (nanos, "+00:00".toList) := by
  have hpoint (s : String) : ("." ++ s).toList = '.' :: s.toList := String.toList_append
  rw [← fractionText_toList hn, String.toList_append]
  simp only [nanosPerSecond] at hn
  unfold fractionText
  split
  · next h => rw [h]; rfl
  split
  · next h =>
    rw [hpoint, padded_toList (by decide) (by omega), List.cons_append,
      fraction?_fixed (by decide) (by decide) (by omega)]
    have hscale : nanos / 1000000 * Decimal.tenTo 6 = nanos := Nat.div_mul_cancel (by omega)
    rw [hscale]
  split
  · next h =>
    rw [hpoint, padded_toList (by decide) (by omega), List.cons_append,
      fraction?_fixed (by decide) (by decide) (by omega)]
    have hscale : nanos / 1000 * Decimal.tenTo 3 = nanos := Nat.div_mul_cancel (by omega)
    rw [hscale]
  · rw [hpoint, padded_toList (by decide) (by omega), List.cons_append,
      fraction?_fixed (by decide) (by decide) (by omega)]
    have hscale : nanos * Decimal.tenTo 0 = nanos := Nat.mul_one nanos
    rw [hscale]

/-! ### Whole texts -/

/-- An instant as the numbers that its text is made of. -/
structure Reading where
  year : Nat
  month : Nat
  day : Nat
  hour : Nat
  minute : Nat
  second : Nat
  nanos : Nat

namespace Reading

/-- Whether each number fits the width that it is written with. -/
structure Fits (r : Reading) : Prop where
  year : r.year < 10 ^ 4
  month : r.month < 10 ^ 2
  day : r.day < 10 ^ 2
  hour : r.hour < 10 ^ 2
  minute : r.minute < 10 ^ 2
  second : r.second < 10 ^ 2
  nanos : r.nanos < nanosPerSecond

def chars (r : Reading) : List Char :=
  fixed 4 r.year ++ '-' :: (fixed 2 r.month ++ '-' :: (fixed 2 r.day ++ 'T' :: (fixed 2 r.hour ++
    ':' :: (fixed 2 r.minute ++ ':' :: (fixed 2 r.second ++ tail r.nanos)))))

/-- The instant of a reading in universal time. -/
def instant? (r : Reading) : Option Timestamp :=
  ofLocal? r.year r.month r.day r.hour r.minute r.second r.nanos 0

theorem parseStrict?_chars {r : Reading} (hr : r.Fits) {s : String} (hs : s.toList = r.chars) :
    parseStrict? s = r.instant? := by
  -- each part is read off the front, and the rest goes on with what follows
  have number {width n : Nat} (hn : n < 10 ^ width) (r : List Char)
      (next : Nat × List Char → Option Timestamp) :
      (number? width width (fixed width n ++ r) >>= next) = next (n, r) := by
    rw [number?_fixed hn]
    rfl
  have mark (c : Char) (r : List Char) (next : List Char → Option Timestamp) :
      (char? c (c :: r) >>= next) = next r := by
    rw [char?, if_pos rfl]
    rfl
  have dateEnd (r : List Char) (next : List Char → Option Timestamp) :
      (dateEnd? ('T' :: r) >>= next) = next r := rfl
  have fraction (next : Nat × List Char → Option Timestamp) :
      (fraction? (tail r.nanos) >>= next) = next (r.nanos, "+00:00".toList) := by
    rw [fraction?_tail hr.nanos]
    rfl
  rw [parseStrict?, hs, chars, number hr.year]
  refine (mark '-' _ _).trans <| (number hr.month _ _).trans <| (mark '-' _ _).trans <|
    (number hr.day _ _).trans <| (dateEnd _ _).trans <| (number hr.hour _ _).trans <|
    (mark ':' _ _).trans <| (number hr.minute _ _).trans <| (mark ':' _ _).trans <|
    (number hr.second _ _).trans <| (fraction _).trans ?_
  rfl

/-- The order of readings: the first number that differs decides. -/
def Before (a b : Reading) : Prop :=
  a.year < b.year ∨ a.year = b.year ∧ (a.month < b.month ∨ a.month = b.month ∧
    (a.day < b.day ∨ a.day = b.day ∧ (a.hour < b.hour ∨ a.hour = b.hour ∧
      (a.minute < b.minute ∨ a.minute = b.minute ∧ (a.second < b.second ∨ a.second = b.second ∧
        a.nanos < b.nanos)))))

theorem chars_lt {a b : Reading} (hb : b.Fits) (h : a.Before b) : a.chars < b.chars := by
  -- after each number comes the same mark in both texts
  have next {P : Prop} {width m n : Nat} {c : Char} {s t : List Char} (h : m < n ∨ m = n ∧ P)
      (hn : n < 10 ^ width) (hP : P → s < t) : fixed width m ++ c :: s < fixed width n ++ c :: t :=
    Decimal.fixed_append_lt
      (h.imp_right fun h => ⟨h.1, List.cons_lt_cons_iff.2 (.inr ⟨rfl, hP h.2⟩)⟩) hn
  refine next h hb.year fun h => next h hb.month fun h => next h hb.day fun h => next h hb.hour
    fun h => next h hb.minute fun h => ?_
  exact Decimal.fixed_append_lt (h.imp_right fun h => ⟨h.1, tail_lt h.2 hb.nanos⟩) hb.second

end Reading

/-- An instant of a year with four digits. Only the last second of a minute can be a leap second. -/
structure Storable (t : Timestamp) : Prop where
  year : 0 ≤ (dateOfDays (t.seconds / secondsPerDay)).1 ∧
    (dateOfDays (t.seconds / secondsPerDay)).1 ≤ 9999
  nanos : t.nanos < nanosPerSecond ∨ t.nanos < 2 * nanosPerSecond ∧ t.seconds % 60 = 59

/-- The numbers that an instant is written with. -/
def reading (t : Timestamp) : Reading :=
  let date := dateOfDays (t.seconds / secondsPerDay)
  let clock := (t.seconds % secondsPerDay).toNat
  { year := date.1.toNat
    month := date.2.1
    day := date.2.2
    hour := clock / 3600
    minute := clock / 60 % 60
    second := clock % 60 + t.nanos / nanosPerSecond
    nanos := t.nanos % nanosPerSecond }

theorem daysInMonth_le (year : Int) (month : Nat) : daysInMonth year month ≤ 31 := by
  unfold daysInMonth
  repeat' split
  all_goals decide

theorem ofLocal?_eq_some {year : Int} {month day hour minute second nanos : Nat} {t : Timestamp}
    (hdate : yearInRange year = true ∧ 1 ≤ month ∧ month ≤ 12 ∧ 1 ≤ day ∧ day ≤ daysInMonth year month)
    (hclock : hour ≤ 23 ∧ minute ≤ 59 ∧ second ≤ 60)
    (hseconds : daysOfDate year month day * secondsPerDay +
      ((hour : Int) * 3600 + minute * 60 + (if second = 60 then 59 else second : Nat)) = t.seconds)
    (hnanos : (if second = 60 then nanos + nanosPerSecond else nanos) = t.nanos)
    (hrange : t.inRange = true) : ofLocal? year month day hour minute second nanos 0 = some t := by
  obtain ⟨hyear, hm, hm12, hd, hdays⟩ := hdate
  obtain ⟨hh, hmi, hs⟩ := hclock
  simp only [ofLocal?, hyear, hm, hm12, hd, hdays, hh, hmi, hs, hseconds, hnanos, hrange,
    decide_true, Bool.and_true, if_true, Int.sub_zero]

/-- Clocks are ordered by hour, then by minute, then by second. -/
theorem clock_lt {c d : Nat} (h : c < d) :
    c / 3600 < d / 3600 ∨ c / 3600 = d / 3600 ∧ (c / 60 % 60 < d / 60 % 60 ∨
      c / 60 % 60 = d / 60 % 60 ∧ c % 60 < d % 60) := by
  have hhour (c : Nat) : c / 3600 = c / 60 / 60 := (Nat.div_div_eq_div_mul c 60 60).symm
  have hminutes : c / 60 < d / 60 ∨ c / 60 = d / 60 ∧ c % 60 < d % 60 := by omega
  rw [hhour, hhour]
  omega

namespace Storable

variable {t u : Timestamp}

theorem fits (h : t.Storable) : t.reading.Fits := by
  obtain ⟨hyear, hnanos⟩ := h
  obtain ⟨-, hm, hm12, hd, hdays⟩ := dateOfDays_valid (t.seconds / secondsPerDay)
  have hday := Nat.le_trans hdays (daysInMonth_le _ _)
  simp only [secondsPerDay, nanosPerSecond] at *
  constructor <;> simp only [reading, secondsPerDay, nanosPerSecond] <;> omega

theorem offsetText_toList (h : t.Storable) : t.offsetText.toList = t.reading.chars := by
  obtain ⟨hy, hm, hd, hh, hmi, hs, hn⟩ := h.fits
  have hyear : yearText (dateOfDays (t.seconds / secondsPerDay)).1 = padded 4 t.reading.year := by
    simp only [yearText, reading, h.year.1, h.year.2, decide_true, Bool.and_true, if_true]
  have htail : (fractionText t.reading.nanos).toList ++ "+00:00".toList = tail t.reading.nanos := by
    rw [← String.toList_append, fractionText_toList hn]
  have htext : t.offsetText = padded 4 t.reading.year ++ "-" ++ padded 2 t.reading.month ++ "-" ++
      padded 2 t.reading.day ++ "T" ++ padded 2 t.reading.hour ++ ":" ++ padded 2 t.reading.minute ++
      ":" ++ padded 2 t.reading.second ++ fractionText t.reading.nanos ++ "+00:00" := by
    rw [← hyear]
    rfl
  have hmark : "-".toList = ['-'] ∧ "T".toList = ['T'] ∧ ":".toList = [':'] := ⟨rfl, rfl, rfl⟩
  simp only [htext, String.toList_append, padded_toList (by decide) hy, padded_toList (by decide) hm,
    padded_toList (by decide) hd, padded_toList (by decide) hh, padded_toList (by decide) hmi,
    padded_toList (by decide) hs, hmark, List.append_assoc, htail]
  rfl

/-- Reading the numbers of an instant gives the instant. -/
theorem instant?_reading (h : t.Storable) : t.reading.instant? = some t := by
  obtain ⟨hdate, hm, hm12, hd, hdays⟩ := dateOfDays_valid (t.seconds / secondsPerDay)
  obtain ⟨hyear, hnanos⟩ := h
  have hyearNat : (t.reading.year : Int) = (dateOfDays (t.seconds / secondsPerDay)).1 :=
    Int.toNat_of_nonneg hyear.1
  have hinside : yearInRange (dateOfDays (t.seconds / secondsPerDay)).1 = true := by
    simp only [yearInRange, Bool.and_eq_true, decide_eq_true_eq]
    omega
  have hclock : t.seconds % 60 = ((t.seconds % secondsPerDay).toNat % 60 : Nat) ∧
      (t.seconds % secondsPerDay).toNat < 86400 ∧
      t.seconds = t.seconds / secondsPerDay * secondsPerDay + (t.seconds % secondsPerDay).toNat := by
    simp only [secondsPerDay]
    omega
  rw [Reading.instant?, hyearNat]
  refine ofLocal?_eq_some ⟨hinside, hm, hm12, hd, hdays⟩ ?_ ?_ ?_ hinside
  · simp only [reading, nanosPerSecond] at *
    omega
  · have hday : daysOfDate (dateOfDays (t.seconds / secondsPerDay)).1 t.reading.month t.reading.day =
        t.seconds / secondsPerDay := hdate
    rw [hday]
    by_cases hleap : t.reading.second = 60
    · rw [if_pos hleap]
      simp only [reading, nanosPerSecond] at *
      omega
    · rw [if_neg hleap]
      simp only [reading, nanosPerSecond] at *
      omega
  · by_cases hleap : t.reading.second = 60
    · rw [if_pos hleap]
      simp only [reading, nanosPerSecond] at *
      omega
    · rw [if_neg hleap]
      simp only [reading, nanosPerSecond] at *
      omega

/-- The text of an instant reads back as the instant. -/
theorem parseStrict?_offsetText (h : t.Storable) : parseStrict? t.offsetText = some t := by
  rw [Reading.parseStrict?_chars h.fits h.offsetText_toList, h.instant?_reading]

theorem reading_before (ht : t.Storable) (hu : u.Storable) (h : t.before u = true) :
    t.reading.Before u.reading := by
  obtain ⟨hty, htn⟩ := ht
  obtain ⟨huy, hun⟩ := hu
  have hlt : t.seconds < u.seconds ∨ t.seconds = u.seconds ∧ t.nanos < u.nanos := by
    simpa [before] using h
  have hdays : t.seconds / secondsPerDay < u.seconds / secondsPerDay ∨
      t.seconds / secondsPerDay = u.seconds / secondsPerDay := by
    simp only [secondsPerDay]
    omega
  simp only [Reading.Before, reading]
  rcases hdays with hdays | hdays
  · have hdate := dateOfDays_lt hdays
    omega
  · have hclock : (t.seconds % secondsPerDay).toNat < (u.seconds % secondsPerDay).toNat ∨
        (t.seconds % secondsPerDay).toNat = (u.seconds % secondsPerDay).toNat ∧ t.nanos < u.nanos := by
      simp only [secondsPerDay] at *
      omega
    have hleap : t.seconds % 60 = ((t.seconds % secondsPerDay).toNat % 60 : Nat) := by
      simp only [secondsPerDay]
      omega
    rw [hleap] at htn
    rw [hdays]
    generalize (t.seconds % secondsPerDay).toNat = c at *
    generalize (u.seconds % secondsPerDay).toNat = d at *
    refine .inr ⟨rfl, .inr ⟨rfl, .inr ⟨rfl, ?_⟩⟩⟩
    simp only [nanosPerSecond] at *
    rcases hclock with hclock | ⟨rfl, hnanos⟩
    · -- a leap second is the last of its minute
      exact (clock_lt hclock).imp_right fun h => ⟨h.1, h.2.imp_right fun h => ⟨h.1, .inl (by omega)⟩⟩
    · exact .inr ⟨rfl, .inr ⟨rfl, by omega⟩⟩

/-- Of two instants the earlier has the smaller text. -/
theorem offsetText_lt (ht : t.Storable) (hu : u.Storable) (h : t.before u = true) :
    t.offsetText < u.offsetText := by
  rw [String.lt_iff, ht.offsetText_toList, hu.offsetText_toList]
  exact Reading.chars_lt hu.fits (ht.reading_before hu h)

/-- The order of the texts is the order of the instants. -/
theorem offsetText_lt_iff (ht : t.Storable) (hu : u.Storable) :
    t.offsetText < u.offsetText ↔ t.before u = true := by
  refine ⟨fun h => ?_, ht.offsetText_lt hu⟩
  by_contra hbefore
  have hcases : t = u ∨ u.before t = true := by
    obtain ⟨s, n⟩ := t
    obtain ⟨s', n'⟩ := u
    simp [before] at hbefore ⊢
    omega
  rcases hcases with rfl | hlater
  · exact lt_irrefl _ h
  · exact lt_asymm h (hu.offsetText_lt ht hlater)

end Storable

end Timestamp

end HomeHub
