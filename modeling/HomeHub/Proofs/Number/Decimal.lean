import HomeHub.Number.Decimal
import HomeHub.Proofs.Json.Numeral

/-!
# Decimal numbers are read back

A number is read from digits, leading zeros among them, with a plus sign in front or without
(`natUpTo?_eq_some_iff`). So the decimal text of a number is read as that number, within any limit that it
keeps to.
-/

namespace HomeHub.Decimal

theorem toList_toString (n : Nat) : (toString n).toList = Nat.toDigits 10 n := Nat.toList_repr

theorem isDigit_of_mem_toString {n : Nat} {c : Char} (hc : c ∈ (toString n).toList) : c.isDigit = true :=
  Json.Number.isDigit_of_mem (toList_toString n ▸ hc)

theorem toString_ne_nil (n : Nat) : (toString n).toList ≠ [] := by
  rw [toList_toString]
  exact Nat.toDigits_ne_nil

theorem digit?_of_isDigit {c : Char} (hc : c.isDigit = true) : digit? c = some (c.toNat - 48) := by
  have hrange : ('0' ≤ c && c ≤ '9') = true := by simpa [Char.isDigit, Char.le_def] using hc
  rw [digit?, if_pos hrange]

theorem isDigit_of_digit? {c : Char} {d : Nat} (h : digit? c = some d) : c.isDigit = true := by
  unfold digit? at h
  split at h
  · next hrange => simpa [Char.isDigit, Char.le_def] using hrange
  · cases h

theorem foldlM_digit?_eq_some_iff {cs : List Char} {m n : Nat} :
    cs.foldlM (fun n c => (digit? c).map (n * 10 + ·)) m = some n ↔
      (∀ c ∈ cs, c.isDigit = true) ∧ Nat.ofDigitChars 10 cs m = n := by
  induction cs generalizing m with
  | nil => simp [Nat.ofDigitChars]
  | cons c cs ih =>
    rw [List.foldlM_cons, List.forall_mem_cons, Nat.ofDigitChars_cons]
    by_cases hc : c.isDigit = true
    · rw [digit?_of_isDigit hc, Option.map_some, Option.bind_eq_bind, Option.bind_some, ih, Nat.mul_comm m]
      simp [hc]
    · have hnone : digit? c = none :=
        Option.eq_none_iff_forall_ne_some.2 fun d hd => hc (isDigit_of_digit? hd)
      simp [hnone, hc]

/-- Digits, leading zeros among them, and their number. -/
structure Digits (cs : List Char) (n : Nat) : Prop where
  ne_nil : cs ≠ []
  isDigit : ∀ c ∈ cs, c.isDigit = true
  value : Nat.ofDigitChars 10 cs 0 = n

theorem digits_toString (n : Nat) : Digits (toString n).toList n where
  ne_nil := toString_ne_nil n
  isDigit _ := isDigit_of_mem_toString
  value := by rw [toList_toString, Nat.ofDigitChars_toDigits (by decide) (by decide)]

theorem not_digits_plus {r : List Char} {n : Nat} : ¬ Digits ('+' :: r) n := fun h =>
  absurd (h.isDigit '+' List.mem_cons_self) (by decide)

theorem digits?_eq_some_iff {cs : List Char} {n : Nat} : digits? cs = some n ↔ Digits cs n := by
  unfold digits?
  split
  · next hempty => exact ⟨nofun, fun h => absurd (List.isEmpty_iff.1 hempty) h.ne_nil⟩
  · next hempty =>
    rw [foldlM_digit?_eq_some_iff]
    exact ⟨fun h => ⟨mt List.isEmpty_iff.2 hempty, h.1, h.2⟩, fun h => ⟨h.isDigit, h.value⟩⟩

theorem toString_inj {m n : Nat} (h : (toString m).toList = (toString n).toList) : m = n := by
  have hm := (digits_toString m).value
  rw [h, (digits_toString n).value] at hm
  exact hm.symm

/-- A number is read from its digits, with a plus sign in front or without, and from nothing else. -/
theorem natUpTo?_eq_some_iff {limit n : Nat} {s : String} : natUpTo? limit s = some n ↔
    (∃ ds, (s.toList = ds ∨ s.toList = '+' :: ds) ∧ Digits ds n) ∧ n ≤ limit := by
  unfold natUpTo?
  rw [Option.filter_eq_some_iff, decide_eq_true_iff]
  refine and_congr_left fun _ => ?_
  split
  · next r hr =>
    rw [digits?_eq_some_iff, hr]
    refine ⟨fun h => ⟨r, .inr rfl, h⟩, ?_⟩
    rintro ⟨ds, rfl | heq, h⟩
    · exact absurd h not_digits_plus
    · cases heq
      exact h
  · next hplus =>
    rw [digits?_eq_some_iff]
    refine ⟨fun h => ⟨_, .inl rfl, h⟩, ?_⟩
    rintro ⟨ds, rfl | heq, h⟩
    · exact h
    · exact absurd heq (hplus ds)

theorem natUpTo?_toString {limit n : Nat} (hn : n ≤ limit) : natUpTo? limit (toString n) = some n :=
  natUpTo?_eq_some_iff.2 ⟨⟨_, .inl rfl, digits_toString n⟩, hn⟩

end HomeHub.Decimal
