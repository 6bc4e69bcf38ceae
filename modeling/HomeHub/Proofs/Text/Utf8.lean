import HomeHub.Text.Utf8
import Mathlib.Tactic.Common

/-!
# Encoded texts are read back

The bytes of a character are decoded to it, whatever follows them, so the bytes of a text are read
back as the text.
-/

namespace HomeHub.Utf8

theorem toNat_toUInt8 {n : Nat} (h : n < 256) : n.toUInt8.toNat = n := by
  simp; omega

/-- Characters end at the last code point, and leave out the surrogates. -/
theorem toNat_valid (c : Char) : c.toNat < 0xD800 ∨ 0xDFFF < c.toNat ∧ c.toNat < 0x110000 := c.valid

/-- The last six bits of a number, in a byte that continues a character. -/
theorem tail_continuing (n : Nat) : tail (0x80 + n % 64).toUInt8 = n % 64 := by
  rw [tail, toNat_toUInt8 (by omega)]
  omega

theorem continues_continuing (n : Nat) : continues (0x80 + n % 64).toUInt8 = true := by
  rw [continues, toNat_toUInt8 (by omega)]
  simp; omega

/-- The first byte announces how many follow, and the second one lies in the announced range. -/
theorem following?_two {n : Nat} (hlow : 0x80 ≤ n) (hhigh : n < 0x800) :
    following? (0xC0 + n / 64) = some (1, 0x80, 0xBF) := by
  unfold following?
  rw [if_neg (by omega), if_pos (by omega)]

theorem following?_three {n : Nat} (hlow : 0x800 ≤ n) (hhigh : n < 0x10000)
    (hvalid : n < 0xD800 ∨ 0xDFFF < n) : ∃ low high, following? (0xE0 + n / 4096) = some (2, low, high) ∧
      low ≤ 0x80 + n / 64 % 64 ∧ 0x80 + n / 64 % 64 ≤ high := by
  unfold following?
  rw [if_neg (by omega), if_neg (by omega)]
  split_ifs <;> first | omega | exact ⟨_, _, rfl, by omega, by omega⟩

theorem following?_four {n : Nat} (hlow : 0x10000 ≤ n) (hhigh : n < 0x110000) :
    ∃ low high, following? (0xF0 + n / 262144) = some (3, low, high) ∧
      low ≤ 0x80 + n / 4096 % 64 ∧ 0x80 + n / 4096 % 64 ≤ high := by
  unfold following?
  rw [if_neg (by omega), if_neg (by omega), if_neg (by omega), if_neg (by omega), if_neg (by omega)]
  split_ifs <;> first | omega | exact ⟨_, _, rfl, by omega, by omega⟩

theorem decode_encodeChar (c : Char) (rest : List UInt8) :
    decode (encodeChar c ++ rest) = .char c :: decode rest := by
  have hvalid := toNat_valid c
  have hchar {n : Nat} (h : n = c.toNat) : Char.ofNat n = c := h ▸ Char.ofNat_toNat c
  unfold encodeChar
  generalize hn : c.toNat = n at *
  by_cases h1 : n < 0x80
  · have hbyte : n.toUInt8.toNat = n := toNat_toUInt8 (by omega)
    simp only [if_pos h1, List.cons_append, List.nil_append]
    rw [decode, hbyte, if_pos h1, hchar rfl]
  by_cases h2 : n < 0x800
  · have hbyte : (0xC0 + n / 64).toUInt8.toNat = 0xC0 + n / 64 := toNat_toUInt8 (by omega)
    have hnext : (0x80 + n % 64).toUInt8.toNat = 0x80 + n % 64 := toNat_toUInt8 (by omega)
    simp only [if_neg h1, if_pos h2, List.cons_append, List.nil_append]
    rw [decode, hbyte, if_neg (by omega), following?_two (by omega) h2]
    simp only [hnext, tail_continuing]
    rw [if_neg (by simp; omega), if_pos trivial, hchar (by omega)]
  by_cases h3 : n < 0x10000
  · obtain ⟨low, high, hfollow, hlow, hhigh⟩ := following?_three (n := n) (by omega) h3 (by omega)
    have hbyte : (0xE0 + n / 4096).toUInt8.toNat = 0xE0 + n / 4096 := toNat_toUInt8 (by omega)
    have hnext : (0x80 + n / 64 % 64).toUInt8.toNat = 0x80 + n / 64 % 64 := toNat_toUInt8 (by omega)
    simp only [if_neg h1, if_neg h2, if_pos h3, List.cons_append, List.nil_append]
    rw [decode, hbyte, if_neg (by omega), hfollow]
    simp only [hnext, tail_continuing, continues_continuing]
    rw [if_neg (by simp; omega), if_neg (by decide), if_neg (by decide), if_pos trivial,
      hchar (by omega)]
  · obtain ⟨low, high, hfollow, hlow, hhigh⟩ := following?_four (n := n) (by omega) (by omega)
    have hbyte : (0xF0 + n / 262144).toUInt8.toNat = 0xF0 + n / 262144 := toNat_toUInt8 (by omega)
    have hnext : (0x80 + n / 4096 % 64).toUInt8.toNat = 0x80 + n / 4096 % 64 :=
      toNat_toUInt8 (by omega)
    simp only [if_neg h1, if_neg h2, if_neg h3, List.cons_append, List.nil_append]
    rw [decode, hbyte, if_neg (by omega), hfollow]
    simp only [hnext, tail_continuing, continues_continuing]
    rw [if_neg (by simp; omega), if_neg (by decide), if_neg (by decide), if_neg (by decide),
      if_neg (by decide), hchar (by omega)]

theorem decode_encode (cs : List Char) : decode (encode cs) = cs.map .char := by
  induction cs with
  | nil => rfl
  | cons c cs ih => rw [encode, List.flatMap_cons, decode_encodeChar, ← encode, ih, List.map_cons]

theorem strict?_bytes (s : String) : strict? (bytes s) = some s := by
  have hchars (cs : List Char) : (cs.map Glyph.char).mapM Glyph.char? = some cs := by
    induction cs with
    | nil => rfl
    | cons c cs ih => rw [List.map_cons, List.mapM_cons, ih]; rfl
  rw [strict?, bytes, decode_encode, hchars, Option.map_some, String.ofList_toList]

end HomeHub.Utf8
