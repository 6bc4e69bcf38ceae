import HomeHub.NativeApi.Varint
import Mathlib.Data.Nat.Digits.Defs

/-!
# Spellings of numbers

A `Spelling` is any run of bytes that stands for a number: at most ten, of which all but the last
continue. A number has many spellings, of which writers use the shortest. Both readers take a spelling
for its number and leave what follows, `decode?_eq_some_iff` and `read_eq`, so no spelling begins
another one.
-/

namespace HomeHub.NativeApi.Varint

/-- The number of these groups of seven bits, lowest first. -/
def numberOf (bytes : List UInt8) : Nat := Nat.ofDigits 128 (bytes.map group)

@[ext] structure Spelling where
  /-- The bytes before the last one. -/
  initial : List UInt8
  last : UInt8
  continued : ∀ b ∈ initial, continues b = true
  ends : continues last = false
  short : initial.length < maxBytes

namespace Spelling

def bytes (s : Spelling) : List UInt8 := s.initial ++ [s.last]

/-- Only 64 bits are kept. -/
def number (s : Spelling) : Nat := numberOf s.bytes % modulus

@[simp] theorem length_bytes (s : Spelling) : s.bytes.length = s.initial.length + 1 :=
  List.length_append

end Spelling

/-! ### Taking numbers from bytes -/

theorem numberOf_cons (b : UInt8) (r : List UInt8) : numberOf (b :: r) = group b + 128 * numberOf r :=
  Nat.ofDigits_cons

theorem scan?_append {limit : Nat} {initial : List UInt8} {last : UInt8}
    (continued : ∀ b ∈ initial, continues b = true) (ends : continues last = false)
    (short : initial.length < limit) (rest : List UInt8) :
    scan? limit (initial ++ last :: rest) =
      some (numberOf (initial ++ [last]), initial.length + 1) := by
  induction initial generalizing limit with
  | nil =>
    obtain ⟨limit, rfl⟩ := Nat.exists_eq_add_of_lt short
    simp [scan?, ends, numberOf]
  | cons b r ih =>
    obtain ⟨limit, rfl⟩ : ∃ l, limit = l + 1 := ⟨limit - 1, by simp at short; omega⟩
    have hb := continued b List.mem_cons_self
    have hr := ih (fun c hc => continued c (List.mem_cons_of_mem b hc))
      (Nat.lt_of_succ_lt_succ short)
    rw [List.cons_append, scan?, if_pos hb, hr, Option.map_some, List.cons_append, numberOf_cons]
    rfl

theorem eq_append_of_scan? {limit n used : Nat} {bytes : List UInt8}
    (h : scan? limit bytes = some (n, used)) : ∃ initial last rest, bytes = initial ++ last :: rest ∧
      (∀ b ∈ initial, continues b = true) ∧ continues last = false ∧ initial.length < limit := by
  fun_induction scan? limit bytes generalizing n used with
  | case1 => cases h
  | case2 => cases h
  | case3 limit b r hb ih =>
    obtain ⟨⟨m, k⟩, hscan, -⟩ := Option.map_eq_some_iff.1 h
    obtain ⟨initial, last, rest, rfl, continued, ends, short⟩ := ih hscan
    exact ⟨b :: initial, last, rest, rfl, List.forall_mem_cons.2 ⟨hb, continued⟩, ends,
      Nat.succ_lt_succ short⟩
  | case4 limit b r hb =>
    exact ⟨[], b, r, rfl, nofun, Bool.eq_false_iff.2 hb, Nat.succ_pos limit⟩

theorem decode?_bytes (s : Spelling) (rest : List UInt8) :
    decode? (s.bytes ++ rest) = some (s.number, s.bytes.length) := by
  have hscan := scan?_append s.continued s.ends s.short rest
  rw [decode?, s.length_bytes, Spelling.bytes, List.append_assoc, List.singleton_append, hscan]
  rfl

theorem decode?_eq_some_iff {bytes : List UInt8} {n used : Nat} :
    decode? bytes = some (n, used) ↔
      ∃ (s : Spelling) (rest : List UInt8), bytes = s.bytes ++ rest ∧ n = s.number ∧
        used = s.bytes.length := by
  constructor
  · intro h
    obtain ⟨⟨m, k⟩, hscan, -⟩ := Option.map_eq_some_iff.1 h
    obtain ⟨initial, last, rest, rfl, continued, ends, short⟩ := eq_append_of_scan? hscan
    let s : Spelling := ⟨initial, last, continued, ends, short⟩
    have hs : initial ++ last :: rest = s.bytes ++ rest := by simp [s, Spelling.bytes]
    rw [hs, decode?_bytes, Option.some.injEq, Prod.mk.injEq] at h
    exact ⟨s, rest, hs, h.1.symm, h.2.symm⟩
  · rintro ⟨s, rest, rfl, rfl, rfl⟩
    exact decode?_bytes s rest

/-- Nothing tells from a spelling where it ends but its own bytes. -/
theorem Spelling.append_inj {s s' : Spelling} {r r' : List UInt8}
    (h : s.bytes ++ r = s'.bytes ++ r') : s = s' ∧ r = r' := by
  have hlength : s.bytes.length = s'.bytes.length := by
    have hdecode := decode?_bytes s r
    rw [h, decode?_bytes, Option.some.injEq, Prod.mk.injEq] at hdecode
    exact hdecode.2.symm
  obtain ⟨hbytes, hrest⟩ := List.append_inj h hlength
  obtain ⟨hinitial, hlast⟩ := List.append_inj' hbytes rfl
  exact ⟨Spelling.ext hinitial (List.head_eq_of_cons_eq hlast), hrest⟩

/-! ### Taking numbers from a stream -/

/-- A stream that gives no number has ended if it is shorter than a number may be. -/
theorem readFrom_eq (limit shift value : Nat) (bytes : List UInt8) :
    readFrom limit shift value bytes =
      match scan? limit bytes with
      | some (n, used) => .ok ((value + n <<< shift) % modulus, bytes.drop used)
      | none => .error (if limit ≤ bytes.length then .tooLong else .ended) := by
  fun_induction readFrom limit shift value bytes with
  | case1 => simp [scan?]
  | case2 limit => simp [scan?]; omega
  | case3 limit shift value b r total hb ih =>
    rw [ih, scan?, if_pos hb]
    cases scan? limit r with
    | none => simp
    | some p =>
      obtain ⟨n, used⟩ := p
      have hvalue : (total + n <<< (shift + 7)) % modulus =
          (value + (group b + 128 * n) <<< shift) % modulus := by
        rw [Nat.mod_add_mod, Nat.shiftLeft_eq, Nat.shiftLeft_eq, Nat.shiftLeft_eq, Nat.pow_add]
        congr 1
        ring
      simp [hvalue]
  | case4 limit shift value b r total hb =>
    simp [scan?, hb, total]

/-- The two readers agree. -/
theorem read_eq (bytes : List UInt8) : read bytes =
    match decode? bytes with
    | some (n, used) => .ok (n, bytes.drop used)
    | none => .error (if maxBytes ≤ bytes.length then .tooLong else .ended) := by
  rw [read, readFrom_eq, decode?]
  cases scan? maxBytes bytes with
  | none => rfl
  | some p => simp

theorem read_bytes (s : Spelling) (rest : List UInt8) :
    read (s.bytes ++ rest) = .ok (s.number, rest) := by
  simp [read_eq, decode?_bytes]

/-! ### Written numbers -/

/-- A number of at most `limit` groups is written with as many bytes. -/
theorem encode_eq_append (limit : Nat) {n : Nat} (hn : n < 128 ^ limit) (hlimit : 0 < limit) :
    ∃ initial last, encode n = initial ++ [last] ∧ (∀ b ∈ initial, continues b = true) ∧
      continues last = false ∧ initial.length < limit ∧ numberOf (encode n) = n := by
  induction limit generalizing n with
  | zero => exact absurd hlimit (Nat.lt_irrefl 0)
  | succ limit ih =>
    rw [encode]
    split
    · next hsmall =>
      have hbyte : n.toUInt8.toNat = n := by simp; omega
      refine ⟨[], n.toUInt8, rfl, nofun, ?_, Nat.succ_pos limit, ?_⟩
      · simp [continues, hbyte, hsmall]
      · simp [numberOf, group, hbyte, Nat.mod_eq_of_lt hsmall]
    · next hlarge =>
      have hrest : n / 128 < 128 ^ limit := Nat.div_lt_of_lt_mul (by rwa [Nat.mul_comm, ← Nat.pow_succ])
      have hpos : 0 < limit := by
        rcases Nat.eq_zero_or_pos limit with rfl | h
        · omega
        · exact h
      obtain ⟨initial, last, hencode, continued, ends, short, hnumber⟩ := ih hrest hpos
      have hbyte : (n % 128 + 128).toUInt8.toNat = n % 128 + 128 := by simp; omega
      refine ⟨(n % 128 + 128).toUInt8 :: initial, last, by rw [hencode]; rfl, ?_, ends,
        Nat.succ_lt_succ short, ?_⟩
      · refine List.forall_mem_cons.2 ⟨?_, continued⟩
        rw [continues, hbyte]
        exact decide_eq_true (Nat.le_add_left 128 _)
      · rw [numberOf_cons, hnumber, group, hbyte]
        omega

theorem exists_spelling_encode {n : Nat} (hn : n < modulus) :
    ∃ s : Spelling, s.bytes = encode n ∧ s.number = n := by
  obtain ⟨initial, last, hencode, continued, ends, short, hnumber⟩ :=
    encode_eq_append maxBytes (Nat.lt_trans hn (by decide)) (by decide)
  refine ⟨⟨initial, last, continued, ends, short⟩, hencode.symm, ?_⟩
  rw [Spelling.number, Spelling.bytes, ← hencode, hnumber, Nat.mod_eq_of_lt hn]

theorem read_encode {n : Nat} (hn : n < modulus) (rest : List UInt8) :
    read (encode n ++ rest) = .ok (n, rest) := by
  obtain ⟨s, hbytes, hnumber⟩ := exists_spelling_encode hn
  rw [← hbytes, read_bytes, hnumber]

end HomeHub.NativeApi.Varint
