import HomeHub.Proofs.NativeApi.Varint
import Mathlib.Data.Nat.Bitwise

/-!
# Numbers gathered in words

Both readers can gather a number in a word of 64 bits, where they set the seven bits of each byte.
`decodeWord` takes the place of a byte from its index, `readWord` counts places up in steps of seven. A
shift by more places than a word has would be a fault of its own, which never comes up: they say what
`decode?` and `read` say, `decodeWord_eq` and `readWord_eq`. What that is, is told by the bytes up to the
first one that does not continue, `readers_agree`.
-/

namespace HomeHub.NativeApi.Varint

/-- Why bytes give no word. -/
inductive WordFault (ε : Type) where
  /-- A word was to be shifted by 64 places or more. -/
  | overshift
  | noNumber (reason : ε)
  deriving DecidableEq, Repr

variable {ε : Type}

/-- Shifts a word to the left. What is shifted out of it is lost. -/
def shiftWord (w : UInt64) (places : Nat) : Except (WordFault ε) UInt64 :=
  if places < 64 then .ok (w <<< UInt64.ofNat places) else .error .overshift

/-- Sets the seven bits of a byte in a word. -/
def place (value : UInt64) (b : UInt8) (places : Nat) : Except (WordFault ε) UInt64 := do
  return value ||| (← shiftWord (b &&& 0x7f).toUInt64 places)

/-- Goes on at the byte of this index. -/
def decodeWordFrom (index : Nat) (value : UInt64) :
    List UInt8 → Except (WordFault Unit) (UInt64 × Nat)
  | [] => .error (.noNumber ())
  | b :: r =>
    if index < maxBytes then do
      let value ← place value b (7 * index)
      if b &&& 0x80 = 0 then return (value, index + 1) else decodeWordFrom (index + 1) value r
    else .error (.noNumber ())

/-- The word at the start of the bytes, and how many bytes it takes. -/
def decodeWord (bytes : List UInt8) : Except (WordFault Unit) (UInt64 × Nat) :=
  decodeWordFrom 0 0 bytes

/-- Takes one byte from the stream for each of the places. -/
def readWordFrom : List Nat → UInt64 → List UInt8 →
    Except (WordFault StreamFault) (UInt64 × List UInt8)
  | [], _, _ => .error (.noNumber .tooLong)
  | _ :: _, _, [] => .error (.noNumber .ended)
  | places :: more, value, b :: r => do
    let value ← place value b places
    if b &&& 0x80 = 0 then return (value, r) else readWordFrom more value r

/-- The word at the start of a stream, and the rest of the stream. -/
def readWord (bytes : List UInt8) : Except (WordFault StreamFault) (UInt64 × List UInt8) :=
  readWordFrom (List.range' 0 maxBytes 7) 0 bytes

/-! ### The bits of a byte -/

theorem toNat_lowBits (b : UInt8) : (b &&& 0x7f).toUInt64.toNat = group b := by
  rw [UInt8.toNat_toUInt64, UInt8.toNat_and]
  exact Nat.and_two_pow_sub_one_eq_mod b.toNat 7

theorem highBit_eq_zero_iff (b : UInt8) : b &&& 0x80 = 0 ↔ continues b = false := by
  have hbit : b.toNat &&& 2 ^ 7 = (b.toNat.testBit 7).toNat * 2 ^ 7 := Nat.and_two_pow b.toNat 7
  have hlt := b.toNat_lt
  rw [← UInt8.toNat_inj, UInt8.toNat_and, continues, decide_eq_false_iff_not, Nat.not_le]
  show b.toNat &&& 2 ^ 7 = 0 ↔ b.toNat < 128
  rw [hbit, Nat.testBit_eq_decide_div_mod_eq]
  by_cases h : b.toNat < 128
  · simp [Nat.div_eq_of_lt h, h]
  · have : b.toNat / 128 = 1 := by omega
    simp [this, h]

theorem group_lt (b : UInt8) : group b < 128 := Nat.mod_lt _ (by decide)

/-- Bits that are set above all others add to the number, as far as the word goes. -/
theorem or_shiftLeft_eq {v g s : Nat} (hs : s < 64) (hv : v < 2 ^ s) :
    v ||| g <<< s % 2 ^ 64 = (v + g <<< s) % 2 ^ 64 := by
  have hsplit : (2 : Nat) ^ 64 = 2 ^ (64 - s) * 2 ^ s := by
    rw [← Nat.pow_add, Nat.sub_add_cancel hs.le]
  have hkept : g <<< s % 2 ^ 64 = (g % 2 ^ (64 - s)) <<< s := by
    rw [Nat.shiftLeft_eq, Nat.shiftLeft_eq, hsplit, Nat.mul_mod_mul_right]
  have hroom : (g % 2 ^ (64 - s)) <<< s + v < 2 ^ 64 := by
    have hg : g % 2 ^ (64 - s) + 1 ≤ 2 ^ (64 - s) := Nat.mod_lt g (Nat.two_pow_pos _)
    calc (g % 2 ^ (64 - s)) <<< s + v
        < (g % 2 ^ (64 - s) + 1) * 2 ^ s := by rw [Nat.shiftLeft_eq, Nat.succ_mul]; omega
      _ ≤ 2 ^ 64 := hsplit ▸ Nat.mul_le_mul_right (2 ^ s) hg
  calc v ||| g <<< s % 2 ^ 64
      = (g % 2 ^ (64 - s)) <<< s + v := by
        rw [hkept, Nat.or_comm, Nat.shiftLeft_add_eq_or_of_lt hv]
    _ = (g <<< s % 2 ^ 64 + v) % 2 ^ 64 := by rw [hkept, Nat.mod_eq_of_lt hroom]
    _ = (v + g <<< s) % 2 ^ 64 := by rw [Nat.mod_add_mod, Nat.add_comm]

theorem place_eq {value : UInt64} {places : Nat} (b : UInt8) (hplaces : places < 64)
    (hvalue : value.toNat < 2 ^ places) :
    (place value b places : Except (WordFault ε) UInt64) =
      .ok (UInt64.ofNat (value.toNat + group b <<< places)) := by
  have hshift : (UInt64.ofNat places).toNat % 64 = places := by
    rw [UInt64.toNat_ofNat']
    omega
  rw [place, shiftWord, if_pos hplaces]
  refine congrArg Except.ok (UInt64.toNat_inj.1 ?_)
  rw [UInt64.toNat_or, UInt64.toNat_shiftLeft, toNat_lowBits, hshift, UInt64.toNat_ofNat']
  exact or_shiftLeft_eq hplaces hvalue

/-! ### Gathering -/

/-- What was gathered before the byte of this index stays below its place. -/
def Gathers (index : Nat) (value : UInt64) : Prop := value.toNat < 2 ^ (7 * index)

namespace Gathers

variable {index : Nat} {value : UInt64}

theorem zero : Gathers 0 0 := Nat.one_pos

theorem place (h : Gathers index value) (hindex : index < maxBytes) (b : UInt8) :
    (Varint.place value b (7 * index) : Except (WordFault ε) UInt64) =
      .ok (UInt64.ofNat (value.toNat + group b <<< (7 * index))) :=
  place_eq b (by rw [maxBytes] at hindex; omega) h

theorem lt (h : Gathers index value) (b : UInt8) :
    value.toNat + group b <<< (7 * index) < 2 ^ (7 * (index + 1)) := by
  have hgroup : (group b + 1) * 2 ^ (7 * index) ≤ 128 * 2 ^ (7 * index) :=
    Nat.mul_le_mul_right _ (group_lt b)
  rw [Gathers] at h
  rw [Nat.mul_succ, Nat.pow_add, Nat.shiftLeft_eq]
  rw [Nat.succ_mul] at hgroup
  omega

theorem next (h : Gathers index value) (b : UInt8) :
    Gathers (index + 1) (UInt64.ofNat (value.toNat + group b <<< (7 * index))) := by
  refine Nat.lt_of_le_of_lt ?_ (h.lt b)
  rw [UInt64.toNat_ofNat']
  exact Nat.mod_le _ _

/-- The groups that follow are added to those gathered, unless the byte is the last one there may
be. -/
theorem add (h : Gathers index value) (hindex : index + 1 < maxBytes) (b : UInt8) (n : Nat) :
    (UInt64.ofNat (value.toNat + group b <<< (7 * index))).toNat + n <<< (7 * (index + 1)) =
      value.toNat + (group b + 128 * n) <<< (7 * index) := by
  have hroom : 2 ^ (7 * (index + 1)) ≤ 2 ^ 64 :=
    Nat.pow_le_pow_right (by decide) (by rw [maxBytes] at hindex; omega)
  rw [UInt64.toNat_ofNat', Nat.mod_eq_of_lt (Nat.lt_of_lt_of_le (h.lt b) hroom), Nat.mul_succ,
    Nat.shiftLeft_eq, Nat.shiftLeft_eq, Nat.shiftLeft_eq, Nat.pow_add]
  ring

end Gathers

theorem scan?_zero (bytes : List UInt8) : scan? 0 bytes = none := by rw [scan?]

theorem limit_pos_of_scan? {limit : Nat} {bytes : List UInt8} {p : Nat × Nat}
    (h : scan? limit bytes = some p) : 0 < limit := by
  rcases Nat.eq_zero_or_pos limit with rfl | hpos
  · rw [scan?_zero] at h
    cases h
  · exact hpos

theorem decodeWordFrom_eq {index limit : Nat} {value : UInt64} (h : Gathers index value)
    (hlimit : index + limit = maxBytes) (bytes : List UInt8) :
    decodeWordFrom index value bytes =
      match scan? limit bytes with
      | some (n, used) => .ok (UInt64.ofNat (value.toNat + n <<< (7 * index)), index + used)
      | none => .error (.noNumber ()) := by
  induction bytes generalizing index limit value with
  | nil => cases limit <;> rfl
  | cons b r ih =>
    obtain - | limit := limit
    · rw [decodeWordFrom, if_neg (by omega), scan?_zero]
    have hindex : index < maxBytes := by omega
    have hrest := ih (h.next b) (show index + 1 + limit = maxBytes by omega)
    rw [decodeWordFrom, if_pos hindex, h.place hindex b, scan?]
    simp only [bind, Except.bind, pure, Except.pure, highBit_eq_zero_iff]
    by_cases hb : continues b = true
    · rw [if_neg (by simp [hb]), if_pos hb, hrest]
      cases hscan : scan? limit r with
      | none => rfl
      | some p =>
        have hpos := limit_pos_of_scan? hscan
        have hnext : index + 1 < maxBytes := by omega
        simp only [Option.map_some, h.add hnext b p.1, Nat.add_assoc, Nat.add_comm 1]
    · rw [if_pos (Bool.eq_false_iff.2 hb), if_neg hb]

theorem readWordFrom_eq {index limit : Nat} {value : UInt64} (h : Gathers index value)
    (hlimit : index + limit = maxBytes) (bytes : List UInt8) :
    readWordFrom (List.range' (7 * index) limit 7) value bytes =
      match scan? limit bytes with
      | some (n, used) => .ok (UInt64.ofNat (value.toNat + n <<< (7 * index)), bytes.drop used)
      | none => .error (.noNumber (if limit ≤ bytes.length then .tooLong else .ended)) := by
  induction bytes generalizing index limit value with
  | nil => cases limit <;> rfl
  | cons b r ih =>
    obtain - | limit := limit
    · rw [scan?_zero]; rfl
    have hindex : index < maxBytes := by omega
    have hrest := ih (h.next b) (show index + 1 + limit = maxBytes by omega)
    rw [List.range'_succ, readWordFrom, h.place hindex b, scan?]
    simp only [bind, Except.bind, pure, Except.pure, highBit_eq_zero_iff]
    by_cases hb : continues b = true
    · rw [if_neg (by simp [hb]), if_pos hb, ← Nat.mul_succ, hrest]
      cases hscan : scan? limit r with
      | none => simp
      | some p =>
        have hpos := limit_pos_of_scan? hscan
        have hnext : index + 1 < maxBytes := by omega
        simp only [Option.map_some, h.add hnext b p.1, List.drop_succ_cons]
    · rw [if_pos (Bool.eq_false_iff.2 hb), if_neg hb]
      rfl

theorem ofNat_mod_modulus (n : Nat) : UInt64.ofNat (n % modulus) = UInt64.ofNat n :=
  UInt64.toNat_inj.1 (by rw [UInt64.toNat_ofNat', UInt64.toNat_ofNat']; exact Nat.mod_mod n _)

/-- By their index, bytes are placed in a word without fault. -/
theorem decodeWord_eq (bytes : List UInt8) : decodeWord bytes =
    match decode? bytes with
    | some (n, used) => .ok (UInt64.ofNat n, used)
    | none => .error (.noNumber ()) := by
  rw [decodeWord, decodeWordFrom_eq Gathers.zero (Nat.zero_add maxBytes), decode?]
  cases scan? maxBytes bytes with
  | none => rfl
  | some p => simp [ofNat_mod_modulus]

/-- In steps of seven places, bytes are placed in a word without fault. -/
theorem readWord_eq (bytes : List UInt8) : readWord bytes =
    match read bytes with
    | .ok (n, rest) => .ok (UInt64.ofNat n, rest)
    | .error reason => .error (.noNumber reason) := by
  have hread := readWordFrom_eq Gathers.zero (Nat.zero_add maxBytes) bytes
  rw [readWord, hread, read_eq, decode?]
  cases scan? maxBytes bytes with
  | none => rfl
  | some p => simp [ofNat_mod_modulus]

/-! ### What is read -/

theorem scan?_eq (limit : Nat) (bytes : List UInt8) :
    scan? limit bytes =
      let last := bytes.findIdx fun b => !continues b
      if last < limit ∧ last < bytes.length then some (numberOf (bytes.take (last + 1)), last + 1)
      else none := by
  fun_induction scan? limit bytes with
  | case1 => simp
  | case2 => simp
  | case3 limit b r hb ih =>
    have hlast : (b :: r).findIdx (fun b => !continues b) = r.findIdx (fun b => !continues b) + 1 := by
      rw [List.findIdx_cons, hb]
      rfl
    rw [ih, hlast]
    simp only [Nat.succ_eq_add_one, List.length_cons, Nat.add_lt_add_iff_right, List.take_succ_cons,
      numberOf_cons, apply_ite (Option.map _), Option.map_some, Option.map_none]
  | case4 limit b r hb => simp [List.findIdx_cons, hb, numberOf]

/-- Every number of 64 bits is written with at most ten bytes and read back from them, whatever
follows. From any bytes, both readers take the same number and leave the same rest: the bytes up to the
first one that does not continue make the number, if that is one of the first ten. So it is when they
gather the number in a word of 64 bits, which is never shifted by more than 63 places. -/
theorem readers_agree :
    (∀ (n : UInt64) (rest : List UInt8),
      (encode n.toNat).length ≤ 10 ∧
        decode? (encode n.toNat ++ rest) = some (n.toNat, (encode n.toNat).length)) ∧
    ∀ bytes : List UInt8,
      let last := bytes.findIdx fun b => !continues b
      let found := last < 10 ∧ last < bytes.length
      let number := numberOf (bytes.take (last + 1)) % 2 ^ 64
      let reason : StreamFault := if 10 ≤ bytes.length then .tooLong else .ended
      decode? bytes = (if found then some (number, last + 1) else none) ∧
      read bytes = (if found then .ok (number, bytes.drop (last + 1)) else .error reason) ∧
      decodeWord bytes =
        (if found then .ok (UInt64.ofNat number, last + 1) else .error (.noNumber ())) ∧
      readWord bytes =
        (if found then .ok (UInt64.ofNat number, bytes.drop (last + 1))
        else .error (.noNumber reason)) := by
  constructor
  · intro n rest
    obtain ⟨s, hbytes, hnumber⟩ := exists_spelling_encode n.toNat_lt
    rw [← hbytes, decode?_bytes, hnumber, s.length_bytes]
    exact ⟨s.short, rfl⟩
  · intro bytes last found number reason
    have hdecode : decode? bytes = if found then some (number, last + 1) else none := by
      rw [decode?, scan?_eq]
      exact apply_ite (Option.map _) found _ _
    by_cases h : found
    · rw [if_pos h] at hdecode
      have hread : read bytes = .ok (number, bytes.drop (last + 1)) := by rw [read_eq, hdecode]
      simp only [if_pos h]
      exact ⟨hdecode, hread, by rw [decodeWord_eq, hdecode], by rw [readWord_eq, hread]⟩
    · rw [if_neg h] at hdecode
      have hread : read bytes = .error reason := by
        rw [read_eq, hdecode]
        rfl
      simp only [if_neg h]
      exact ⟨hdecode, hread, by rw [decodeWord_eq, hdecode], by rw [readWord_eq, hread]⟩

/-- A number of ten bytes loses what the last of them says beyond the 64th bit. -/
example : readWord [0xff, 0xff, 0xff, 0xff, 0xff, 0xff, 0xff, 0xff, 0xff, 0x7f, 1] =
    .ok (0xFFFFFFFFFFFFFFFF, [1]) := by decide

end HomeHub.NativeApi.Varint
