import HomeHub.NativeApi.Failure
import HomeHub.NativeApi.Varint
import HomeHub.Text.Utf8

/-!
# Fields of a payload

A payload is a sequence of fields. A field is a key, which holds its number and the kind of its
value, and the value. Writers leave out a field whose value is empty, zero or false. `fields` takes
a payload apart, whatever its message.
-/

namespace HomeHub.NativeApi.Wire

/-- The value of a field. Values of fixed width are skipped. -/
inductive Value where
  | varint (n : Nat)
  | bytes (content : List UInt8)
  | fixed
  deriving DecidableEq, Repr

structure Field where
  number : Nat
  value : Value
  deriving DecidableEq, Repr

namespace Value

/-- Only a varint other than zero is true. -/
def bool : Value → Bool
  | .varint n => n != 0
  | _ => false

/-- A varint beyond 32 bits counts as the greatest number; what is no varint counts as zero. -/
def uint32 : Value → UInt32
  | .varint n => UInt32.ofNat (min n 0xFFFFFFFF)
  | _ => 0

def text : Value → Except Malformed String
  | .bytes content =>
    match Utf8.strict? content with
    | some s => .ok s
    | none => .error .notUtf8
  | _ => .error .notString

end Value

/-! ### Writing -/

/-- The key of a field; kind 0 is a varint, 2 bytes with their length before them. -/
def key (number kind : Nat) : List UInt8 := Varint.encode (number * 8 + kind)

def text (number : Nat) (s : String) : List UInt8 :=
  let bytes := Utf8.bytes s
  if bytes.isEmpty then [] else key number 2 ++ Varint.encode bytes.length ++ bytes

def uint32 (number : Nat) (n : UInt32) : List UInt8 :=
  if n = 0 then [] else key number 0 ++ Varint.encode n.toNat

def bool (number : Nat) (b : Bool) : List UInt8 := if b then key number 0 ++ [1] else []

/-! ### Reading -/

def varint (bytes : List UInt8) : Except Malformed (Nat × List UInt8) :=
  match Varint.decode? bytes with
  | some (n, used) => .ok (n, bytes.drop used)
  | none => .error .truncatedVarint

/-- Skips bytes that must be there. -/
def skip (count : Nat) (fault : Malformed) (bytes : List UInt8) : Except Malformed (List UInt8) :=
  if bytes.length < count then .error fault else .ok (bytes.drop count)

/-- Reads the value of a field of some kind. -/
def value (kind : Nat) (bytes : List UInt8) : Except Malformed (Value × List UInt8) :=
  match kind with
  | 0 => (varint bytes).map fun (n, r) => (.varint n, r)
  | 1 => (skip 8 .truncatedFixed64 bytes).map fun r => (.fixed, r)
  | 2 => do
    let (length, r) ← varint bytes
    if r.length < length then throw .overrun
    return (.bytes (r.take length), r.drop length)
  | 5 => (skip 4 .truncatedFixed32 bytes).map fun r => (.fixed, r)
  | _ => .error .wireType

/-- Reads one field. -/
def field (bytes : List UInt8) : Except Malformed (Field × List UInt8) := do
  let (key, r) ← varint bytes
  if 0x100000000 ≤ key / 8 then throw .fieldNumber
  let (value, r) ← value (key % 8) r
  return (⟨key / 8, value⟩, r)

theorem scan?_used {limit : Nat} {bytes : List UInt8} {n used : Nat}
    (h : Varint.scan? limit bytes = some (n, used)) : 0 < used ∧ used ≤ bytes.length := by
  fun_induction Varint.scan? limit bytes generalizing n used with
  | case1 => simp at h
  | case2 => simp at h
  | case3 limit b r _ ih =>
    simp only [Option.map_eq_some_iff, Prod.mk.injEq, Prod.exists] at h
    obtain ⟨m, k, hk, -, rfl⟩ := h
    have := ih hk
    simp; omega
  | case4 => simp at h; simp; omega

theorem varint_shorter {bytes r : List UInt8} {n : Nat} (h : varint bytes = .ok (n, r)) :
    r.length < bytes.length := by
  unfold varint at h
  split at h
  case h_1 m used hd =>
    simp only [Varint.decode?, Option.map_eq_some_iff, Prod.mk.injEq, Prod.exists] at hd
    obtain ⟨_, _, hs, -, rfl⟩ := hd
    have := scan?_used hs
    simp only [Except.ok.injEq, Prod.mk.injEq] at h
    rw [← h.2, List.length_drop]; omega
  case h_2 => simp at h

theorem skip_length {count : Nat} {fault : Malformed} {bytes r : List UInt8}
    (h : skip count fault bytes = .ok r) : r.length ≤ bytes.length := by
  unfold skip at h
  split at h
  · simp at h
  · simp only [Except.ok.injEq] at h
    rw [← h, List.length_drop]; omega

theorem value_length {kind : Nat} {bytes r : List UInt8} {v : Value}
    (h : value kind bytes = .ok (v, r)) : r.length ≤ bytes.length := by
  unfold value at h
  split at h
  · cases hv : varint bytes with
    | error => simp [hv, Except.map] at h
    | ok p =>
      have := varint_shorter (n := p.1) (r := p.2) hv
      simp [hv, Except.map] at h
      rw [← h.2]; omega
  · cases hv : skip 8 .truncatedFixed64 bytes with
    | error => simp [hv, Except.map] at h
    | ok p =>
      have := skip_length hv
      simp [hv, Except.map] at h
      rw [← h.2]; omega
  · cases hv : varint bytes with
    | error => simp [hv, bind, Except.bind] at h
    | ok p =>
      have := varint_shorter (n := p.1) (r := p.2) hv
      simp only [hv, bind, Except.bind] at h
      split at h
      · simp [throw, throwThe, MonadExceptOf.throw] at h
      · simp [pure, Except.pure] at h
        rw [← h.2, List.length_drop]; omega
  · cases hv : skip 4 .truncatedFixed32 bytes with
    | error => simp [hv, Except.map] at h
    | ok p =>
      have := skip_length hv
      simp [hv, Except.map] at h
      rw [← h.2]; omega
  · simp at h

/-- A field has at least one byte. -/
theorem field_shorter {bytes r : List UInt8} {f : Field} (h : field bytes = .ok (f, r)) :
    r.length < bytes.length := by
  unfold field at h
  cases hk : varint bytes with
  | error => simp [hk, bind, Except.bind] at h
  | ok p =>
    have hlt := varint_shorter (n := p.1) (r := p.2) hk
    simp only [hk, bind, Except.bind] at h
    split at h
    · simp [throw, throwThe, MonadExceptOf.throw] at h
    · cases hv : value (p.1 % 8) p.2 with
      | error => simp [hv] at h
      | ok q =>
        have := value_length (v := q.1) (r := q.2) hv
        simp [hv, pure, Except.pure] at h
        rw [← h.2]; omega

/-- The fields of a payload, in order. -/
def fields (payload : List UInt8) : Except Malformed (List Field) :=
  match payload with
  | [] => .ok []
  | b :: bytes =>
    match h : field (b :: bytes) with
    | .error fault => .error fault
    | .ok (f, r) =>
      have := field_shorter h
      (fields r).map (f :: ·)
termination_by payload.length
decreasing_by exact this

end HomeHub.NativeApi.Wire
