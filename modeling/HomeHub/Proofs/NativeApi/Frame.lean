import HomeHub.NativeApi.Frame
import HomeHub.Proofs.NativeApi.Varint

/-!
# Frames in a stream

A reader finds the end of each frame from its header alone, `read_header`. So frames that were written
one after another are read back one after another, and what follows them is left in the stream.
-/

namespace HomeHub.NativeApi.Frame

/-- Reads this many frames one after another, and gives the rest of the stream. -/
def readSeries : Nat → List UInt8 → Except Failure (List Frame × List UInt8)
  | 0, bytes => .ok ([], bytes)
  | count + 1, bytes => do
    let (frame, r) ← read bytes
    let (frames, r) ← readSeries count r
    return (frame :: frames, r)

theorem readVarint_encode {n : Nat} (hn : n < Varint.modulus) (r : List UInt8) :
    readVarint (Varint.encode n ++ r) = .ok (n, r) := by
  rw [readVarint, Varint.read_encode hn]
  rfl

theorem read_header {length : Nat} (hlength : length < Varint.modulus) (messageType : UInt32)
    (r : List UInt8) :
    read (0 :: (Varint.encode length ++ Varint.encode messageType.toNat ++ r)) =
      if maxPayload < length then .error (.frameTooLarge length)
      else if r.length < length then .error ended
      else .ok (⟨messageType, r.take length⟩, r.drop length) := by
  have htype : messageType.toNat < Varint.modulus :=
    Nat.lt_trans messageType.toNat_lt (by decide)
  have hsmall : ¬ 0x100000000 ≤ messageType.toNat := Nat.not_le_of_lt messageType.toNat_lt
  rw [read, List.append_assoc, readVarint_encode hlength]
  by_cases hlarge : maxPayload < length
  · simp [hlarge, bind, Except.bind, throw, throwThe, MonadExceptOf.throw]
  · simp only [hlarge, bind, Except.bind, pure, Except.pure, readVarint_encode htype, hsmall]
    by_cases hshort : r.length < length
    · simp [hshort, throw, throwThe, MonadExceptOf.throw]
    · simp [hshort]

/-- Written frames are read back, and no more than they is taken from the stream. -/
theorem read_encode {f : Frame} (small : f.payload.length ≤ maxPayload) (r : List UInt8) :
    read (f.encode ++ r) = .ok (f, r) := by
  have hlength : f.payload.length < Varint.modulus := Nat.lt_of_le_of_lt small (by decide)
  have hheader := read_header hlength f.messageType (f.payload ++ r)
  rw [if_neg (Nat.not_lt.2 small), if_neg (by simp), List.take_left, List.drop_left] at hheader
  rw [encode, List.cons_append, List.append_assoc, hheader]

theorem read_encode_of_large {f : Frame} (large : maxPayload < f.payload.length)
    (addressable : f.payload.length < Varint.modulus) (r : List UInt8) :
    read (f.encode ++ r) = .error (.frameTooLarge f.payload.length) := by
  rw [encode, List.cons_append, List.append_assoc, read_header addressable, if_pos large]

/-- Any frames whose payloads are not too long are read back in order, and the bytes after them are
left. A frame with a longer payload is refused by its header; lengths are numbers of 64 bits. -/
theorem readSeries_encode (frames : List Frame)
    (small : ∀ f ∈ frames, f.payload.length ≤ maxPayload) (rest : List UInt8) :
    readSeries frames.length (frames.flatMap encode ++ rest) = .ok (frames, rest) ∧
      ∀ f : Frame, maxPayload < f.payload.length → f.payload.length < Varint.modulus →
        read (f.encode ++ rest) = .error (.frameTooLarge f.payload.length) := by
  refine ⟨?_, fun f large addressable => read_encode_of_large large addressable rest⟩
  induction frames with
  | nil => rfl
  | cons f frames ih =>
    obtain ⟨hf, hframes⟩ := List.forall_mem_cons.1 small
    rw [List.flatMap_cons, List.append_assoc, List.length_cons, readSeries, read_encode hf]
    simp only [bind, Except.bind, ih hframes]
    rfl

/-- The payload that is one byte too long. -/
def oversized : List UInt8 := List.replicate (maxPayload + 1) 0

theorem length_oversized : oversized.length = maxPayload + 1 := List.length_replicate

/-- Two frames, the second without a payload, and the beginning of a third one; and a frame that is
one byte too long. -/
theorem readSeries_two_frames :
    readSeries 2 ([⟨3, [10, 1, 120]⟩, ⟨0xFFFFFFFF, []⟩].flatMap encode ++ [0, 5]) =
        .ok ([⟨3, [10, 1, 120]⟩, ⟨0xFFFFFFFF, []⟩], [0, 5]) ∧
      read (encode ⟨7, oversized⟩ ++ [0, 5]) = .error (.frameTooLarge (maxPayload + 1)) := by
  obtain ⟨hread, hlarge⟩ :=
    readSeries_encode [⟨3, [10, 1, 120]⟩, ⟨0xFFFFFFFF, []⟩] (by decide) [0, 5]
  have hpast : maxPayload < oversized.length := by rw [length_oversized]; exact Nat.lt_succ_self _
  have haddressable : oversized.length < Varint.modulus := by rw [length_oversized]; decide
  exact ⟨hread, length_oversized ▸ hlarge ⟨7, oversized⟩ hpast haddressable⟩

end HomeHub.NativeApi.Frame
