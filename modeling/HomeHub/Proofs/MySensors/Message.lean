import HomeHub.MySensors.Message
import HomeHub.Proofs.Number.Decimal

/-!
# Messages are read back from their lines

The fields before the payload are numbers, and a number holds no semicolon, so the line of a message is
read back as the message, whatever its payload holds but for line breaks at its end: `parse_encode`.
-/

namespace HomeHub.MySensors

theorem Command.ofNumber_number (c : Command) : ofNumber c.number = .ok c := by
  cases c <;> rfl

namespace Message

/-- Numbers with a semicolon behind each of them, before a payload. -/
def written (payload : List Char) : List UInt8 → List Char
  | [] => payload
  | n :: r => (toString n.toNat).toList ++ ';' :: written payload r

/-- The fields before the payload. -/
def numbers (m : Message) : List UInt8 :=
  [m.nodeId, m.childId, m.command.number, m.ack.toUInt8, m.type]

theorem toList_text (m : Message) : m.text.toList = written m.payload.toList m.numbers := by
  have hack : m.ack.toUInt8.toNat = m.ack.toNat := by cases m.ack <;> rfl
  simp [text, written, numbers, hack]

theorem written_append (payload tail : List Char) (ns : List UInt8) :
    written payload ns ++ tail = written (payload ++ tail) ns := by
  induction ns with
  | nil => rfl
  | cons n r ih => rw [written, written, List.append_assoc, List.cons_append, ih]

theorem toList_encode (m : Message) :
    m.encode.toList = written (m.payload.toList ++ ['\n']) m.numbers := by
  rw [encode, String.toList_append, toList_text, ← written_append]
  rfl

/-! ### Line breaks at the end -/

theorem withoutBreaks_append_cons {c : Char} (hc : (c == '\r' || c == '\n') = false) (cs ds : List Char) :
    withoutBreaks (cs ++ c :: ds) = cs ++ c :: withoutBreaks ds := by
  rw [withoutBreaks, withoutBreaks, List.reverse_append, List.reverse_cons, List.append_assoc,
    List.dropWhile_append]
  split
  · next hnone =>
    rw [List.isEmpty_iff.1 hnone, List.singleton_append, List.dropWhile_cons_of_neg (by simp [hc])]
    simp
  · simp

theorem withoutBreaks_append_of_break {c : Char} (hc : (c == '\r' || c == '\n') = true) (cs : List Char) :
    withoutBreaks (cs ++ [c]) = withoutBreaks cs := by
  rw [withoutBreaks, List.reverse_append, List.reverse_singleton, List.singleton_append,
    List.dropWhile_cons, if_pos hc]
  rfl

theorem length_withoutBreaks_le (cs : List Char) : (withoutBreaks cs).length ≤ cs.length := by
  rw [withoutBreaks, List.length_reverse]
  exact (List.dropWhile_sublist _).length_le.trans_eq (List.length_reverse ..)

/-- A text that ends in no break keeps all of its characters. -/
theorem withoutBreaks_eq_self_iff {cs : List Char} :
    withoutBreaks cs = cs ↔ ∀ c ∈ cs.getLast?, (c == '\r' || c == '\n') = false := by
  rcases List.eq_nil_or_concat cs with rfl | ⟨ds, c, rfl⟩
  · exact ⟨fun _ => nofun, fun _ => rfl⟩
  rw [List.concat_eq_append, List.getLast?_concat]
  constructor
  · rintro h _ ⟨⟩
    by_contra hc
    rw [withoutBreaks_append_of_break ((Bool.not_eq_false _).mp hc)] at h
    have hlength := congrArg List.length h
    have hle := length_withoutBreaks_le ds
    rw [List.length_append, List.length_singleton] at hlength
    omega
  · intro h
    rw [withoutBreaks_append_cons (h c rfl)]
    rfl

theorem withoutBreaks_written (payload : List Char) (ns : List UInt8) :
    withoutBreaks (written payload ns) = written (withoutBreaks payload) ns := by
  induction ns with
  | nil => rfl
  | cons n r ih => rw [written, withoutBreaks_append_cons (by decide), ih, written]

/-! ### Fields -/

theorem splitField_append {field : List Char} (h : ';' ∉ field) (rest : List Char) :
    splitField (field ++ ';' :: rest) = (field, some rest) := by
  have hfield : ∀ c ∈ field, (c != ';') = true := fun c hc => bne_iff_ne.2 fun heq => h (heq ▸ hc)
  rw [splitField, List.takeWhile_append_of_pos hfield, List.dropWhile_append_of_pos hfield]
  simp

theorem byte?_written (n : UInt8) (payload : List Char) (ns : List UInt8) :
    byte? (some (written payload (n :: ns))) = some (n, some (written payload ns)) := by
  have hfield : ';' ∉ (toString n.toNat).toList := fun h =>
    absurd (Decimal.isDigit_of_mem_toString h) (by decide)
  have hn : n.toNat ≤ 255 := Nat.le_of_lt_succ n.toNat_lt
  simp only [byte?, written, Option.bind_eq_bind, Option.bind_some, splitField_append hfield,
    String.ofList_toList, Decimal.natUpTo?_toString hn, UInt8.ofNat_toNat, Option.pure_def]

theorem parse_of_withoutBreaks {s : String} {m : Message} {payload : List Char}
    (h : withoutBreaks s.toList = written payload m.numbers) :
    parse s = .ok { m with payload := String.ofList payload } := by
  have hack : decide (m.ack.toUInt8 ≠ 0) = m.ack := by cases m.ack <;> rfl
  simp only [parse, h, numbers, byte?_written, Command.ofNumber_number, bind, Except.bind, pure,
    Except.pure, hack]
  rfl

/-- A message is read back from its line, but for the line breaks at the end of its payload. -/
theorem parse_encode (m : Message) :
    parse m.encode = .ok { m with payload := String.ofList (withoutBreaks m.payload.toList) } := by
  refine parse_of_withoutBreaks ?_
  rw [toList_encode, withoutBreaks_written, withoutBreaks_append_of_break (by decide)]

end Message

end HomeHub.MySensors
