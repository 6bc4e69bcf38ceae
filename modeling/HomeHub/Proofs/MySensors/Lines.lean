import HomeHub.Proofs.MySensors.Message
import Mathlib.Data.List.DropRight

/-!
# Which lines are messages

Without the breaks at its end, a line is split at its semicolons. It is a message exactly if five fields
spell bytes, the third of them that of a command, and whatever comes after them is the payload:
`parse_eq_ok_iff`. A payload that was read ends in no break, so a message that was read is read again from
its own line, however its numbers were spelled before: `line_codec`.
-/

namespace HomeHub.MySensors

namespace Command

theorem ofNumber_eq_ok_iff {n : UInt8} {c : Command} : ofNumber n = .ok c ↔ c.number = n := by
  refine ⟨fun h => ?_, fun h => h ▸ ofNumber_number c⟩
  unfold ofNumber at h
  split at h
  · next hfind =>
    cases h
    have hnumber := List.find?_some hfind
    exact beq_iff_eq.1 hnumber
  · cases h

theorem exists_number_iff {n : UInt8} : (∃ c : Command, c.number = n) ↔ n ≤ 4 := by
  constructor
  · rintro ⟨c, rfl⟩
    cases c <;> decide
  · intro h
    have hall : ∀ k < 5, ∃ c ∈ all, c.number = UInt8.ofNat k := by decide
    obtain ⟨c, -, hc⟩ := hall n.toNat (Nat.lt_succ_of_le (UInt8.le_iff_toNat_le.1 h))
    exact ⟨c, by rw [hc, UInt8.ofNat_toNat]⟩

end Command

namespace Message

/-! ### Fields -/

/-- The field spells the byte: in digits, with a plus sign in front or without. -/
def Spells (field : List Char) (n : UInt8) : Prop :=
  ∃ ds, (field = ds ∨ field = '+' :: ds) ∧ Decimal.Digits ds n.toNat

theorem natUpTo?_field_iff {field : List Char} {k : Nat} :
    Decimal.natUpTo? 255 (String.ofList field) = some k ↔ ∃ n : UInt8, n.toNat = k ∧ Spells field n := by
  rw [Decimal.natUpTo?_eq_some_iff, String.toList_ofList]
  constructor
  · rintro ⟨⟨ds, hfield, hds⟩, hk⟩
    have hn : (UInt8.ofNat k).toNat = k := UInt8.toNat_ofNat_of_lt' (Nat.lt_succ_of_le hk)
    exact ⟨.ofNat k, hn, ds, hfield, hn.symm ▸ hds⟩
  · rintro ⟨n, rfl, ds, hfield, hds⟩
    exact ⟨⟨ds, hfield, hds⟩, Nat.le_of_lt_succ n.toNat_lt⟩

/-- The fields that are left. -/
def fields : Rest → List (List Char)
  | none => []
  | some cs => cs.splitOn ';'

theorem intercalate_fields (rest : Rest) : [';'].intercalate (fields rest) = rest.getD [] := by
  cases rest with
  | none => rfl
  | some cs => exact List.intercalate_splitOn ';'

theorem fields_some (cs : List Char) : fields (some cs) = (splitField cs).1 :: fields (splitField cs).2 := by
  by_cases h : ';' ∈ cs
  · obtain ⟨field, rest, rfl, hfield⟩ := List.eq_append_cons_of_mem h
    rw [splitField_append hfield]
    exact List.splitOn_append_cons_self_of_not_mem hfield rest
  · have hall : ∀ c ∈ cs, (c != ';') = true := fun c hc => bne_iff_ne.2 fun heq => h (heq ▸ hc)
    have hfield : splitField cs = (cs, none) := by
      rw [splitField, List.takeWhile_eq_self_iff.2 hall, List.dropWhile_eq_nil_iff.2 hall]
      rfl
    rw [hfield]
    exact List.splitOn_eq_singleton h

theorem of_byte? {rest rest' : Rest} {n : UInt8} (h : byte? rest = some (n, rest')) :
    ∃ field, fields rest = field :: fields rest' ∧ Spells field n := by
  cases rest with
  | none => cases h
  | some cs =>
    simp only [byte?, Option.bind_eq_bind, Option.bind_some, Option.bind_eq_some_iff, Option.pure_def,
      Option.some.injEq, Prod.mk.injEq, natUpTo?_field_iff] at h
    obtain ⟨_, ⟨n, rfl, hfield⟩, rfl, rfl⟩ := h
    exact ⟨_, fields_some cs, UInt8.ofNat_toNat.symm ▸ hfield⟩

theorem exists_byte? {rest : Rest} {field : List Char} {more : List (List Char)} {n : UInt8}
    (h : fields rest = field :: more) (hfield : Spells field n) :
    ∃ rest', byte? rest = some (n, rest') ∧ fields rest' = more := by
  cases rest with
  | none => cases h
  | some cs =>
    rw [fields_some] at h
    obtain ⟨rfl, hmore⟩ := List.cons.inj h
    refine ⟨_, ?_, hmore⟩
    simp only [byte?, Option.bind_eq_bind, Option.bind_some, Option.pure_def,
      natUpTo?_field_iff.2 ⟨n, rfl, hfield⟩, UInt8.ofNat_toNat]

/-! ### Lines -/

/-- What the fields of a line say. -/
inductive Says : List (List Char) → Message → Prop where
  | mk {f₁ f₂ f₃ f₄ f₅ : List Char} {nodeId childId ack type : UInt8} {command : Command}
    (node : Spells f₁ nodeId) (child : Spells f₂ childId) (kind : Spells f₃ command.number)
    (wanted : Spells f₄ ack) (valueType : Spells f₅ type) (payload : List (List Char)) :
    Says (f₁ :: f₂ :: f₃ :: f₄ :: f₅ :: payload)
      ⟨nodeId, childId, command, ack ≠ 0, type, String.ofList ([';'].intercalate payload)⟩

theorem says_of_parse {s : String} {m : Message} (h : parse s = .ok m) :
    Says ((withoutBreaks s.toList).splitOn ';') m := by
  simp only [parse, bind, Except.bind] at h
  -- a part that is not read makes the line fail
  rcases h₁ : byte? (some (withoutBreaks s.toList)) with _ | ⟨nodeId, r₁⟩
  · simp only [h₁, reduceCtorEq] at h
  rcases h₂ : byte? r₁ with _ | ⟨childId, r₂⟩
  · simp only [h₁, h₂, reduceCtorEq] at h
  rcases h₃ : byte? r₂ with _ | ⟨number, r₃⟩
  · simp only [h₁, h₂, h₃, reduceCtorEq] at h
  rcases hcommand : Command.ofNumber number with _ | command
  · simp only [h₁, h₂, h₃, hcommand, reduceCtorEq] at h
  rcases h₄ : byte? r₃ with _ | ⟨ack, r₄⟩
  · simp only [h₁, h₂, h₃, hcommand, h₄, reduceCtorEq] at h
  rcases h₅ : byte? r₄ with _ | ⟨type, r₅⟩
  · simp only [h₁, h₂, h₃, hcommand, h₄, h₅, reduceCtorEq] at h
  simp only [h₁, h₂, h₃, hcommand, h₄, h₅] at h
  obtain rfl := Except.ok.inj h
  obtain ⟨f₁, hf₁, hnode⟩ := of_byte? h₁
  obtain ⟨f₂, hf₂, hchild⟩ := of_byte? h₂
  obtain ⟨f₃, hf₃, hkind⟩ := of_byte? h₃
  obtain ⟨f₄, hf₄, hwanted⟩ := of_byte? h₄
  obtain ⟨f₅, hf₅, htype⟩ := of_byte? h₅
  obtain rfl := Command.ofNumber_eq_ok_iff.1 hcommand
  have hline : (withoutBreaks s.toList).splitOn ';' = f₁ :: f₂ :: f₃ :: f₄ :: f₅ :: fields r₅ := by
    rw [← hf₅, ← hf₄, ← hf₃, ← hf₂, ← hf₁]
    rfl
  rw [hline, ← intercalate_fields]
  exact .mk hnode hchild hkind hwanted htype _

theorem parse_of_says {s : String} {m : Message} (h : Says ((withoutBreaks s.toList).splitOn ';') m) :
    parse s = .ok m := by
  have hsplit : fields (some (withoutBreaks s.toList)) = (withoutBreaks s.toList).splitOn ';' := rfl
  generalize (withoutBreaks s.toList).splitOn ';' = fs at h hsplit
  cases h with
  | mk hnode hchild hkind hwanted htype payload =>
    obtain ⟨r₁, h₁, hr₁⟩ := exists_byte? hsplit hnode
    obtain ⟨r₂, h₂, hr₂⟩ := exists_byte? hr₁ hchild
    obtain ⟨r₃, h₃, hr₃⟩ := exists_byte? hr₂ hkind
    obtain ⟨r₄, h₄, hr₄⟩ := exists_byte? hr₃ hwanted
    obtain ⟨r₅, h₅, rfl⟩ := exists_byte? hr₄ htype
    simp only [parse, bind, Except.bind, h₁, h₂, h₃, h₄, h₅, Command.ofNumber_number, pure, Except.pure,
      intercalate_fields]

theorem parse_eq_ok_iff {s : String} {m : Message} :
    parse s = .ok m ↔ Says ((withoutBreaks s.toList).splitOn ';') m :=
  ⟨says_of_parse, parse_of_says⟩

/-- What the fields say is said by some message exactly if the third names a command. -/
theorem exists_says_iff {fs : List (List Char)} : (∃ m, Says fs m) ↔
    5 ≤ fs.length ∧ (∀ f ∈ fs.take 5, ∃ n, Spells f n) ∧ ∃ f ∈ fs[2]?, ∃ n ≤ 4, Spells f n := by
  constructor
  · rintro ⟨_, ⟨hnode, hchild, hkind, hwanted, htype, payload⟩⟩
    refine ⟨by simp, ?_, _, rfl, _, Command.exists_number_iff.1 ⟨_, rfl⟩, hkind⟩
    rintro f hf
    simp only [List.take_succ_cons, List.take_zero, List.mem_cons, List.not_mem_nil, or_false] at hf
    rcases hf with rfl | rfl | rfl | rfl | rfl
    exacts [⟨_, hnode⟩, ⟨_, hchild⟩, ⟨_, hkind⟩, ⟨_, hwanted⟩, ⟨_, htype⟩]
  · rintro ⟨hlength, hbytes, f, hf, n, hn, hkind⟩
    match fs, hlength with
    | f₁ :: f₂ :: f₃ :: f₄ :: f₅ :: payload, _ =>
      cases hf
      obtain ⟨command, rfl⟩ := Command.exists_number_iff.2 hn
      obtain ⟨_, hnode⟩ := hbytes f₁ (by simp)
      obtain ⟨_, hchild⟩ := hbytes f₂ (by simp)
      obtain ⟨_, hwanted⟩ := hbytes f₄ (by simp)
      obtain ⟨_, htype⟩ := hbytes f₅ (by simp)
      exact ⟨_, .mk hnode hchild hkind hwanted htype payload⟩

/-! ### Messages that were read -/

theorem withoutBreaks_eq_rdropWhile (cs : List Char) :
    withoutBreaks cs = cs.rdropWhile fun c => c == '\r' || c == '\n' := rfl

theorem intercalate_suffix_cons (f : List Char) (fs : List (List Char)) :
    [';'].intercalate fs <:+ [';'].intercalate (f :: fs) := by
  cases fs with
  | nil => exact List.nil_suffix
  | cons g fs =>
    rw [List.intercalate_cons_cons]
    exact List.suffix_append _ _

theorem Says.payload_suffix {fs : List (List Char)} {m : Message} (h : Says fs m) :
    m.payload.toList <:+ [';'].intercalate fs := by
  cases h
  rw [String.toList_ofList]
  have hcons := intercalate_suffix_cons
  exact (hcons _ _).trans ((hcons _ _).trans ((hcons _ _).trans ((hcons _ _).trans (hcons _ _))))

/-- A payload that was read keeps all of its characters when it is read again. -/
theorem withoutBreaks_payload {s : String} {m : Message} (h : parse s = .ok m) :
    withoutBreaks m.payload.toList = m.payload.toList := by
  have hsuffix := (says_of_parse h).payload_suffix
  rw [List.intercalate_splitOn] at hsuffix
  have hline : ∀ c ∈ (withoutBreaks s.toList).getLast?, (c == '\r' || c == '\n') = false :=
    withoutBreaks_eq_self_iff.1 (List.rdropWhile_idempotent _ _)
  refine withoutBreaks_eq_self_iff.2 fun c hc => hline c ?_
  obtain ⟨before, hbefore⟩ := hsuffix
  rw [← hbefore, List.getLast?_append, Option.mem_def.1 hc]
  rfl

theorem parse_encode_of_withoutBreaks {m : Message} (h : withoutBreaks m.payload.toList = m.payload.toList) :
    parse m.encode = .ok m := by
  rw [parse_encode, h, String.ofList_toList]

/-- A line is a message exactly if, without the breaks at its end, it has five fields that spell bytes, the
third one a byte up to four. A message whose payload ends in no break is read back from its line, and so is
every message that was read. -/
theorem line_codec :
    (∀ s, (∃ m, parse s = .ok m) ↔
      let fs := (s.toList.rdropWhile fun c => c == '\r' || c == '\n').splitOn ';'
      5 ≤ fs.length ∧ (∀ f ∈ fs.take 5, ∃ n, Spells f n) ∧ ∃ f ∈ fs[2]?, ∃ n ≤ 4, Spells f n) ∧
    (∀ m : Message, (∀ c ∈ m.payload.toList.getLast?, c ≠ '\r' ∧ c ≠ '\n') → parse m.encode = .ok m) ∧
    ∀ s m, parse s = .ok m → parse m.encode = .ok m := by
  refine ⟨fun s => ?_, fun m h => ?_, fun s m h => ?_⟩
  · simp only [parse_eq_ok_iff, withoutBreaks_eq_rdropWhile]
    exact exists_says_iff
  · refine parse_encode_of_withoutBreaks (withoutBreaks_eq_self_iff.2 fun c hc => ?_)
    obtain ⟨hreturn, hnewline⟩ := h c hc
    rw [beq_false_of_ne hreturn, beq_false_of_ne hnewline, Bool.or_false]
  · exact parse_encode_of_withoutBreaks (withoutBreaks_payload h)

theorem line_codec_respelled :
    let m : Message := ⟨1, 7, .set, true, 49, "40.7,-73.9;12"⟩
    parse "+1;007;1;2;49;40.7,-73.9;12\r\n" = .ok m ∧ m.encode = "1;7;1;1;49;40.7,-73.9;12\n" ∧
      parse m.encode = .ok m := by
  intro m
  have hread : parse "+1;007;1;2;49;40.7,-73.9;12\r\n" = .ok m := by decide +kernel
  exact ⟨hread, by decide +kernel, line_codec.2.2 _ m hread⟩

end Message

end HomeHub.MySensors
