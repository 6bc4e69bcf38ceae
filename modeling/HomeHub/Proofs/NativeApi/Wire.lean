import HomeHub.NativeApi.Wire
import HomeHub.Proofs.NativeApi.Varint
import HomeHub.Proofs.Results

/-!
# The grammar of a payload

A `Spelling` is a field as written: the key, and the content that its kind announces. `fields` accepts
the bytes of any fields written one after another and nothing else, and what it gives is what they say:
`fields_eq_ok_iff`. As no spelling begins another one, there is one way only to take a payload apart.

`Sliced.fields` is the same walk where every slice is checked: it never asks for bytes beyond the end.
-/

namespace HomeHub.NativeApi.Wire

/-- The value of a field as written. -/
inductive Content where
  | varint (n : Varint.Spelling)
  | fixed64 (content : List UInt8) (wide : content.length = 8)
  | bytes (length : Varint.Spelling) (content : List UInt8) (wide : length.number = content.length)
  | fixed32 (content : List UInt8) (wide : content.length = 4)

namespace Content

def kind : Content → Nat
  | varint _ => 0
  | fixed64 .. => 1
  | bytes .. => 2
  | fixed32 .. => 5

def written : Content → List UInt8
  | varint n => n.bytes
  | fixed64 content _ => content
  | bytes length content _ => length.bytes ++ content
  | fixed32 content _ => content

def value : Content → Value
  | varint n => .varint n.number
  | bytes _ content _ => .bytes content
  | fixed64 .. | fixed32 .. => .fixed

end Content

/-- A field as written. -/
@[ext] structure Spelling where
  key : Varint.Spelling
  content : Content
  kind : key.number % 8 = content.kind
  small : key.number / 8 < 0x100000000

namespace Spelling

def bytes (s : Spelling) : List UInt8 := s.key.bytes ++ s.content.written

def field (s : Spelling) : Field := ⟨s.key.number / 8, s.content.value⟩

/-- Fields written one after another. -/
def join (ss : List Spelling) : List UInt8 := ss.flatMap bytes

@[simp] theorem join_cons (s : Spelling) (ss : List Spelling) : join (s :: ss) = s.bytes ++ join ss :=
  List.flatMap_cons

@[simp] theorem join_append (ss ts : List Spelling) : join (ss ++ ts) = join ss ++ join ts :=
  List.flatMap_append

end Spelling

/-! ### One field -/

theorem varint_bytes (s : Varint.Spelling) (r : List UInt8) :
    varint (s.bytes ++ r) = .ok (s.number, r) := by
  simp [varint, Varint.decode?_bytes]

theorem exists_of_varint {bytes r : List UInt8} {n : Nat} (h : varint bytes = .ok (n, r)) :
    ∃ s : Varint.Spelling, bytes = s.bytes ++ r ∧ s.number = n := by
  unfold varint at h
  split at h
  · next m used hdecode =>
    obtain ⟨s, rest, rfl, rfl, rfl⟩ := Varint.decode?_eq_some_iff.1 hdecode
    rw [List.drop_left, Except.ok.injEq, Prod.mk.injEq] at h
    obtain ⟨rfl, rfl⟩ := h
    exact ⟨s, rfl, rfl⟩
  · cases h

theorem skip_append {content : List UInt8} (fault : Malformed) (r : List UInt8) :
    skip content.length fault (content ++ r) = .ok r := by
  simp [skip]

theorem exists_of_skip {count : Nat} {fault : Malformed} {bytes r : List UInt8}
    (h : skip count fault bytes = .ok r) :
    ∃ content, bytes = content ++ r ∧ content.length = count := by
  unfold skip at h
  split at h
  · cases h
  · next henough =>
    cases h
    exact ⟨bytes.take count, (List.take_append_drop count bytes).symm, by simp; omega⟩

theorem value_written (c : Content) (r : List UInt8) :
    value c.kind (c.written ++ r) = .ok (c.value, r) := by
  cases c with
  | varint n => simp only [Content.kind, Content.written, value, varint_bytes]; rfl
  | fixed64 content wide =>
    simp only [Content.kind, Content.written, value, ← wide, skip_append]; rfl
  | bytes length content wide =>
    simp only [Content.kind, Content.written, value, List.append_assoc, varint_bytes, bind,
      Except.bind, wide]
    simp [Content.value, pure, Except.pure]
  | fixed32 content wide =>
    simp only [Content.kind, Content.written, value, ← wide, skip_append]; rfl

theorem exists_of_value {kind : Nat} {bytes r : List UInt8} {v : Value}
    (h : value kind bytes = .ok (v, r)) :
    ∃ c : Content, c.kind = kind ∧ bytes = c.written ++ r ∧ c.value = v := by
  unfold value at h
  split at h
  · obtain ⟨⟨n, rest⟩, hread, hvalue⟩ := exists_of_map h
    cases hvalue
    obtain ⟨s, hs, rfl⟩ := exists_of_varint hread
    exact ⟨.varint s, rfl, hs, rfl⟩
  · obtain ⟨rest, hread, hvalue⟩ := exists_of_map h
    cases hvalue
    obtain ⟨content, hcontent, wide⟩ := exists_of_skip hread
    exact ⟨.fixed64 content wide, rfl, hcontent, rfl⟩
  · obtain ⟨⟨length, rest⟩, hread, hvalue⟩ := exists_of_bind h
    obtain ⟨s, rfl, rfl⟩ := exists_of_varint hread
    dsimp only at hvalue
    split at hvalue
    · cases hvalue
    · next henough =>
      cases hvalue
      have wide : s.number = (rest.take s.number).length := by simp; omega
      refine ⟨.bytes s (rest.take s.number) wide, rfl, ?_, rfl⟩
      rw [Content.written, List.append_assoc, List.take_append_drop]
  · obtain ⟨rest, hread, hvalue⟩ := exists_of_map h
    cases hvalue
    obtain ⟨content, hcontent, wide⟩ := exists_of_skip hread
    exact ⟨.fixed32 content wide, rfl, hcontent, rfl⟩
  · cases h

theorem field_bytes (s : Spelling) (r : List UInt8) : field (s.bytes ++ r) = .ok (s.field, r) := by
  have hsmall : ¬ 0x100000000 ≤ s.key.number / 8 := Nat.not_le_of_lt s.small
  simp only [field, Spelling.bytes, List.append_assoc, varint_bytes, bind, Except.bind, hsmall,
    s.kind, value_written]
  rfl

theorem exists_of_field {bytes r : List UInt8} {f : Field} (h : field bytes = .ok (f, r)) :
    ∃ s : Spelling, bytes = s.bytes ++ r ∧ s.field = f := by
  obtain ⟨⟨key, rest⟩, hkey, h⟩ := exists_of_bind h
  obtain ⟨k, rfl, rfl⟩ := exists_of_varint hkey
  dsimp only at h
  split at h
  · cases h
  · next hsmall =>
    obtain ⟨⟨v, rest'⟩, hvalue, hfield⟩ := exists_of_bind h
    cases hfield
    obtain ⟨c, hkind, rfl, rfl⟩ := exists_of_value hvalue
    exact ⟨⟨k, c, hkind.symm, Nat.lt_of_not_le hsmall⟩, (List.append_assoc ..).symm, rfl⟩

/-! ### All fields -/

theorem fields_of_field {bytes r : List UInt8} {f : Field} (h : field bytes = .ok (f, r)) :
    fields bytes = (fields r).map (f :: ·) := by
  cases bytes with
  | nil => cases h
  | cons b bytes =>
    rw [fields]
    split
    · next hfault => rw [h] at hfault; cases hfault
    · next hfield =>
      rw [h] at hfield
      cases hfield
      rfl

/-- Fields that were written are read, whatever follows them. -/
theorem fields_join_append (ss : List Spelling) (r : List UInt8) :
    fields (Spelling.join ss ++ r) = (fields r).map (ss.map Spelling.field ++ ·) := by
  induction ss with
  | nil =>
    show fields r = (fields r).map id
    cases fields r <;> rfl
  | cons s ss ih =>
    rw [Spelling.join_cons, List.append_assoc, fields_of_field (field_bytes s _), ih]
    cases fields r <;> rfl

theorem fields_join (ss : List Spelling) :
    fields (Spelling.join ss) = .ok (ss.map Spelling.field) := by
  have happend := fields_join_append ss []
  rw [List.append_nil, fields] at happend
  rw [happend, Except.map, List.append_nil]

theorem fields_eq_ok_iff {p : List UInt8} {fs : List Field} : fields p = .ok fs ↔
    ∃ ss : List Spelling, Spelling.join ss = p ∧ ss.map Spelling.field = fs := by
  constructor
  · intro h
    fun_induction fields p generalizing fs with
    | case1 => cases h; exact ⟨[], rfl, rfl⟩
    | case2 => cases h
    | case3 b bytes f r hfield _ ih =>
      obtain ⟨gs, hrest, rfl⟩ := exists_of_map h
      obtain ⟨s, hs, rfl⟩ := exists_of_field hfield
      obtain ⟨ss, rfl, rfl⟩ := ih hrest
      exact ⟨s :: ss, hs.symm, rfl⟩
  · rintro ⟨ss, rfl, rfl⟩
    exact fields_join ss

/-- A payload that can be taken apart ends at the end of a field. -/
theorem fields_append {p : List UInt8} {fs : List Field} (h : fields p = .ok fs) (q : List UInt8) :
    fields (p ++ q) = (fields q).map (fs ++ ·) := by
  obtain ⟨ss, rfl, rfl⟩ := fields_eq_ok_iff.1 h
  exact fields_join_append ss q

/-! ### One way to take it apart -/

theorem Content.append_inj {c c' : Content} {r r' : List UInt8} (hkind : c.kind = c'.kind)
    (h : c.written ++ r = c'.written ++ r') : c = c' ∧ r = r' := by
  -- contents of different kinds need not be compared: their keys differ
  cases c <;> cases c' <;> cases hkind
  case varint.varint n n' =>
    obtain ⟨rfl, rfl⟩ := Varint.Spelling.append_inj h
    exact ⟨rfl, rfl⟩
  case fixed64.fixed64 content wide content' wide' =>
    obtain ⟨rfl, rfl⟩ := List.append_inj h (wide.trans wide'.symm)
    exact ⟨rfl, rfl⟩
  case bytes.bytes length content wide length' content' wide' =>
    simp only [written, List.append_assoc] at h
    obtain ⟨rfl, hrest⟩ := Varint.Spelling.append_inj h
    obtain ⟨rfl, rfl⟩ := List.append_inj hrest (wide.symm.trans wide')
    exact ⟨rfl, rfl⟩
  case fixed32.fixed32 content wide content' wide' =>
    obtain ⟨rfl, rfl⟩ := List.append_inj h (wide.trans wide'.symm)
    exact ⟨rfl, rfl⟩

theorem Spelling.append_inj {s s' : Spelling} {r r' : List UInt8}
    (h : s.bytes ++ r = s'.bytes ++ r') : s = s' ∧ r = r' := by
  simp only [bytes, List.append_assoc] at h
  obtain ⟨hkey, hrest⟩ := Varint.Spelling.append_inj h
  have hkind : s.content.kind = s'.content.kind := by rw [← s.kind, ← s'.kind, hkey]
  obtain ⟨hcontent, rfl⟩ := Content.append_inj hkind hrest
  exact ⟨Spelling.ext hkey hcontent, rfl⟩

theorem Spelling.bytes_ne_nil (s : Spelling) : s.bytes ≠ [] := by
  simp [bytes, Varint.Spelling.bytes]

theorem Spelling.join_injective {ss ts : List Spelling} (h : join ss = join ts) : ss = ts := by
  induction ss generalizing ts with
  | nil =>
    cases ts with
    | nil => rfl
    | cons t ts => exact absurd (List.append_eq_nil_iff.1 h.symm).1 t.bytes_ne_nil
  | cons s ss ih =>
    cases ts with
    | nil => exact absurd (List.append_eq_nil_iff.1 h).1 s.bytes_ne_nil
    | cons t ts =>
      rw [join_cons, join_cons] at h
      obtain ⟨rfl, hrest⟩ := append_inj h
      rw [ih hrest]

/-! ### The walk by slices -/

/-- The bytes from a position on; none if it lies beyond their end. -/
def slice? (start : Nat) (bytes : List UInt8) : Option (List UInt8) :=
  if start ≤ bytes.length then some (bytes.drop start) else none

/-- The bytes up to a position and from it on; none if it lies beyond their end. -/
def split? (position : Nat) (bytes : List UInt8) : Option (List UInt8 × List UInt8) :=
  if position ≤ bytes.length then some (bytes.splitAt position) else none

namespace Sliced

/-- A walk that may find its bytes malformed, or be none because it asked for bytes beyond the end. -/
abbrev Walk (α : Type) := ExceptT Malformed Option α

def varint (bytes : List UInt8) : Walk (Nat × List UInt8) :=
  match Varint.decode? bytes with
  | some (n, used) => do return (n, ← slice? used bytes)
  | none => throw .truncatedVarint

/-- A slice that the walk itself checks. -/
def skip (count : Nat) (fault : Malformed) (bytes : List UInt8) : Walk (List UInt8) :=
  match slice? count bytes with
  | some r => return r
  | none => throw fault

def value (kind : Nat) (bytes : List UInt8) : Walk (Value × List UInt8) :=
  match kind with
  | 0 => do
    let (n, r) ← varint bytes
    return (.varint n, r)
  | 1 => do return (.fixed, ← skip 8 .truncatedFixed64 bytes)
  | 2 => do
    let (length, r) ← varint bytes
    if r.length < length then throw .overrun
    let (content, r) ← split? length r
    return (.bytes content, r)
  | 5 => do return (.fixed, ← skip 4 .truncatedFixed32 bytes)
  | _ => throw .wireType

def field (bytes : List UInt8) : Walk (Field × List UInt8) := do
  let (key, r) ← varint bytes
  if 0x100000000 ≤ key / 8 then throw .fieldNumber
  let (value, r) ← value (key % 8) r
  return (⟨key / 8, value⟩, r)

/-- The walk never asks for bytes beyond the end, and comes to this. -/
def Stays {α : Type} (walk : Walk α) (r : Except Malformed α) : Prop := walk.run = some r

theorem Stays.bind {α β : Type} {walk : Walk α} {r : Except Malformed α} {next : α → Walk β}
    {next' : α → Except Malformed β} (h : Stays walk r)
    (hnext : ∀ x, r = .ok x → Stays (next x) (next' x)) : Stays (walk >>= next) (r >>= next') := by
  cases r with
  | error fault =>
    rw [Stays, ExceptT.run_bind, h]
    rfl
  | ok x =>
    rw [Stays, ExceptT.run_bind, h]
    exact hnext x rfl

theorem Stays.map {α β : Type} {walk : Walk α} {r : Except Malformed α} (h : Stays walk r)
    (g : α → β) : Stays (walk >>= fun x => pure (g x)) (r.map g) := by
  have hnext : ∀ x, r = .ok x → Stays (pure (g x)) (.ok (g x)) := fun x _ => rfl
  have hbind := h.bind hnext
  cases r <;> exact hbind

theorem slice?_of_le {start : Nat} {bytes : List UInt8} (h : start ≤ bytes.length) :
    slice? start bytes = some (bytes.drop start) := if_pos h

/-- Reading a number takes no more bytes than there are. -/
theorem stays_varint (bytes : List UInt8) : Stays (varint bytes) (Wire.varint bytes) := by
  unfold Stays varint Wire.varint
  cases hdecode : Varint.decode? bytes with
  | none => rfl
  | some p =>
    obtain ⟨s, rest, rfl, -, hused⟩ := Varint.decode?_eq_some_iff.1 hdecode
    have hslice : slice? p.2 (s.bytes ++ rest) = some ((s.bytes ++ rest).drop p.2) :=
      slice?_of_le (by rw [hused, List.length_append]; exact Nat.le_add_right _ _)
    simp only [hslice]
    rfl

theorem stays_skip (count : Nat) (fault : Malformed) (bytes : List UInt8) :
    Stays (skip count fault bytes) (Wire.skip count fault bytes) := by
  unfold Stays skip Wire.skip slice?
  by_cases h : count ≤ bytes.length
  · rw [if_pos h, if_neg (Nat.not_lt.2 h)]
    rfl
  · rw [if_neg h, if_pos (Nat.lt_of_not_le h)]
    rfl

theorem stays_value : ∀ (kind : Nat) (bytes : List UInt8),
    Stays (value kind bytes) (Wire.value kind bytes)
  | 0, bytes => (stays_varint bytes).map _
  | 1, bytes => (stays_skip 8 _ bytes).map _
  | 2, bytes => by
    refine (stays_varint bytes).bind fun p _ => ?_
    obtain ⟨length, r⟩ := p
    by_cases h : r.length < length
    · simp only [if_pos h]
      rfl
    · have hsplit : split? length r = some (r.splitAt length) := if_pos (Nat.not_lt.1 h)
      simp only [if_neg h, hsplit, List.splitAt_eq]
      rfl
  | 5, bytes => (stays_skip 4 _ bytes).map _
  | 3, _ | 4, _ | _ + 6, _ => rfl

theorem stays_field (bytes : List UInt8) : Stays (field bytes) (Wire.field bytes) := by
  refine (stays_varint bytes).bind fun p _ => ?_
  obtain ⟨key, r⟩ := p
  by_cases h : 0x100000000 ≤ key / 8
  · simp only [if_pos h]
    rfl
  · simp only [if_neg h]
    exact (stays_value (key % 8) r).bind fun q _ => rfl

def fields (payload : List UInt8) : Walk (List Field) :=
  match payload with
  | [] => return []
  | b :: bytes =>
    match h : (field (b :: bytes)).run with
    | none => .mk none
    | some (.error fault) => throw fault
    | some (.ok (f, r)) =>
      have : r.length < (b :: bytes).length :=
        field_shorter (Option.some.inj ((stays_field _).symm.trans h))
      do return f :: (← fields r)
termination_by payload.length
decreasing_by exact this

theorem stays_fields (payload : List UInt8) : Stays (fields payload) (Wire.fields payload) := by
  fun_induction Wire.fields payload with
  | case1 => rw [fields]; rfl
  | case2 b bytes fault h =>
    have hfield := stays_field (b :: bytes)
    rw [h] at hfield
    rw [fields]
    split
    · next hnone => cases hfield.symm.trans hnone
    · next hfault => cases hfield.symm.trans hfault; rfl
    · next hok => cases hfield.symm.trans hok
  | case3 b bytes f r h _ ih =>
    have hfield := stays_field (b :: bytes)
    rw [h] at hfield
    rw [fields]
    split
    · next hnone => cases hfield.symm.trans hnone
    · next hfault => cases hfield.symm.trans hfault
    · next hok =>
      cases hfield.symm.trans hok
      exact ih.map _

end Sliced

/-- The walk accepts exactly the bytes of fields written one after another, for which it gives these
fields; no payload can be taken apart in two ways; no slice of the walk lies out of bounds; and after
a payload that can be taken apart the walk goes on as if it began there. -/
theorem fields_grammar (p : List UInt8) :
    (∀ fs, fields p = .ok fs ↔ ∃ ss, Spelling.join ss = p ∧ ss.map Spelling.field = fs) ∧
      (∀ ss ts, Spelling.join ss = p → Spelling.join ts = p → ss = ts) ∧
      (Sliced.fields p).run = some (fields p) ∧
      ∀ fs q, fields p = .ok fs → fields (p ++ q) = (fields q).map (fs ++ ·) :=
  ⟨fun _ => fields_eq_ok_iff, fun _ _ hss hts => Spelling.join_injective (hss.trans hts.symm),
    Sliced.stays_fields p, fun _ q h => fields_append h q⟩

/-- A text and a field of fixed width; and a text after them that is longer than the bytes left. -/
theorem fields_grammar_of_overrun :
    fields [10, 1, 120, 165, 1, 1, 2, 3, 4] = .ok [⟨1, .bytes [120]⟩, ⟨20, .fixed⟩] ∧
      fields ([10, 1, 120, 165, 1, 1, 2, 3, 4] ++ [26, 5, 97]) = .error .overrun := by
  have hread : fields [10, 1, 120, 165, 1, 1, 2, 3, 4] =
      .ok [⟨1, .bytes [120]⟩, ⟨20, .fixed⟩] := by cbv
  have htail : fields [26, 5, 97] = .error .overrun := by cbv
  obtain ⟨-, -, -, happend⟩ := fields_grammar [10, 1, 120, 165, 1, 1, 2, 3, 4]
  refine ⟨hread, ?_⟩
  rw [happend _ [26, 5, 97] hread, htail]
  rfl

end HomeHub.NativeApi.Wire
