import HomeHub.NativeApi.Message
import HomeHub.Proofs.NativeApi.Wire
import HomeHub.Proofs.Text.Utf8

/-!
# Messages read back

`Message.fields` lists what a message writes: a field for each value that is not the default one. Taken
in by any message of the kind they set these values and leave the others, `foldlM_fields`. From this it
follows what a payload is read as: a message for its own payload, also among fields it does not know,
and for two payloads in a row the first message with the values of the second one.
-/

namespace HomeHub.NativeApi

/-! ### Fields that are written -/

namespace Wire

namespace Value

def ofText (s : String) : Value := .bytes (Utf8.bytes s)

def ofUint32 (n : UInt32) : Value := .varint n.toNat

def ofBool (b : Bool) : Value := .varint b.toNat

@[simp] theorem text_ofText (s : String) : (ofText s).text = .ok s := by
  simp only [ofText, text, Utf8.strict?_bytes]

@[simp] theorem uint32_ofUint32 (n : UInt32) : (ofUint32 n).uint32 = n := by
  have hmin : min n.toNat 0xFFFFFFFF = n.toNat := Nat.min_eq_left (Nat.le_of_lt_succ n.toNat_lt)
  rw [ofUint32, uint32, hmin, UInt32.ofNat_toNat]

@[simp] theorem bool_ofBool (b : Bool) : (ofBool b).bool = b := by
  cases b <;> rfl

end Value

/-- The field of a value, which is left out for the default one. -/
def unlessDefault {α : Type} [Inhabited α] [DecidableEq α] (value : α → Value) (number : Nat) (x : α) :
    List Field :=
  if x = default then [] else [⟨number, value x⟩]

theorem fields_key {number : Nat} (hnumber : number < 0x100000000) (c : Content) :
    fields (key number c.kind ++ c.written) = .ok [⟨number, c.value⟩] := by
  have hkind : c.kind < 8 := by cases c <;> simp [Content.kind]
  obtain ⟨k, hbytes, hk⟩ := Varint.exists_spelling_encode (n := number * 8 + c.kind)
    (Nat.lt_trans (m := 0x100000000 * 8) (by omega) (by decide))
  have hdiv : k.number / 8 = number := by rw [hk]; omega
  have hmod : k.number % 8 = c.kind := by rw [hk]; omega
  let s : Spelling := ⟨k, c, hmod, hdiv.symm ▸ hnumber⟩
  have hs : s.bytes = key number c.kind ++ c.written := by rw [Spelling.bytes, hbytes]; rfl
  have hfield : s.field = ⟨number, c.value⟩ := by rw [Spelling.field, hdiv]
  have hread := fields_join [s]
  rwa [Spelling.join, List.flatMap_singleton, hs, List.map_singleton, hfield] at hread

theorem fields_varint {number : Nat} (hnumber : number < 0x100000000) {n : Nat}
    (hn : n < Varint.modulus) :
    fields (key number 0 ++ Varint.encode n) = .ok [⟨number, .varint n⟩] := by
  obtain ⟨s, hbytes, hs⟩ := Varint.exists_spelling_encode hn
  rw [← hbytes, ← hs]
  exact fields_key hnumber (.varint s)

theorem isEmpty_bytes (s : String) : (Utf8.bytes s).isEmpty = true ↔ s = "" := by
  rw [List.isEmpty_iff]
  refine ⟨fun h => ?_, fun h => h ▸ rfl⟩
  have hread := Utf8.strict?_bytes s
  rw [h] at hread
  exact (Option.some.inj hread).symm

theorem fields_text (number : Nat) (hnumber : number < 0x100000000) {s : String}
    (fits : (Utf8.bytes s).length < Varint.modulus) :
    fields (text number s) = .ok (unlessDefault .ofText number s) := by
  by_cases h : s = ""
  · subst h
    exact fields.eq_1
  · obtain ⟨length, hbytes, hlength⟩ := Varint.exists_spelling_encode fits
    have hkey := fields_key hnumber (.bytes length (Utf8.bytes s) hlength)
    rw [Content.written, hbytes, ← List.append_assoc] at hkey
    simp only [text, if_neg (mt (isEmpty_bytes s).1 h)]
    exact hkey.trans (congrArg Except.ok (if_neg h).symm)

theorem fields_uint32 (number : Nat) (hnumber : number < 0x100000000) (n : UInt32) :
    fields (uint32 number n) = .ok (unlessDefault .ofUint32 number n) := by
  by_cases h : n = 0
  · subst h
    exact fields.eq_1
  · have hwritten := fields_varint hnumber (Nat.lt_trans n.toNat_lt (by decide))
    rw [uint32, if_neg h]
    exact hwritten.trans (congrArg Except.ok (if_neg h).symm)

theorem fields_bool (number : Nat) (hnumber : number < 0x100000000) (b : Bool) :
    fields (bool number b) = .ok (unlessDefault .ofBool number b) := by
  cases b with
  | false => exact fields.eq_1
  | true =>
    have hwritten := fields_varint hnumber (n := 1) (by decide)
    rwa [Varint.encode] at hwritten

theorem fields_append_ok {p q : List UInt8} {fs gs : List Field} (hp : fields p = .ok fs)
    (hq : fields q = .ok gs) : fields (p ++ q) = .ok (fs ++ gs) := by
  rw [fields_append hp, hq]
  rfl

end Wire

open Wire (Field unlessDefault fields_text fields_uint32 fields_bool fields_append_ok)

namespace Message

def fields : Message → List Field
  | .helloRequest clientInfo => unlessDefault .ofText 1 clientInfo
  | .helloResponse h =>
    unlessDefault .ofUint32 1 h.major ++ unlessDefault .ofUint32 2 h.minor
      ++ unlessDefault .ofText 3 h.serverInfo ++ unlessDefault .ofText 4 h.name
  | .connectRequest password => unlessDefault .ofText 1 password
  | .connectResponse invalidPassword => unlessDefault .ofBool 1 invalidPassword
  | .deviceInfoResponse d =>
    unlessDefault .ofBool 1 d.usesPassword ++ unlessDefault .ofText 2 d.name
      ++ unlessDefault .ofText 3 d.macAddress ++ unlessDefault .ofText 4 d.version
      ++ unlessDefault .ofText 6 d.model
  | _ => []

def texts : Message → List String
  | .helloRequest clientInfo => [clientInfo]
  | .helloResponse h => [h.serverInfo, h.name]
  | .connectRequest password => [password]
  | .deviceInfoResponse d => [d.name, d.macAddress, d.version, d.model]
  | _ => []

/-- The length of each text is a number of 64 bits. -/
def Fits (m : Message) : Prop := ∀ s ∈ m.texts, (Utf8.bytes s).length < Varint.modulus

instance (m : Message) : Decidable m.Fits :=
  inferInstanceAs (Decidable (∀ s ∈ m.texts, (Utf8.bytes s).length < Varint.modulus))

theorem fields_payload {m : Message} (fits : m.Fits) : Wire.fields m.payload = .ok m.fields := by
  cases m with
  | helloRequest clientInfo => exact fields_text 1 (by decide) (fits _ (by simp [texts]))
  | helloResponse h =>
    have hnumbers := fields_append_ok (fields_uint32 1 (by decide) h.major)
      (fields_uint32 2 (by decide) h.minor)
    have hinfo := fields_text 3 (by decide) (fits h.serverInfo (by simp [texts]))
    have hname := fields_text 4 (by decide) (fits h.name (by simp [texts]))
    exact fields_append_ok (fields_append_ok hnumbers hinfo) hname
  | connectRequest password => exact fields_text 1 (by decide) (fits _ (by simp [texts]))
  | connectResponse invalidPassword => exact fields_bool 1 (by decide) _
  | deviceInfoResponse d =>
    have hflag := fields_bool 1 (by decide) d.usesPassword
    have hname := fields_text 2 (by decide) (fits d.name (by simp [texts]))
    have hmac := fields_text 3 (by decide) (fits d.macAddress (by simp [texts]))
    have hversion := fields_text 4 (by decide) (fits d.version (by simp [texts]))
    have hmodel := fields_text 6 (by decide) (fits d.model (by simp [texts]))
    exact fields_append_ok (fields_append_ok (fields_append_ok (fields_append_ok hflag hname) hmac)
      hversion) hmodel
  | _ => exact Wire.fields.eq_1

/-! ### Taking in fields -/

/-- A value after another one, which stays if the later value is the default. -/
def later {α : Type} [Inhabited α] [DecidableEq α] (old new : α) : α :=
  if new = default then old else new

/-- The values of the second message where they are not the default ones, and those of the first
message elsewhere. -/
def overlay : Message → Message → Message
  | .helloRequest s, .helloRequest t => .helloRequest (later s t)
  | .helloResponse h, .helloResponse g => .helloResponse {
      major := later h.major g.major
      minor := later h.minor g.minor
      serverInfo := later h.serverInfo g.serverInfo
      name := later h.name g.name }
  | .connectRequest s, .connectRequest t => .connectRequest (later s t)
  | .connectResponse a, .connectResponse b => .connectResponse (later a b)
  | .deviceInfoResponse d, .deviceInfoResponse e => .deviceInfoResponse {
      name := later d.name e.name
      usesPassword := later d.usesPassword e.usesPassword
      macAddress := later d.macAddress e.macAddress
      version := later d.version e.version
      model := later d.model e.model }
  | m, _ => m

theorem foldlM_append_ok {m m₁ m₂ : Message} {fs gs : List Field}
    (hfs : fs.foldlM absorb m = .ok m₁) (hgs : gs.foldlM absorb m₁ = .ok m₂) :
    (fs ++ gs).foldlM absorb m = .ok m₂ := by
  rw [List.foldlM_append, hfs]
  exact hgs

/-- A field sets one value of a message, which is `old` before. -/
theorem foldlM_unlessDefault {α : Type} [Inhabited α] [DecidableEq α] {m : Message}
    (value : α → Wire.Value) (number : Nat) (old : α) (set : α → Message) (hold : set old = m)
    (habsorb : ∀ x, m.absorb ⟨number, value x⟩ = .ok (set x)) (x : α) :
    (unlessDefault value number x).foldlM absorb m = .ok (set (later old x)) := by
  unfold unlessDefault later
  by_cases h : x = default
  · rw [if_pos h, if_pos h, hold]
    rfl
  · rw [if_neg h, if_neg h, List.foldlM_cons, habsorb]
    rfl

theorem foldlM_hello (h g : Hello) : (helloResponse g).fields.foldlM absorb (helloResponse h) =
    .ok ((helloResponse h).overlay (helloResponse g)) := by
  let h₁ : Hello := { h with major := later h.major g.major }
  let h₂ : Hello := { h₁ with minor := later h.minor g.minor }
  let h₃ : Hello := { h₂ with serverInfo := later h.serverInfo g.serverInfo }
  have hmajor := foldlM_unlessDefault .ofUint32 1 h.major
    (fun n => helloResponse { h with major := n }) rfl (fun _ => by simp [absorb]) g.major
  have hminor := foldlM_unlessDefault .ofUint32 2 h₁.minor
    (fun n => helloResponse { h₁ with minor := n }) rfl (fun _ => by simp [absorb]) g.minor
  have hinfo := foldlM_unlessDefault .ofText 3 h₂.serverInfo
    (fun s => helloResponse { h₂ with serverInfo := s }) rfl
    (fun _ => by simp [absorb, Except.map]) g.serverInfo
  have hname := foldlM_unlessDefault .ofText 4 h₃.name
    (fun s => helloResponse { h₃ with name := s }) rfl (fun _ => by simp [absorb, Except.map]) g.name
  exact foldlM_append_ok (foldlM_append_ok (foldlM_append_ok hmajor hminor) hinfo) hname

theorem foldlM_deviceInfo (d e : DeviceInfo) :
    (deviceInfoResponse e).fields.foldlM absorb (deviceInfoResponse d) =
      .ok ((deviceInfoResponse d).overlay (deviceInfoResponse e)) := by
  let d₁ : DeviceInfo := { d with usesPassword := later d.usesPassword e.usesPassword }
  let d₂ : DeviceInfo := { d₁ with name := later d.name e.name }
  let d₃ : DeviceInfo := { d₂ with macAddress := later d.macAddress e.macAddress }
  let d₄ : DeviceInfo := { d₃ with version := later d.version e.version }
  have hflag := foldlM_unlessDefault .ofBool 1 d.usesPassword
    (fun b => deviceInfoResponse { d with usesPassword := b }) rfl (fun _ => by simp [absorb])
    e.usesPassword
  have hname := foldlM_unlessDefault .ofText 2 d₁.name
    (fun s => deviceInfoResponse { d₁ with name := s }) rfl (fun _ => by simp [absorb, Except.map])
    e.name
  have hmac := foldlM_unlessDefault .ofText 3 d₂.macAddress
    (fun s => deviceInfoResponse { d₂ with macAddress := s }) rfl
    (fun _ => by simp [absorb, Except.map]) e.macAddress
  have hversion := foldlM_unlessDefault .ofText 4 d₃.version
    (fun s => deviceInfoResponse { d₃ with version := s }) rfl
    (fun _ => by simp [absorb, Except.map]) e.version
  have hmodel := foldlM_unlessDefault .ofText 6 d₄.model
    (fun s => deviceInfoResponse { d₄ with model := s }) rfl
    (fun _ => by simp [absorb, Except.map]) e.model
  exact foldlM_append_ok (foldlM_append_ok (foldlM_append_ok (foldlM_append_ok hflag hname) hmac)
    hversion) hmodel

/-- The fields of a message set its values in another message of its kind. -/
theorem foldlM_fields {m new : Message} (hkind : new.kind = m.kind) :
    new.fields.foldlM absorb m = .ok (m.overlay new) := by
  cases m <;> cases new <;> cases hkind
  case helloRequest.helloRequest s t =>
    exact foldlM_unlessDefault .ofText 1 s .helloRequest rfl (fun _ => by simp [absorb, Except.map]) t
  case helloResponse.helloResponse h g => exact foldlM_hello h g
  case connectRequest.connectRequest s t =>
    exact foldlM_unlessDefault .ofText 1 s .connectRequest rfl
      (fun _ => by simp [absorb, Except.map]) t
  case connectResponse.connectResponse a b =>
    exact foldlM_unlessDefault .ofBool 1 a .connectResponse rfl (fun _ => by simp [absorb]) b
  case deviceInfoResponse.deviceInfoResponse d e => exact foldlM_deviceInfo d e
  all_goals rfl

theorem later_default {α : Type} [Inhabited α] [DecidableEq α] (x : α) : later default x = x := by
  unfold later
  split
  · next h => exact h.symm
  · rfl

@[simp] theorem later_emptyText (s : String) : later "" s = s := later_default s

@[simp] theorem later_zero (n : UInt32) : later 0 n = n := later_default n

@[simp] theorem later_false (b : Bool) : later false b = b := later_default b

theorem overlay_empty (m : Message) : m.kind.empty.overlay m = m := by
  cases m <;> simp [kind, MessageKind.empty, overlay]

/-! ### Fields that are passed over -/

end Message

/-- The numbers of the fields that messages of a kind know. -/
def MessageKind.fieldNumbers : MessageKind → List Nat
  | .helloRequest | .connectRequest | .connectResponse => [1]
  | .helloResponse => [1, 2, 3, 4]
  | .deviceInfoResponse => [1, 2, 3, 4, 6]
  | _ => []

@[simp] theorem MessageKind.kind_empty (k : MessageKind) : k.empty.kind = k := by
  cases k <;> rfl

namespace Message

theorem absorb_unknown {m : Message} {f : Field} (h : f.number ∉ m.kind.fieldNumbers) :
    m.absorb f = .ok m := by
  unfold absorb
  split <;> simp_all [kind, MessageKind.fieldNumbers]

theorem foldlM_unknown {m : Message} {fs : List Field}
    (unknown : ∀ f ∈ fs, f.number ∉ m.kind.fieldNumbers) : fs.foldlM absorb m = .ok m := by
  induction fs with
  | nil => rfl
  | cons f fs ih =>
    obtain ⟨hf, hfs⟩ := List.forall_mem_cons.1 unknown
    rw [List.foldlM_cons, absorb_unknown hf]
    exact ih hfs

theorem kind_of_absorb {m m' : Message} {f : Field} (h : m.absorb f = .ok m') : m'.kind = m.kind := by
  unfold absorb at h
  split at h
  -- a field either sets a value as it is, or a text that may be refused
  all_goals first
    | cases h; rfl
    | obtain ⟨s, -, rfl⟩ := exists_of_map h; rfl

theorem kind_of_foldlM {m m' : Message} {fs : List Field} (h : fs.foldlM absorb m = .ok m') :
    m'.kind = m.kind := by
  induction fs generalizing m with
  | nil => cases h; rfl
  | cons f fs ih =>
    rw [List.foldlM_cons] at h
    obtain ⟨m₁, habsorb, hrest⟩ := exists_of_bind h
    exact (ih hrest).trans (kind_of_absorb habsorb)

end Message

/-! ### Reading -/

namespace MessageKind

open Message (absorb)

/-- A kind without fields, whose payload is not looked at, knows none of the fields in it. -/
theorem decode_of_fields (k : MessageKind) {p : List UInt8} {fs : List Field}
    (h : Wire.fields p = .ok fs) : k.decode p = fs.foldlM absorb k.empty := by
  unfold decode
  by_cases hfields : k.hasFields = true
  · rw [if_pos hfields, h]
    rfl
  · have hunknown : ∀ f ∈ fs, f.number ∉ k.empty.kind.fieldNumbers := by
      cases k <;> simp_all [hasFields, fieldNumbers]
    rw [if_neg hfields, Message.foldlM_unknown hunknown]

end MessageKind

namespace Message

theorem decode_own {m : Message} (fits : m.Fits) : m.kind.decode m.payload = .ok m := by
  rw [m.kind.decode_of_fields (fields_payload fits), foldlM_fields m.kind.kind_empty.symm,
    overlay_empty]

/-- Fields that the kind does not know may stand between any two fields of a payload. -/
theorem decode_insert {k : MessageKind} {before unknown after : List Wire.Spelling}
    (hunknown : ∀ u ∈ unknown, u.field.number ∉ k.fieldNumbers) :
    k.decode (Wire.Spelling.join (before ++ unknown ++ after)) =
      k.decode (Wire.Spelling.join (before ++ after)) := by
  rw [k.decode_of_fields (Wire.fields_join _), k.decode_of_fields (Wire.fields_join _)]
  simp only [List.map_append, List.foldlM_append]
  cases hbefore : (before.map Wire.Spelling.field).foldlM absorb k.empty with
  | error err => rfl
  | ok m =>
    have hkind : m.kind = k := (kind_of_foldlM hbefore).trans k.kind_empty
    have hpassed : (unknown.map Wire.Spelling.field).foldlM absorb m = .ok m := by
      refine foldlM_unknown fun f hf => ?_
      obtain ⟨u, hu, rfl⟩ := List.mem_map.1 hf
      rw [hkind]
      exact hunknown u hu
    simp only [bind, Except.bind, hpassed]

/-- A message is read back from its payload, also if fields that it does not know are put in
between any two fields of it; and a payload after another one replaces the values that it has. -/
theorem decode_payload {m : Message} (fits : m.Fits) :
    m.kind.decode m.payload = .ok m ∧
      (∀ before unknown after : List Wire.Spelling,
        Wire.Spelling.join (before ++ after) = m.payload →
        (∀ u ∈ unknown, u.field.number ∉ m.kind.fieldNumbers) →
        m.kind.decode (Wire.Spelling.join (before ++ unknown ++ after)) = .ok m) ∧
      ∀ new : Message, new.kind = m.kind → new.Fits →
        m.kind.decode (m.payload ++ new.payload) = .ok (m.overlay new) := by
  refine ⟨decode_own fits, fun before unknown after hpayload hunknown => ?_,
    fun new hkind newFits => ?_⟩
  · rw [decode_insert hunknown, hpayload, decode_own fits]
  · have hown := decode_own fits
    rw [m.kind.decode_of_fields (fields_payload fits)] at hown
    rw [m.kind.decode_of_fields (fields_append_ok (fields_payload fits) (fields_payload newFits))]
    exact foldlM_append_ok hown (foldlM_fields hkind)

/-- A field of number 20, which no message knows, with a value of four bytes. -/
def fieldTwenty : Wire.Spelling where
  key := ⟨[165], 1, List.forall_mem_singleton.2 (by decide), by decide, by decide⟩
  content := .fixed32 [1, 2, 3, 4] rfl
  kind := by decide
  small := by decide

/-- A greeting, with a field that it does not know in its midst, and with a second one after it. -/
theorem decode_payload_greeting :
    let greeting : Message := .helloResponse { major := 1, name := "n" }
    MessageKind.helloResponse.decode [8, 1, 34, 1, 110] = .ok greeting ∧
      MessageKind.helloResponse.decode [8, 1, 165, 1, 1, 2, 3, 4, 34, 1, 110] = .ok greeting ∧
      MessageKind.helloResponse.decode [8, 1, 34, 1, 110, 16, 5] =
        .ok (.helloResponse { major := 1, minor := 5, name := "n" }) := by
  intro greeting
  have hpayload : greeting.payload = [8, 1, 34, 1, 110] := by decide +kernel
  have hnew : (helloResponse { minor := 5 }).payload = [16, 5] := by decide +kernel
  have hfits : greeting.Fits := by decide +kernel
  have hnewFits : (helloResponse { minor := 5 }).Fits := by decide +kernel
  obtain ⟨hown, hinsert, hlater⟩ := decode_payload hfits
  let major : Wire.Spelling := ⟨⟨[], 8, nofun, by decide, by decide⟩,
    .varint ⟨[], 1, nofun, by decide, by decide⟩, by decide, by decide⟩
  let name : Wire.Spelling := ⟨⟨[], 34, nofun, by decide, by decide⟩,
    .bytes ⟨[], 1, nofun, by decide, by decide⟩ [110] (by decide), by decide, by decide⟩
  have hamid := hinsert [major] [fieldTwenty] [name] hpayload.symm (by decide)
  have hafter := hlater (.helloResponse { minor := 5 }) rfl hnewFits
  rw [hpayload, hnew] at hafter
  exact ⟨hpayload ▸ hown, hamid, hafter⟩

end Message

end HomeHub.NativeApi
