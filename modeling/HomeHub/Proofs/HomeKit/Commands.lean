import HomeHub.Proofs.HomeKit.Features

/-!
# What a command says

A batch of writes comes to one command for each service that it writes to, and what the command says agrees
with what the light holds after the batch (`commands_agree`). It switches off if the batch left the service
with a zero for whether it is on or for its brightness, and names nothing but the entity then. Otherwise it
carries the brightness if that was written, and one colour at most: of a dual light that of its service,
of any other one that which was written.
-/

namespace HomeHub

namespace ServiceCall

theorem get?_forEntity (domain service entityId key : String) :
    (forEntity domain service entityId).get? key =
      if key = "entity_id" then some (.str entityId) else none :=
  if_congr Std.LawfulEqOrd.compare_eq_iff_eq rfl rfl

/-- A field that is set has that value, and every other one what it had. -/
theorem get?_withField {c : ServiceCall} {members : List (String × Json)} (hdata : c.data = .obj members)
    (key key' : String) (value : Json) :
    (c.withField key value).get? key' = if key' = key then some value else c.get? key' := by
  have hget : c.get? key' = Pairs.get? key' members := by rw [get?, hdata]; rfl
  rw [get?, withField, hdata, hget]
  exact (Pairs.get?_insert ..).trans (if_congr Std.LawfulEqOrd.compare_eq_iff_eq rfl rfl)

end ServiceCall

namespace HomeKit.LightAccessory

variable {l : LightAccessory} {bulb : Bulb} {writes : List (Nat × Int)}

/-! ### What is written -/

/-- A writable characteristic of the service is among the writes. -/
def isTouched (l : LightAccessory) (bulb : Bulb) (writes : List (Nat × Int)) : Bool :=
  (l.accessory.services[bulb.index]?).any fun s =>
    s.characteristics.any fun c => c.kind.isWritable && writes.any (·.1 = c.iid)

def isWritten (l : LightAccessory) (f : Feature) (writes : List (Nat × Int)) : Bool :=
  (l.iid? f).any fun iid => writes.any (·.1 = iid)

/-- What the light holds of a feature that was written. -/
def written? (l : LightAccessory) (f : Feature) (writes : List (Nat × Int)) : Option Int :=
  if l.isWritten f writes then l.value? f else none

theorem isWritable_of_writable? {iid : Nat} {kind : Kind} (h : l.writable? bulb iid = some kind) :
    kind.isWritable = true := by
  obtain ⟨c, -, h⟩ := Option.bind_eq_some_iff.1 h
  split at h
  · next hroute =>
    cases h
    exact (Bool.and_eq_true_iff.1 hroute).1
  · cases h

theorem isTouched_iff (hdistinct : Accessory.Distinct l.accessory.labels) (bulb : Bulb)
    (writes : List (Nat × Int)) : l.isTouched bulb writes = true ↔ l.writesTo bulb writes ≠ [] := by
  have htouched : l.isTouched bulb writes = true ↔ ∃ s ∈ l.accessory.services[bulb.index]?,
      ∃ c ∈ s.characteristics, c.kind.isWritable = true ∧ ∃ w ∈ writes, w.1 = c.iid := by
    simp [isTouched, Option.any_eq_true]
  have hne : l.writesTo bulb writes ≠ [] ↔ ∃ w ∈ writes, ∃ kind, l.writable? bulb w.1 = some kind := by
    simp [writesTo_eq, List.filterMap_eq_nil_iff, Option.ne_none_iff_exists']
  rw [htouched, hne]
  constructor
  · rintro ⟨s, hs, c, hc, hwritable, w, hw, hiid⟩
    exact ⟨w, hw, c.kind, hiid ▸ writable?_of_mem hdistinct hs hc hwritable⟩
  · rintro ⟨w, hw, kind, hkind⟩
    obtain ⟨s, hs, hlabel⟩ := exists_of_writable? hdistinct hkind
    obtain ⟨c, hc, hlabel⟩ := List.mem_map.1 hlabel
    obtain ⟨hiid, rfl⟩ := Prod.ext_iff.1 hlabel
    exact ⟨s, hs, c, hc, isWritable_of_writable? hkind, w, hw, hiid.symm⟩

theorem isTouched_congr {l' : LightAccessory} (hdistinct : Accessory.Distinct l.accessory.labels)
    (hlayout : l'.layout = l.layout) (bulb : Bulb) (writes : List (Nat × Int)) :
    l'.isTouched bulb writes = l.isTouched bulb writes := by
  have hlabels : l'.accessory.labels = l.accessory.labels := congrArg Prod.snd hlayout
  rw [Bool.eq_iff_iff, isTouched_iff (hlabels ▸ hdistinct), isTouched_iff hdistinct, writesTo_congr hlayout]

theorem isSome_lastWritten (l : LightAccessory) (f : Feature) (writes : List (Nat × Int)) :
    (l.lastWritten f writes).isSome = l.isWritten f writes := by
  rw [lastWritten, isWritten]
  cases l.iid? f with
  | none => rfl
  | some iid =>
    have hnone : writes.reverse.lookup iid = none ↔ ∀ w ∈ writes, w.1 ≠ iid := by
      simp only [List.lookup_eq_none_iff, List.mem_reverse, bne_iff_ne, ne_comm]
    rw [Option.bind_some, Option.any_some, Bool.eq_iff_iff, Option.isSome_iff_ne_none, Ne, hnone,
      List.any_eq_true]
    simp

theorem isWritten_congr {l' : LightAccessory} (hlayout : l'.layout = l.layout)
    (hprofile : l'.profile = l.profile) (f : Feature) (writes : List (Nat × Int)) :
    l'.isWritten f writes = l.isWritten f writes := by
  rw [← isSome_lastWritten, lastWritten_congr hlayout hprofile, isSome_lastWritten]

theorem isSome_feature?_of_isWritten {f : Feature} (h : l.isWritten f writes = true) :
    (l.feature? f).isSome := by
  obtain ⟨iid, hiid, -⟩ := (Option.any_eq_true ..).1 h
  obtain ⟨c, hc, -⟩ := Option.map_eq_some_iff.1 hiid
  exact hc ▸ rfl

/-! ### Agreement -/

/-- The command for a service carries the colour temperature of the light. -/
def isTempered (l : LightAccessory) (bulb : Bulb) (writes : List (Nat × Int)) : Bool :=
  if l.isDual then bulb = .secondary else l.isWritten .colorTemperature writes

/-- The command for a service carries the hue and the saturation of the light. -/
def isColored (l : LightAccessory) (bulb : Bulb) (writes : List (Nat × Int)) : Bool :=
  if l.isDual then bulb = .primary else l.isWritten .hue writes || l.isWritten .saturation writes

/-- The writes left the service with a zero for whether it is on, or for its brightness. -/
def isZeroed (l : LightAccessory) (bulb : Bulb) (writes : List (Nat × Int)) : Bool :=
  [bulb.on, bulb.brightness].any fun f => l.written? f writes = some 0

/-- What a call for a service says agrees with what the light holds. -/
structure Agrees (l : LightAccessory) (bulb : Bulb) (writes : List (Nat × Int)) (c : ServiceCall) : Prop where
  domain : c.domain = "light"
  entityId : c.entityId? = some l.entityId
  service : c.service = if l.isZeroed bulb writes then "turn_off" else "turn_on"
  off : c.service = "turn_off" → c.data = .obj [("entity_id", .str l.entityId)]
  brightness : c.service = "turn_on" → if l.isWritten bulb.brightness writes then
      ∃ n ∈ l.value? bulb.brightness, c.get? "brightness_pct" = some (.int n) ∧ 1 ≤ n ∧ n ≤ 100
    else c.get? "brightness_pct" = none
  temperature : c.service = "turn_on" → if l.isTempered bulb writes then
      ∃ n ∈ l.value? .colorTemperature, c.get? "color_temp" = some (.int n)
    else c.get? "color_temp" = none
  color : c.service = "turn_on" → if l.isColored bulb writes then
      ∃ hue ∈ l.value? .hue, ∃ saturation ∈ l.value? .saturation,
        c.get? "hs_color" = some (.arr [.int hue, .int saturation])
    else c.get? "hs_color" = none
  one : c.get? "color_temp" = none ∨ c.get? "hs_color" = none

/-! ### The call of a command -/

theorem get?_onCall (entityId : String) (brightness : Option Int) (color : Option (String × Json))
    (key : String) : (onCall entityId brightness color).get? key =
      (color.bind fun p => if key = p.1 then some p.2 else none).or
        ((if key = "brightness_pct" then brightness.map .int else none).or
          (if key = "entity_id" then some (.str entityId) else none)) := by
  have hdimmed : (onCall entityId brightness none).get? key =
      (if key = "brightness_pct" then brightness.map .int else none).or
        (if key = "entity_id" then some (.str entityId) else none) := by
    cases brightness with
    | none =>
      rw [Option.map_none, ite_self, Option.none_or]
      exact ServiceCall.get?_forEntity ..
    | some n =>
      refine (ServiceCall.get?_withField rfl ..).trans ?_
      rw [ServiceCall.get?_forEntity]
      split <;> rfl
  cases color with
  | none => exact hdimmed
  | some p =>
    obtain ⟨members, hdata⟩ : ∃ members, (onCall entityId brightness none).data = .obj members := by
      cases brightness <;> exact ⟨_, rfl⟩
    refine (ServiceCall.get?_withField hdata ..).trans ?_
    rw [hdimmed, Option.bind_some]
    split <;> rfl

/-! #### Its colour -/

/-- The colour that the command for a service carries. -/
def color? (l : LightAccessory) (bulb : Bulb) (writes : List (Nat × Int)) : Option (String × Json) :=
  if l.isTempered bulb writes then (l.value? .colorTemperature).map fun n => ("color_temp", .int n)
  else if l.isColored bulb writes then do
    return ("hs_color", .arr [.int (← l.value? .hue), .int (← l.value? .saturation)])
  else none

theorem Built.hasColorTemp_of_isTempered (h : Built l) (ht : l.isTempered bulb writes = true) :
    l.capabilities.hasColorTemp = true := by
  unfold isTempered at ht
  split at ht
  · next dual => exact (Bool.and_eq_true_iff.1 dual).2
  · rw [← h.isSome_colorTemperature]
    exact isSome_feature?_of_isWritten ht

theorem Built.hasColor_of_isColored (h : Built l) (hc : l.isColored bulb writes = true) :
    l.capabilities.hasColor = true := by
  unfold isColored at hc
  split at hc
  · next dual => exact (Bool.and_eq_true_iff.1 dual).1
  · rcases Bool.or_eq_true_iff.1 hc with hc | hc
    · rw [← h.isSome_color (.inl rfl)]
      exact isSome_feature?_of_isWritten hc
    · rw [← h.isSome_color (.inr rfl)]
      exact isSome_feature?_of_isWritten hc

theorem Built.isSome_of_isTempered (h : Built l) (ht : l.isTempered bulb writes = true) :
    (l.value? .colorTemperature).isSome := by
  rw [h.isSome_value?, h.isSome_colorTemperature, h.hasColorTemp_of_isTempered ht]

theorem Built.isSome_of_isColored (h : Built l) (hc : l.isColored bulb writes = true) {f : Feature}
    (hf : f = .hue ∨ f = .saturation) : (l.value? f).isSome := by
  rw [h.isSome_value?, h.isSome_color hf, h.hasColor_of_isColored hc]

/-- A command carries one colour at most. -/
theorem Built.isColored_eq_false (h : Built l) (ht : l.isTempered bulb writes = true) :
    l.isColored bulb writes = false := by
  refine Bool.eq_false_iff.2 fun hc => ?_
  have dual : l.isDual = true :=
    Bool.and_eq_true_iff.2 ⟨h.hasColor_of_isColored hc, h.hasColorTemp_of_isTempered ht⟩
  rw [isTempered, if_pos dual] at ht
  rw [isColored, if_pos dual] at hc
  cases (of_decide_eq_true ht).symm.trans (of_decide_eq_true hc)

theorem place_of_isTempered (hbulb : bulb ∈ bulbs l.capabilities) (ht : l.isTempered bulb writes = true) :
    l.place .colorTemperature = (bulb, .colorTemperature) := by
  by_cases dual : l.isDual = true
  · rw [isTempered, if_pos dual] at ht
    rw [place, if_pos dual, of_decide_eq_true ht]
  · rw [place, if_neg dual, eq_primary_of_mem_bulbs hbulb dual]

theorem eq_primary_of_isColored (hbulb : bulb ∈ bulbs l.capabilities)
    (hc : l.isColored bulb writes = true) : bulb = .primary := by
  by_cases dual : l.isDual = true
  · rw [isColored, if_pos dual] at hc
    exact of_decide_eq_true hc
  · exact eq_primary_of_mem_bulbs hbulb dual

/-- The fields of a call that switches on. -/
theorem Built.get?_onCall (h : Built l) (bulb : Bulb) (writes : List (Nat × Int)) (brightness : Option Int) :
    let call := onCall l.entityId brightness (l.color? bulb writes)
    call.get? "entity_id" = some (.str l.entityId) ∧
    call.get? "brightness_pct" = brightness.map .int ∧
    call.get? "color_temp" =
      (if l.isTempered bulb writes then (l.value? .colorTemperature).map .int else none) ∧
    call.get? "hs_color" =
      if l.isColored bulb writes then (l.value? .hue).bind fun hue =>
        (l.value? .saturation).map fun saturation => .arr [.int hue, .int saturation]
      else none := by
  simp only [LightAccessory.get?_onCall, color?]
  cases ht : l.isTempered bulb writes with
  | true =>
    rw [h.isColored_eq_false ht]
    cases l.value? .colorTemperature <;> simp
  | false =>
    cases l.isColored bulb writes <;> cases l.value? .hue <;> cases l.value? .saturation <;> simp

theorem agrees_off (hzeroed : l.isZeroed bulb writes = true) :
    l.Agrees bulb writes (.forEntity "light" "turn_off" l.entityId) := by
  have hoff (hon : (ServiceCall.forEntity "light" "turn_off" l.entityId).service = "turn_on") : False :=
    absurd (show "turn_off" = "turn_on" from hon) (by decide)
  constructor
  case domain => rfl
  case entityId =>
    rw [ServiceCall.entityId?, ServiceCall.get?_forEntity, if_pos rfl]
    rfl
  case service =>
    rw [hzeroed]
    rfl
  case off => exact fun _ => rfl
  case brightness => exact fun hon => (hoff hon).elim
  case temperature => exact fun hon => (hoff hon).elim
  case color => exact fun hon => (hoff hon).elim
  case one => exact .inl (by rw [ServiceCall.get?_forEntity, if_neg (by decide)])

theorem Built.agrees_on (h : Built l) (hzeroed : l.isZeroed bulb writes = false) :
    l.Agrees bulb writes
      (onCall l.entityId (l.written? bulb.brightness writes) (l.color? bulb writes)) := by
  obtain ⟨hentity, hbrightness, htemperature, hcolor⟩ :=
    h.get?_onCall bulb writes (l.written? bulb.brightness writes)
  have hservice := service_onCall l.entityId (l.written? bulb.brightness writes) (l.color? bulb writes)
  constructor
  case domain => cases l.written? bulb.brightness writes <;> cases l.color? bulb writes <;> rfl
  case entityId =>
    rw [ServiceCall.entityId?, hentity]
    rfl
  case service =>
    rw [hservice, hzeroed]
    rfl
  case off =>
    intro hoff
    exact absurd (hservice.symm.trans hoff) (by decide)
  case brightness =>
    intro _
    rw [hbrightness, written?]
    split
    · next hwritten =>
      obtain ⟨n, hn, hleast, hmost⟩ : ∃ n, l.value? bulb.brightness = some n ∧ 0 ≤ n ∧ n ≤ 100 :=
        h.exists_value? (r := ⟨0, 100⟩) (by simp [place_brightness]) (by rw [place_brightness]; rfl)
          (isSome_feature?_of_isWritten hwritten)
      have hne : n ≠ 0 := by
        rintro rfl
        simp [isZeroed, written?, hwritten, hn] at hzeroed
      exact ⟨n, hn, by rw [hn]; rfl, by omega, hmost⟩
    · rfl
  case temperature =>
    intro _
    rw [htemperature]
    split
    · next ht =>
      obtain ⟨n, hn⟩ := Option.isSome_iff_exists.1 (h.isSome_of_isTempered ht)
      exact ⟨n, hn, by rw [hn]; rfl⟩
    · rfl
  case color =>
    intro _
    rw [hcolor]
    split
    · next hc =>
      obtain ⟨hue, hhue⟩ := Option.isSome_iff_exists.1 (h.isSome_of_isColored hc (.inl rfl))
      obtain ⟨saturation, hsaturation⟩ :=
        Option.isSome_iff_exists.1 (h.isSome_of_isColored hc (.inr rfl))
      exact ⟨hue, hhue, saturation, hsaturation, by rw [hhue, hsaturation]; rfl⟩
    · rfl
  case one =>
    cases ht : l.isTempered bulb writes with
    | true =>
      right
      rw [hcolor, h.isColored_eq_false ht]
      rfl
    | false =>
      left
      rw [htemperature, ht]
      rfl

/-! #### What is stored -/

/-- What a service holds of each kind, if the kind was written to it. -/
structure Stores (l : LightAccessory) (bulb : Bulb) (writes : List (Nat × Int))
    (stored : Kind → Option Int) : Prop where
  written : ∀ f kind, l.place f = (bulb, kind) → stored kind = l.written? f writes
  absent : ∀ kind, (l.accessory.services[bulb.index]?).bind (·.characteristic? kind) = none →
    stored kind = none

variable {stored : Kind → Option Int}

/-- What was not written is taken from what the light holds. -/
theorem Stores.orElse (hstores : l.Stores bulb writes stored) {f : Feature} {kind : Kind}
    (hf : l.place f = (bulb, kind)) : (stored kind <|> l.value? f) = l.value? f := by
  rw [hstores.written f kind hf, written?]
  split
  · cases l.value? f <;> rfl
  · rfl

section

variable (h : Built l) (hstores : l.Stores bulb writes stored)
include h hstores

theorem Stores.isSome {f : Feature} {kind : Kind} (hf : l.place f = (bulb, kind)) :
    (stored kind).isSome = l.isWritten f writes := by
  rw [hstores.written f kind hf, written?]
  split
  · next hwritten => rw [h.isSome_value?, isSome_feature?_of_isWritten hwritten, hwritten]
  · next hwritten => exact (Bool.eq_false_iff.2 hwritten).symm

theorem Stores.isTempered (hbulb : bulb ∈ bulbs l.capabilities) : (l.capabilities.hasColorTemp &&
    ((stored .colorTemperature).isSome || (l.isDual && bulb = .secondary))) = l.isTempered bulb writes := by
  by_cases dual : l.isDual = true
  · have hcolorTemp : l.capabilities.hasColorTemp = true := (Bool.and_eq_true_iff.1 dual).2
    rw [LightAccessory.isTempered, if_pos dual, hcolorTemp, dual]
    cases bulb with
    | primary =>
      -- the service for the colour has no temperature that could have been written
      have habsent : (l.accessory.services[Bulb.primary.index]?).bind
          (·.characteristic? .colorTemperature) = none := by
        rw [← Option.not_isSome_iff_eq_none, h.isSome_characteristic?]
        have dual' : HomeKit.isDual l.capabilities = true := dual
        simp [bulbKinds, dual']
      rw [hstores.absent _ habsent]
      rfl
    | secondary => exact Bool.or_true _
  · have hplace : l.place .colorTemperature = (bulb, .colorTemperature) := by
      rw [place, if_neg dual, eq_primary_of_mem_bulbs hbulb dual]
    rw [LightAccessory.isTempered, if_neg dual, hstores.isSome h hplace, Bool.eq_false_iff.2 dual,
      Bool.false_and, Bool.or_false]
    cases hwritten : l.isWritten .colorTemperature writes with
    | false => exact Bool.and_false _
    | true =>
      rw [← h.isSome_colorTemperature, isSome_feature?_of_isWritten hwritten]
      rfl

theorem Stores.isColored (hbulb : bulb ∈ bulbs l.capabilities) (ht : l.isTempered bulb writes = false) :
    (l.capabilities.hasColor && ((stored .hue).isSome || (stored .saturation).isSome ||
      (l.isDual && bulb = .primary))) = l.isColored bulb writes := by
  by_cases dual : l.isDual = true
  · have hcolor : l.capabilities.hasColor = true := (Bool.and_eq_true_iff.1 dual).1
    rw [LightAccessory.isTempered, if_pos dual] at ht
    rw [LightAccessory.isColored, if_pos dual, hcolor, dual]
    cases bulb with
    | primary => exact Bool.or_true _
    | secondary => cases ht
  · cases eq_primary_of_mem_bulbs hbulb dual
    rw [hstores.isSome h (f := .hue) rfl, hstores.isSome h (f := .saturation) rfl, Bool.eq_false_iff.2 dual,
      Bool.false_and, Bool.or_false]
    have hcolored : l.isColored .primary writes =
        (l.isWritten .hue writes || l.isWritten .saturation writes) := if_neg dual
    cases hwritten : l.isColored .primary writes with
    | false => rw [← hcolored, hwritten, Bool.and_false]
    | true => rw [← hcolored, hwritten, h.hasColor_of_isColored hwritten]; rfl

theorem Stores.colorField (hbulb : bulb ∈ bulbs l.capabilities) :
    (l.colorField bulb stored).map (fun f => (f.1, f.2.1)) = l.color? bulb writes := by
  simp only [LightAccessory.colorField, color?, hstores.isTempered h hbulb]
  cases ht : l.isTempered bulb writes with
  | true =>
    rw [hstores.orElse (place_of_isTempered hbulb ht)]
    cases l.value? .colorTemperature <;> rfl
  | false =>
    rw [hstores.isColored h hbulb ht]
    cases hc : l.isColored bulb writes with
    | true =>
      cases eq_primary_of_isColored hbulb hc
      rw [hstores.orElse (f := .hue) rfl, hstores.orElse (f := .saturation) rfl]
      cases l.value? .hue <;> cases l.value? .saturation <;> rfl
    | false => rfl

theorem Stores.call_command (hbulb : bulb ∈ bulbs l.capabilities) : (l.command bulb stored).call =
    if l.isZeroed bulb writes then .forEntity "light" "turn_off" l.entityId
    else onCall l.entityId (l.written? bulb.brightness writes) (l.color? bulb writes) := by
  have hon := hstores.written bulb.on .on (place_on ..)
  have hbrightness := hstores.written bulb.brightness .brightness (place_brightness ..)
  have hzeroed : l.written? bulb.on writes = some 0 ∨ l.written? bulb.brightness writes = some 0 ↔
      l.isZeroed bulb writes = true := by
    simp [isZeroed]
  rw [LightAccessory.call_command, hstores.colorField h hbulb, hon, hbrightness]
  exact if_congr hzeroed rfl rfl

theorem Stores.agrees (hbulb : bulb ∈ bulbs l.capabilities) :
    l.Agrees bulb writes (l.command bulb stored).call := by
  rw [hstores.call_command h hbulb]
  split
  · next hzeroed => exact agrees_off hzeroed
  · next hzeroed => exact h.agrees_on (Bool.eq_false_iff.2 hzeroed)

end

/-! ### The commands of a batch -/

theorem Built.writeTo_eq (h : Built l) (hne : l.writesTo bulb writes ≠ []) : l.writeTo bulb writes =
    ([(l.store bulb.index (l.writesTo bulb writes)).command bulb
        ((l.store bulb.index (l.writesTo bulb writes)).stored bulb.index (l.writesTo bulb writes))],
      l.store bulb.index (l.writesTo bulb writes)) := by
  rw [LightAccessory.writeTo_eq, if_neg hne, LightAccessory.setValues,
    index_of_mem_bulbs (h.mem_bulbs_of_writesTo hne)]

theorem Built.stores (h : Built l) (bulb : Bulb) (writes : List (Nat × Int)) :
    (l.writeTo bulb writes).2.Stores bulb writes
      ((l.writeTo bulb writes).2.stored bulb.index (l.writesTo bulb writes)) where
  written f kind hf := by
    have hplace : l.place f = (bulb, kind) := (place_congr (l.profile_writeTo ..) f).symm.trans hf
    have hlast := lastOf_writesTo h.distinct f writes
    rw [hplace] at hlast
    rw [written?, isWritten_congr (l.layout_writeTo ..) (l.profile_writeTo ..), ← isSome_lastWritten, ← hlast,
      value?, feature?_eq, hf]
    rfl
  absent kind hnone := by
    rw [stored, hnone]
    exact ite_self none

theorem Built.writeTo_agrees (h : Built l) (bulb : Bulb) (writes : List (Nat × Int)) :
    ∃ command, (l.writeTo bulb writes).1 = (if l.isTouched bulb writes then [command] else []) ∧
      (l.isTouched bulb writes = true → (l.writeTo bulb writes).2.Agrees bulb writes command.call) := by
  by_cases htouched : l.isTouched bulb writes = true
  · have hne : l.writesTo bulb writes ≠ [] := (isTouched_iff h.distinct bulb writes).1 htouched
    have hcapabilities : (l.writeTo bulb writes).2.capabilities = l.capabilities :=
      congrArg Prod.snd (l.profile_writeTo bulb writes)
    refine ⟨_, ?_, fun _ => (h.stores bulb writes).agrees (h.writeTo bulb writes)
      (hcapabilities ▸ h.mem_bulbs_of_writesTo hne)⟩
    rw [if_pos htouched, h.writeTo_eq hne]
  · have hnil : l.writesTo bulb writes = [] :=
      not_not.1 (mt (isTouched_iff h.distinct bulb writes).2 htouched)
    exact ⟨default, by rw [if_neg htouched, LightAccessory.writeTo_eq, if_pos hnil],
      fun h => absurd h htouched⟩

/-- What is written to the other service changes nothing of the command for the primary one. -/
theorem Agrees.congr {l' : LightAccessory} (hlayout : l'.layout = l.layout) (hprofile : l'.profile = l.profile)
    (hvalue : ∀ f, (l.place f).1 = .primary → l'.value? f = l.value? f) {c : ServiceCall}
    (ha : l.Agrees .primary writes c) : l'.Agrees .primary writes c := by
  have hwritten (f : Feature) : l'.isWritten f writes = l.isWritten f writes :=
    isWritten_congr hlayout hprofile f writes
  have htempered : l'.isTempered .primary writes = l.isTempered .primary writes := by
    rw [isTempered, isTempered, isDual_congr hprofile, hwritten]
  have hcolored : l'.isColored .primary writes = l.isColored .primary writes := by
    rw [isColored, isColored, isDual_congr hprofile, hwritten, hwritten]
  have hwritten? (f : Feature) (hf : (l.place f).1 = .primary) : l'.written? f writes = l.written? f writes := by
    rw [written?, written?, hwritten, hvalue f hf]
  have hzeroed : l'.isZeroed .primary writes = l.isZeroed .primary writes := by
    rw [isZeroed, List.any_cons, List.any_cons, List.any_nil, hwritten? Bulb.primary.on rfl,
      hwritten? Bulb.primary.brightness rfl]
    rfl
  have hentity : l'.entityId = l.entityId := congrArg Prod.fst hprofile
  constructor
  case domain => exact ha.domain
  case entityId => exact hentity ▸ ha.entityId
  case service => exact hzeroed ▸ ha.service
  case off => exact hentity ▸ ha.off
  case brightness =>
    rw [hwritten, hvalue Bulb.primary.brightness rfl]
    exact ha.brightness
  case temperature =>
    intro hon
    have htemperature := ha.temperature hon
    rw [htempered]
    split
    · next ht =>
      rw [if_pos ht] at htemperature
      rwa [hvalue .colorTemperature (congrArg Prod.fst (place_of_isTempered (mem_bulbs_primary _) ht))]
    · next ht => rwa [if_neg ht] at htemperature
  case color =>
    rw [hcolored, hvalue .hue rfl, hvalue .saturation rfl]
    exact ha.color
  case one => exact ha.one

/-- A batch comes to one command for each service that it touches, that for the primary service first, and
each agrees with what the light holds afterwards. -/
theorem commands_agree (built : Built l) (writes : List (Nat × Int)) :
    ∃ command : Bulb → LightCommand,
      (l.write writes).1 = ([Bulb.primary, .secondary].filter (l.isTouched · writes)).map command ∧
      ∀ bulb, l.isTouched bulb writes = true →
        (l.write writes).2.Agrees bulb writes (command bulb).call := by
  let l' := (l.writeTo .primary writes).2
  have hlayout : l'.layout = l.layout := l.layout_writeTo .primary writes
  have built' : Built l' := built.writeTo .primary writes
  obtain ⟨first, hfirst, hprimary⟩ := built.writeTo_agrees .primary writes
  obtain ⟨second, hsecond, hsecondary⟩ := built'.writeTo_agrees .secondary writes
  rw [isTouched_congr built.distinct hlayout] at hsecond hsecondary
  refine ⟨fun bulb => if bulb = .primary then first else second, ?_, fun bulb htouched => ?_⟩
  · have hwrite : (l.write writes).1 = (l.writeTo .primary writes).1 ++ (l'.writeTo .secondary writes).1 :=
      rfl
    rw [hwrite, hfirst, hsecond]
    cases hp : l.isTouched .primary writes <;> cases hs : l.isTouched .secondary writes <;> simp [hp, hs]
  · cases bulb with
    | primary =>
      refine (hprimary htouched).congr (l'.layout_writeTo ..) (l'.profile_writeTo ..) fun f hf => ?_
      have hne : Bulb.secondary ≠ (l'.place f).1 := fun hplace => absurd (hplace.trans hf) (by decide)
      rw [value?, feature?_writeTo built', value?]
      simp only [if_neg hne, Option.map_id']
    | secondary => exact hsecondary htouched

/-! What a command carries of known values. -/

section Known

variable {bulb : Bulb} {writes : List (Nat × Int)} {c : ServiceCall}

theorem Agrees.turn_on (ha : l.Agrees bulb writes c) (lit : l.isZeroed bulb writes = false) :
    c.service = "turn_on" := by
  rw [ha.service, lit]
  rfl

theorem Agrees.get?_brightness (ha : l.Agrees bulb writes c) (lit : l.isZeroed bulb writes = false)
    (written : l.isWritten bulb.brightness writes = true) {n : Int}
    (hn : l.value? bulb.brightness = some n) : c.get? "brightness_pct" = some (.int n) := by
  have hdimmed := ha.brightness (ha.turn_on lit)
  rw [if_pos written] at hdimmed
  obtain ⟨m, hm, hfield, -⟩ := hdimmed
  cases hn.symm.trans hm
  exact hfield

theorem Agrees.get?_temperature (ha : l.Agrees bulb writes c) (lit : l.isZeroed bulb writes = false)
    (tempered : l.isTempered bulb writes = true) {n : Int}
    (hn : l.value? .colorTemperature = some n) : c.get? "color_temp" = some (.int n) := by
  have htempered := ha.temperature (ha.turn_on lit)
  rw [if_pos tempered] at htempered
  obtain ⟨m, hm, hfield⟩ := htempered
  cases hn.symm.trans hm
  exact hfield

theorem Agrees.get?_color (ha : l.Agrees bulb writes c) (lit : l.isZeroed bulb writes = false)
    (colored : l.isColored bulb writes = true) {hue saturation : Int} (hhue : l.value? .hue = some hue)
    (hsaturation : l.value? .saturation = some saturation) :
    c.get? "hs_color" = some (.arr [.int hue, .int saturation]) := by
  have hcolored := ha.color (ha.turn_on lit)
  rw [if_pos colored] at hcolored
  obtain ⟨x, hx, y, hy, hfield⟩ := hcolored
  cases hhue.symm.trans hx
  cases hsaturation.symm.trans hy
  exact hfield

end Known

/-- A lamp's colour service is dimmed to nothing and its temperature service is not: the one command switches
off, whatever else is written, and the other one carries the brightness that was written and the temperature
that was not. When both are dimmed and given a shade, each command carries its own numbers. -/
theorem commands_agree_lamp :
    let lamp : LightAccessory := .create 2 "Lamp" "light.desk" none
      (some (.record [("supported_color_modes", .arr [.str "color_temp", .str "hs"])]))
    Built lamp ∧
      (∃ first second, (lamp.write [(17, 30), (8, 1), (11, 250), (9, -1)]).1 = [first, second] ∧
        first.call.service = "turn_off" ∧ first.call.data = .obj [("entity_id", .str "light.desk")] ∧
        second.call.service = "turn_on" ∧ second.call.get? "brightness_pct" = some (.int 30) ∧
        second.call.get? "color_temp" = some (.int 153)) ∧
      ∃ first second,
        (lamp.write [(10, 200), (16, 300), (17, 30), (11, 40), (9, 70)]).1 = [first, second] ∧
        first.call.get? "brightness_pct" = some (.int 70) ∧
        first.call.get? "hs_color" = some (.arr [.int 200, .int 40]) ∧
        second.call.get? "brightness_pct" = some (.int 30) ∧
        second.call.get? "color_temp" = some (.int 300) := by
  intro lamp
  have built : Built lamp := .create ..
  have both (writes : List (Nat × Int))
      (touched : ∀ bulb ∈ [Bulb.primary, .secondary], lamp.isTouched bulb writes = true) :
      ∃ first second, (lamp.write writes).1 = [first, second] ∧
        (lamp.write writes).2.Agrees .primary writes first.call ∧
        (lamp.write writes).2.Agrees .secondary writes second.call := by
    obtain ⟨command, hcommands, hagrees⟩ := commands_agree built writes
    rw [List.filter_eq_self.2 touched] at hcommands
    exact ⟨_, _, hcommands, hagrees _ (touched _ (by simp)), hagrees _ (touched _ (by simp))⟩
  refine ⟨built, ?_, ?_⟩
  · obtain ⟨first, second, hcommands, hfirst, hsecond⟩ :=
      both [(17, 30), (8, 1), (11, 250), (9, -1)] (by decide +kernel)
    have hoff : first.call.service = "turn_off" := hfirst.service.trans (if_pos (by decide +kernel))
    have lit : (lamp.write [(17, 30), (8, 1), (11, 250), (9, -1)]).2.isZeroed .secondary
        [(17, 30), (8, 1), (11, 250), (9, -1)] = false := by decide +kernel
    refine ⟨first, second, hcommands, hoff, hfirst.off hoff, hsecond.turn_on lit, ?_, ?_⟩
    · exact hsecond.get?_brightness lit (by decide +kernel) (by decide +kernel)
    · exact hsecond.get?_temperature lit (by decide +kernel) (by decide +kernel)
  · obtain ⟨first, second, hcommands, hfirst, hsecond⟩ :=
      both [(10, 200), (16, 300), (17, 30), (11, 40), (9, 70)] (by decide +kernel)
    refine ⟨first, second, hcommands, ?_, ?_, ?_, ?_⟩
    · exact hfirst.get?_brightness (by decide +kernel) (by decide +kernel) (by decide +kernel)
    · exact hfirst.get?_color (by decide +kernel) (by decide +kernel) (by decide +kernel)
        (by decide +kernel)
    · exact hsecond.get?_brightness (by decide +kernel) (by decide +kernel) (by decide +kernel)
    · exact hsecond.get?_temperature (by decide +kernel) (by decide +kernel) (by decide +kernel)

end HomeKit.LightAccessory

end HomeHub
