import HomeHub.Proofs.HomeKit.Layout

/-!
# Lights that keep their layout

Nothing that a bridge is called with changes what its lights consist of: one call lets every light stay as
it is, shows it an entity or writes to it (`Call.run_lights`), and each of these gives the numbers of a
sound light new values, which are in range again (`Steady`). Lights are sound from the start, whatever the
limits are that their entity states.
-/

namespace HomeHub.HomeKit

/-! ### Lights -/

theorem nodup_bulbKinds (c : Light.Capabilities) (bulb : Bulb) : (Kind.on :: bulbKinds c bulb).Nodup := by
  by_cases hbrightness : c.hasBrightness <;> by_cases hcolor : c.hasColor <;>
    by_cases htemp : c.hasColorTemp <;> cases bulb <;> simp [bulbKinds, isDual, hbrightness, hcolor, htemp]

namespace LightAccessory

variable {l l' : LightAccessory}

/-- All but the numbers that a light shows. -/
def outline (l : LightAccessory) : LightAccessory := { l with accessory := l.accessory.outline }

theorem of_feature? {f : Feature} {c : Characteristic} (h : l.feature? f = some c) :
    c ∈ l.accessory.characteristics ∧ c.kind = (l.place f).2 := by
  obtain ⟨s, hs, hc⟩ := Option.bind_eq_some_iff.1 h
  obtain ⟨hcs, hkind⟩ := Service.of_characteristic? hc
  exact ⟨List.mem_flatMap.2 ⟨s, List.mem_of_getElem? hs, hcs⟩, hkind⟩

theorem isText_place (l : LightAccessory) (f : Feature) : (l.place f).2.isText = false := by
  cases f <;> rfl

theorem isText_of_mem_writesTo {bulb : Bulb} {writes : List (Nat × Int)} {p : Kind × Int}
    (h : p ∈ l.writesTo bulb writes) : p.1.isText = false := by
  obtain ⟨w, -, hw⟩ := List.mem_filterMap.1 h
  obtain ⟨c, -, hc⟩ := Option.bind_eq_some_iff.1 hw
  split at hc
  · next hroute =>
    cases hc
    have hwritable : c.kind.isWritable = true := (Bool.and_eq_true_iff.1 hroute).1
    simpa [Kind.isWritable] using hwritable
  · cases hc

/-- `l'` is `l` with other numbers, each in its range. -/
structure Steady (l l' : LightAccessory) : Prop where
  outline : l'.outline = l.outline
  sound : l'.accessory.Sound

namespace Steady

theorem refl (h : l.accessory.Sound) : Steady l l := ⟨rfl, h⟩

theorem trans {l'' : LightAccessory} (h : Steady l l') (h' : Steady l' l'') : Steady l l'' :=
  ⟨h'.outline.trans h.outline, h'.sound⟩

theorem aid_eq (h : Steady l l') : l'.aid = l.aid := congrArg (·.accessory.aid) h.outline

theorem of_accessory {a : Accessory} (houtline : a.outline = l.accessory.outline) (ha : a.Sound) :
    Steady l { l with accessory := a } :=
  ⟨congrArg (fun accessory => { l with accessory }) houtline, ha⟩

/-! #### Following the entity -/

theorem set (h : l.accessory.Sound) (f : Feature) (n : Int) : Steady l (l.set f n) := by
  unfold LightAccessory.set
  split
  · next iid hiid =>
    obtain ⟨c, hc, rfl⟩ := Option.map_eq_some_iff.1 hiid
    obtain ⟨hmem, hkind⟩ := of_feature? hc
    -- the number stands for the characteristic of the feature only, so no text is overwritten
    have hnumeric : ∀ d ∈ l.accessory.characteristics, d.iid = c.iid → d.kind.isText = false := by
      intro d hd hiid
      have hlabel := h.distinct.label_eq hd hmem hiid
      exact (congrArg (Kind.isText ·.2) hlabel).trans (hkind ▸ l.isText_place f)
    refine .of_accessory ?_ ?_
    · exact Accessory.outline_modify fun d hd hiid =>
        (h.sound d hd).outline_setNumber (hnumeric d hd hiid) n
    · exact h.modify (fun d => d.label_setNumber n) fun d hd hiid =>
        (h.sound d hd).setNumber (hnumeric d hd hiid) n
  · exact refl h

theorem setAll (h : l.accessory.Sound) (values : List (Feature × Int)) : Steady l (l.setAll values) := by
  induction values generalizing l with
  | nil => exact refl h
  | cons p r ih => exact (set h p.1 p.2).trans (ih (set h p.1 p.2).sound)

theorem update (h : l.accessory.Sound) (e : Option Entity) : Steady l (l.update e) := by
  have hon := setAll h (l.onValues e)
  cases e with
  | none => exact hon
  | some e => exact hon.trans (setAll hon.sound _)

/-! #### Taking in writes -/

theorem store (h : l.accessory.Sound) {values : List (Kind × Int)}
    (hvalues : ∀ p ∈ values, p.1.isText = false) (index : Nat) : Steady l (l.store index values) := by
  have hnumeric {c : Characteristic} {n : Int} (hn : lastOf values c.kind = some n) :
      c.kind.isText = false := by
    obtain ⟨before, after, hsplit, -⟩ := List.lookup_eq_some_iff.1 hn
    exact hvalues _ (List.mem_reverse.1 (hsplit ▸ List.mem_append_right _ List.mem_cons_self))
  refine .of_accessory (Accessory.outline_modifyService fun c hc => ?_)
    (h.modifyService (fun c => ?_) (fun _ => rfl) (fun c hc => ?_) index)
  · split
    · next hn => exact (h.sound c hc).outline_setNumber (hnumeric hn) _
    · rfl
  · split <;> rfl
  · split
    · next hn => exact (h.sound c hc).setNumber (hnumeric hn) _
    · exact h.sound c hc

theorem writeTo (h : l.accessory.Sound) (bulb : Bulb) (writes : List (Nat × Int)) :
    Steady l (l.writeTo bulb writes).2 := by
  unfold LightAccessory.writeTo
  split
  · exact refl h
  · exact store h (fun _ => isText_of_mem_writesTo) _

theorem write (h : l.accessory.Sound) (writes : List (Nat × Int)) : Steady l (l.write writes).2 :=
  (writeTo h .primary writes).trans (writeTo (writeTo h .primary writes).sound .secondary writes)

end Steady

/-! #### New lights -/

@[simp] theorem label_initial (c : Light.Capabilities) (bulb : Bulb) (x : Characteristic) :
    (initial c bulb x).label = x.label := by
  unfold initial
  split <;> simp

theorem sound_initial {x : Characteristic} (h : x.Sound) (c : Light.Capabilities) (bulb : Bulb) :
    (initial c bulb x).Sound := by
  unfold initial
  split
  · next hkind => exact h.setNumber (hkind ▸ rfl) _
  · next hkind => exact h.setNumber (hkind ▸ rfl) _
  · next hkind => exact h.setNumber (hkind ▸ rfl) _
  · next hkind =>
    have hnumeric : x.kind.isText = false := hkind ▸ rfl
    refine (h.setRange hnumeric ..).setNumber ?_ _
    rw [← hnumeric]
    exact congrArg (Kind.isText ·.2) (x.label_setRange ..)
  · next hkind => exact .setText (hkind ▸ rfl) _
  · exact h

theorem sound_blank (aid : Nat) (name entityId : String) (c : Light.Capabilities) :
    (blank aid name entityId c).accessory.Sound := by
  let plan (bulb : Bulb) : ServicePlan := ⟨.lightbulb, .on :: bulbKinds c bulb⟩
  have hplans : ∀ p ∈ (bulbs c).map plan, p.characteristics.Nodup := by
    intro p hp
    obtain ⟨bulb, -, rfl⟩ := List.mem_map.1 hp
    exact nodup_bulbKinds c bulb
  have hfill (bulbs : List Bulb) (a : Accessory) (ha : a.Sound) : (bulbs.foldl (fun a bulb =>
      a.modifyService bulb.index (·.mapCharacteristics (initial c bulb))) a).Sound := by
    induction bulbs generalizing a with
    | nil => exact ha
    | cons bulb r ih =>
      exact ih _ (ha.modifyService (label_initial c bulb) (fun _ => rfl)
        (fun x hx => sound_initial (ha.sound x hx) c bulb) _)
  have hinformed := (Accessory.sound_create aid name .lightbulb hplans).setInformation "homelink" "light"
    entityId
  refine hfill (bulbs c) _ (hinformed.modifyService (fun _ => rfl) (fun s => ?_) hinformed.sound _)
  exact (List.map_id _).symm

/-- Every light is made sound, also one whose limits are upside down. -/
theorem sound_create (aid : Nat) (name entityId : String) (state : Option Entity) (registry : Option Json) :
    (create aid name entityId state registry).accessory.Sound := by
  cases state with
  | some e => exact (Steady.update (sound_blank ..) (some e)).sound
  | none => cases registry <;> exact sound_blank ..

/-- The light as it is made for an entity. -/
def IsNew (l : LightAccessory) : Prop :=
  ∃ aid name entityId state registry, l = create aid name entityId state registry

end LightAccessory

/-! ### Bridges -/

namespace Bridge

theorem lights_dispatch (b : Bridge) (l : LightAccessory) (c : LightCommand) :
    (b.dispatch l c).2.lights = b.lights := by
  rw [dispatch]
  split <;> rfl

theorem lights_dispatchAll (b : Bridge) (commands : List (LightAccessory × LightCommand)) :
    (b.dispatchAll commands).2.lights = b.lights := by
  induction commands generalizing b with
  | nil => rfl
  | cons p r ih =>
    obtain ⟨l, c⟩ := p
    have hlights := b.lights_dispatch l c
    rw [dispatchAll]
    split
    · next h => rwa [h] at hlights
    · next h => exact (ih _).trans (by rwa [h] at hlights)

/-- Writes that name no light's aid are none to it. -/
theorem numbersFor_eq_nil {writes : List CharacteristicWrite} {aid : Nat} (h : ∀ w ∈ writes, w.aid ≠ aid) :
    numbersFor writes aid = [] :=
  List.filterMap_eq_nil_iff.2 fun w hw => if_neg (h w hw)

/-- What a bridge is called with. -/
inductive Call where
  | add (l : LightAccessory)
  | put (body : List UInt8)
  | handle (e : Event)

namespace Call

variable {c : Call} {b : Bridge} {l : LightAccessory}

def run (b : Bridge) : Call → Bridge
  | .add l => (b.add l).2
  | .put body => (b.put body).2
  | .handle e => (b.handle e).2

/-- Whether the call is about a light that is registered. -/
def Names (l : LightAccessory) : Call → Prop
  | .add _ => False
  | .put body => ∃ writes, Json.decodeBytes writesShape.read body = .ok writes ∧ ∃ w ∈ writes, w.aid = l.aid
  | .handle e => e.eventType = .stateChanged ∧ subject? e = some l.entityId

/-- What a call may make of a registered light. -/
inductive Turns (c : Call) (l : LightAccessory) : LightAccessory → Prop
  | rest : Turns c l l
  | update (e : Option Entity) (h : c.Names l) : Turns c l (l.update e)
  | write (writes : List (Nat × Int)) (h : c.Names l) : Turns c l (l.write writes).2

theorem Turns.steady {l' : LightAccessory} (h : Turns c l l') (hl : l.accessory.Sound) : l.Steady l' := by
  cases h with
  | rest => exact .refl hl
  | update e _ => exact .update hl e
  | write writes _ => exact .write hl writes

theorem Turns.eq_of_not_names {l' : LightAccessory} (h : Turns c l l') (hnames : ¬ c.Names l) : l' = l := by
  cases h with
  | rest => rfl
  | update _ h => exact absurd h hnames
  | write _ h => exact absurd h hnames

/-- What a call makes of lights that are registered already. -/
def TurnsAll (c : Call) (lights lights' : Table Nat LightAccessory) : Prop :=
  ∃ f, lights' = lights.map f ∧ ∀ l, Turns c l (f l)

theorem TurnsAll.rest (c : Call) (lights : Table Nat LightAccessory) : TurnsAll c lights lights :=
  ⟨fun l => l, lights.map_id.symm, fun _ => .rest⟩

theorem turnsAll_put (b : Bridge) (body : List UInt8) :
    TurnsAll (.put body) b.lights (b.put body).2.lights := by
  rw [Bridge.put]
  cases hdecode : Json.decodeBytes writesShape.read body with
  | error _ => exact .rest ..
  | ok writes =>
    refine ⟨fun l => (l.write (numbersFor writes l.aid)).2, lights_dispatchAll .., fun l => ?_⟩
    by_cases hnames : ∃ w ∈ writes, w.aid = l.aid
    · exact .write _ ⟨writes, hdecode, hnames⟩
    · have hnone : numbersFor writes l.aid = [] :=
        numbersFor_eq_nil fun w hw haid => hnames ⟨w, hw, haid⟩
      simp only [hnone]
      exact .rest

theorem turnsAll_handle (b : Bridge) (e : Event) :
    TurnsAll (.handle e) b.lights (b.handle e).2.lights := by
  rw [Bridge.handle]
  by_cases htype : e.eventType = .stateChanged
  · rw [if_neg (not_not_intro htype)]
    cases hsubject : subject? e with
    | none => exact .rest ..
    | some entityId =>
      cases newState e with
      | error _ => exact .rest ..
      | ok state =>
        refine ⟨fun l => if l.entityId = entityId then l.update state else l, rfl, fun l => ?_⟩
        dsimp only
        split
        · next hid => exact .update state ⟨htype, hid ▸ hsubject⟩
        · exact .rest
  · rw [if_pos htype]
    exact .rest ..

/-- A call registers a light, or turns each of those registered. -/
theorem run_lights (b : Bridge) (c : Call) :
    (∃ l, c = .add l ∧ b.lights.contains l.aid = false ∧ (c.run b).lights = b.lights.insert l.aid l) ∨
    TurnsAll c b.lights (c.run b).lights := by
  cases c with
  | add l =>
    simp only [run, Bridge.add]
    cases hl : b.lights.contains l.aid with
    | true => exact .inr (.rest ..)
    | false => exact .inl ⟨l, rfl, hl, rfl⟩
  | put body => exact .inr (turnsAll_put b body)
  | handle e => exact .inr (turnsAll_handle b e)

/-- A registered light stays registered. -/
theorem exists_turns (c : Call) {aid : Nat} (hl : b.lights.get? aid = some l) :
    ∃ l', (c.run b).lights.get? aid = some l' ∧ Turns c l l' := by
  rcases c.run_lights b with ⟨new, rfl, hnew, hlights⟩ | ⟨f, hlights, hf⟩ <;> rw [hlights]
  · refine ⟨l, ?_, .rest⟩
    rw [Table.get?_insert, if_neg, hl]
    intro haid
    cases Std.LawfulEqOrd.eq_of_compare haid
    rw [Table.contains, hl] at hnew
    cases hnew
  · exact ⟨f l, by rw [Table.get?_map, hl]; rfl, hf l⟩

end Call

/-- `b'` comes of `b` by calls, all lights added being of some sort; meanwhile the caller, the publisher
and the clock do as they like. -/
inductive Leads (sort : LightAccessory → Prop) (b : Bridge) : Bridge → Prop
  | refl : Leads sort b b
  | call {b' : Bridge} (h : Leads sort b b') (c : Call) (hsort : ∀ l, c = .add l → sort l) :
      Leads sort b (c.run b')
  | meanwhile {b' : Bridge} (h : Leads sort b b') (caller : Caller) (publisher : Publisher)
      (supply : Supply) : Leads sort b { b' with caller, publisher, supply }

variable {sort : LightAccessory → Prop} {b₀ b b' : Bridge}

/-- What holds of a light when it is added, and whatever a call turns it into, holds of all lights. -/
theorem Leads.forall_lights {P : Nat → LightAccessory → Prop} (h : Leads sort b b')
    (hsort : ∀ l, sort l → P l.aid l)
    (hturns : ∀ c aid l l', Call.Turns c l l' → P aid l → P aid l')
    (hb : ∀ aid l, b.lights.get? aid = some l → P aid l) :
    ∀ aid l, b'.lights.get? aid = some l → P aid l := by
  induction h with
  | refl => exact hb
  | @call b' _ c hc ih =>
    intro aid l hl
    rcases c.run_lights b' with ⟨new, rfl, -, hlights⟩ | ⟨f, hlights, hf⟩ <;> rw [hlights] at hl
    · rw [Table.get?_insert] at hl
      split at hl
      · next haid =>
        cases Std.LawfulEqOrd.eq_of_compare haid
        cases hl
        exact hsort l (hc l rfl)
      · exact ih aid l hl
    · rw [Table.get?_map] at hl
      obtain ⟨old, hold, rfl⟩ := Option.map_eq_some_iff.1 hl
      exact hturns c aid old _ (hf old) (ih aid old hold)
  | meanwhile _ _ _ _ ih => exact ih

theorem Leads.exists_light {P : LightAccessory → Prop} (h : Leads sort b b') {aid : Nat}
    {l : LightAccessory} (hl : b.lights.get? aid = some l) (hP : P l)
    (hturns : ∀ c l l', Call.Turns c l l' → P l → P l') : ∃ l', b'.lights.get? aid = some l' ∧ P l' := by
  induction h with
  | refl => exact ⟨l, hl, hP⟩
  | call _ c _ ih =>
    obtain ⟨l', hl', hP'⟩ := ih
    obtain ⟨l'', hl'', hturn⟩ := c.exists_turns hl'
    exact ⟨l'', hl'', hturns c l' l'' hturn hP'⟩
  | meanwhile _ _ _ _ ih => exact ih

/-- Lights that were new when added are registered under their aids and sound, and calls change only their
numbers, and those only of lights that the call names. A taken aid is refused, and nothing changes. -/
theorem lights_steady (h₀ : b₀.lights = .empty) (h : Leads LightAccessory.IsNew b₀ b)
    (h' : Leads LightAccessory.IsNew b b') :
    (∀ aid l, b.lights.get? aid = some l →
      l.aid = aid ∧ l.accessory.Sound ∧ ∃ l', b'.lights.get? aid = some l' ∧ l'.outline = l.outline) ∧
    (∀ l : LightAccessory, if b.lights.contains l.aid then b.add l = (.error (.duplicate l.aid), b)
      else (b.add l).1 = .ok () ∧ (b.add l).2.lights.get? l.aid = some l) ∧
    ∀ (c : Call) aid l, b.lights.get? aid = some l → ¬ c.Names l → (c.run b).lights.get? aid = some l := by
  have hsound := h.forall_lights (P := fun aid l => l.aid = aid ∧ l.accessory.Sound)
    (by
      rintro _ ⟨aid, name, entityId, state, registry, rfl⟩
      exact ⟨rfl, LightAccessory.sound_create ..⟩)
    (fun c aid l l' hturns ⟨haid, hl⟩ =>
      have hsteady := hturns.steady hl
      ⟨hsteady.aid_eq.trans haid, hsteady.sound⟩)
    (by rw [h₀]; nofun)
  refine ⟨fun aid l hl => ?_, fun l => ?_, fun c aid l hl hnames => ?_⟩
  · obtain ⟨haid, hs⟩ := hsound aid l hl
    obtain ⟨l', hl', hsteady⟩ := h'.exists_light (P := l.Steady) hl (.refl hs)
      fun c _ _ hturns hsteady => hsteady.trans (hturns.steady hsteady.sound)
    exact ⟨haid, hs, l', hl', hsteady.outline⟩
  · rw [add]
    split
    · rfl
    · exact ⟨rfl, Table.get?_insert_self ..⟩
  · obtain ⟨l', hl', hturns⟩ := c.exists_turns hl
    rw [hl', hturns.eq_of_not_names hnames]

/-- A lamp whose limits are upside down: it is written to beyond every range, and then removed. -/
theorem lights_steady_lamp :
    let lamp : LightAccessory := .create 2 "Lamp" "light.lamp" none (some (.record [
      ("supported_color_modes", .arr [.str "color_temp", .str "hs"]),
      ("min_mireds", .int 500), ("max_mireds", .int 200)]))
    let supply : Supply := ⟨0, ⟨0, 0⟩⟩
    let write (iid value : String) : String :=
      "\x7b\"aid\":2,\"iid\":" ++ iid ++ ",\"value\":" ++ value ++ "\x7d"
    let body := "\x7b\"characteristics\":[" ++ write "16" "300" ++ "," ++ write "9" "-7" ++ "]\x7d"
    let b₀ : Bridge := { publisher := { bus := { capacity := 16 } }, supply }
    let b := Call.run b₀ (.add lamp)
    let written := Call.run b (.put body.toUTF8.toList)
    let b' := Call.run written (.handle (Event.make .stateChanged (some "light.lamp") (.record []) supply).1)
    b.lights.get? 2 = some lamp ∧
    (lamp.accessory.characteristic? 16).bind (·.range) = some ⟨500, 500⟩ ∧ lamp.accessory.Sound ∧
    written.lights.get? 2 ≠ some lamp ∧
    (∃ l', b'.lights.get? 2 = some l' ∧ l'.outline = lamp.outline) ∧
    b.add lamp = (.error (.duplicate 2), b) := by
  intro lamp supply write body b₀ b written b'
  have hadded : Leads LightAccessory.IsNew b₀ b :=
    .call .refl (.add lamp) (by
      rintro _ ⟨⟩
      exact ⟨_, _, _, _, _, rfl⟩)
  have hlater : Leads LightAccessory.IsNew b b' := .call (.call .refl (.put _) nofun) (.handle _) nofun
  obtain ⟨hkept, hadd, -⟩ := lights_steady rfl hadded hlater
  have hlamp : b.lights.get? 2 = some lamp := rfl
  obtain ⟨-, hsound, hsame⟩ := hkept 2 lamp hlamp
  exact ⟨hlamp, by decide +kernel, hsound, by decide +kernel, hsame, hadd lamp⟩

end Bridge

end HomeHub.HomeKit
