import HomeHub.Proofs.HomeKit.Features

/-!
# Lights in use

What a light shows is what its entity and the controller said last: after any uses each feature holds the
last number that one of them gave it (`feature?_after`), and no use looks at what the other features hold.

So an update leaves one service of a dual light off, but a write switches a service on whatever the other
one shows (`both_on_iff`). And an entity that is on without saying how bright it is leaves a brightness of
zero as it is, be it written or shown while the light was off (`shines_iff`).
-/

namespace HomeHub.HomeKit.LightAccessory

variable {l : LightAccessory}

/-! ### Uses -/

/-- What a light is called with. -/
inductive Use where
  | update (e : Option Entity)
  | write (writes : List (Nat × Int))

def Use.run (l : LightAccessory) : Use → LightAccessory
  | .update e => l.update e
  | .write writes => (l.write writes).2

/-- The number that a use gives a feature, if it gives it one. -/
def Use.setting? (l : LightAccessory) (f : Feature) : Use → Option Int
  | .update e => (l.shown e).reverse.lookup f
  | .write writes => l.lastWritten f writes

/-- The light after one use after the other. -/
def after (l : LightAccessory) (uses : List Use) : LightAccessory := uses.foldl Use.run l

/-- The last number that uses give a feature. -/
def lastSetting (l : LightAccessory) (f : Feature) (uses : List Use) : Option Int :=
  uses.reverse.findSome? (·.setting? l f)

theorem after_concat (l : LightAccessory) (uses : List Use) (u : Use) :
    l.after (uses ++ [u]) = u.run (l.after uses) := List.foldl_append

theorem lastSetting_concat (l : LightAccessory) (f : Feature) (uses : List Use) (u : Use) :
    l.lastSetting f (uses ++ [u]) = (u.setting? l f).or (l.lastSetting f uses) := by
  rw [lastSetting, List.reverse_append, List.reverse_singleton, List.singleton_append,
    List.findSome?_cons]
  cases u.setting? l f <;> rfl

theorem IsNew.built (h : IsNew l) : Built l := by
  obtain ⟨aid, name, entityId, state, registry, rfl⟩ := h
  exact .create ..

theorem Built.run (h : Built l) (u : Use) : Built (u.run l) := by
  cases u with
  | update e => exact h.update e
  | write writes => exact h.write writes

theorem Built.after (h : Built l) (uses : List Use) : Built (l.after uses) := by
  induction uses generalizing l with
  | nil => exact h
  | cons u r ih => exact ih (h.run u)

theorem layout_run (l : LightAccessory) (u : Use) : (u.run l).layout = l.layout := by
  cases u with
  | update e => exact l.layout_update e
  | write writes => exact l.layout_write writes

theorem profile_run (l : LightAccessory) (u : Use) : (u.run l).profile = l.profile := by
  cases u with
  | update e => exact l.profile_update e
  | write writes => exact l.profile_write writes

theorem layout_after (l : LightAccessory) (uses : List Use) : (l.after uses).layout = l.layout := by
  induction uses generalizing l with
  | nil => rfl
  | cons u r ih => exact (ih _).trans (l.layout_run u)

theorem profile_after (l : LightAccessory) (uses : List Use) : (l.after uses).profile = l.profile := by
  induction uses generalizing l with
  | nil => rfl
  | cons u r ih => exact (ih _).trans (l.profile_run u)

theorem shown_congr {l' : LightAccessory} (h : l'.profile = l.profile) (e : Option Entity) :
    l'.shown e = l.shown e := by
  obtain ⟨a, id, c⟩ := l
  obtain ⟨a', id', c'⟩ := l'
  cases h
  rfl

theorem Use.setting?_congr {l' : LightAccessory} (hlayout : l'.layout = l.layout)
    (hprofile : l'.profile = l.profile) (f : Feature) (u : Use) : u.setting? l' f = u.setting? l f := by
  cases u with
  | update e => rw [setting?, setting?, shown_congr hprofile]
  | write writes => exact lastWritten_congr hlayout hprofile f writes

theorem feature?_run (h : Built l) (u : Use) (f : Feature) :
    (u.run l).feature? f = (l.feature? f).map (·.setNumber? (u.setting? l f)) := by
  cases u with
  | update e => exact feature?_update h.distinct e f
  | write writes => exact feature?_write h writes f

theorem feature?_after (h : Built l) (uses : List Use) (f : Feature) :
    (l.after uses).feature? f =
      (l.feature? f).map (·.setNumber? (l.lastSetting f uses)) := by
  induction uses using List.reverseRecOn with
  | nil => exact (Option.map_id' ..).symm
  | append_singleton uses u ih =>
    rw [after_concat, feature?_run (h.after uses), ih, Option.map_map,
      Use.setting?_congr (l.layout_after uses) (l.profile_after uses), lastSetting_concat]
    exact congrArg (Option.map · (l.feature? f)) (funext fun c => c.setNumber?_setNumber? ..)

/-- A feature whose range is the usual one holds the last number that uses gave it, clamped, or else what
it held before. -/
theorem value?_after (h : Built l) {f : Feature} {r : Range} (hr : (l.place f).2.range? = some r)
    (hf : (l.place f).2 ≠ .colorTemperature) (uses : List Use) : (l.after uses).value? f =
      (l.value? f).map fun n => ((l.lastSetting f uses).map r.clamp).getD n := by
  rw [value?, feature?_after h, value?]
  cases hc : l.feature? f with
  | none => rfl
  | some c =>
    have hrange : c.range = some r := (range_of_feature? h.standard hc hf).trans hr
    obtain ⟨hmem, hkind⟩ := of_feature? hc
    obtain ⟨n, -, hn, -⟩ := h.number? c hmem (hkind ▸ l.isText_place f)
    simp only [Option.map_some, Option.bind_some, hn]
    cases l.lastSetting f uses with
    | none => exact hn
    | some m => exact Characteristic.number?_setNumber hrange m

/-- A feature that cannot be negative is positive if the last number that uses gave it is. -/
theorem value?_after_pos_iff (h : Built l) {f : Feature} {most : Int} (hmost : 0 < most)
    (hr : (l.place f).2.range? = some ⟨0, most⟩) (hsome : (l.feature? f).isSome) (uses : List Use) :
    (∃ n ∈ (l.after uses).value? f, 1 ≤ n ∧ n ≤ most) ↔
      ∃ n ∈ (l.lastSetting f uses).or (l.value? f), 0 < n := by
  have hf : (l.place f).2 ≠ .colorTemperature := by
    intro hkind
    rw [hkind] at hr
    cases hr
  obtain ⟨v, hv, hleast, hle⟩ : ∃ v, l.value? f = some v ∧ 0 ≤ v ∧ v ≤ most := h.exists_value? hf hr hsome
  rw [value?_after h hr hf, hv]
  cases l.lastSetting f uses with
  | none =>
    simp only [Option.map_none, Option.map_some, Option.getD_none, Option.none_or, Option.mem_def,
      Option.some.injEq, exists_eq_left']
    omega
  | some n =>
    simp only [Option.map_some, Option.getD_some, Option.some_or, Option.mem_def, Option.some.injEq,
      exists_eq_left', Range.clamp]
    omega

/-! ### Which service is on -/

/-- Both services of the light show that it is on. -/
def BothOn (l : LightAccessory) : Prop := ∀ bulb : Bulb, l.value? bulb.on = some 1

theorem mem_bulbs_of_isDual (dual : l.isDual = true) (bulb : Bulb) : bulb ∈ bulbs l.capabilities := by
  cases bulb with
  | primary => exact mem_bulbs_primary _
  | secondary => exact mem_bulbs_secondary.2 dual

theorem value?_on_after_eq_one_iff (h : Built l) {bulb : Bulb} (hbulb : bulb ∈ bulbs l.capabilities)
    (uses : List Use) : (l.after uses).value? bulb.on = some 1 ↔
      ∃ n ∈ (l.lastSetting bulb.on uses).or (l.value? bulb.on), 0 < n := by
  rw [← value?_after_pos_iff h (show (0 : Int) < 1 by decide) (by rw [place_on]; rfl) (h.isSome_on hbulb)]
  constructor
  · exact fun hone => ⟨1, hone, by decide, by decide⟩
  · rintro ⟨n, hn, hpos, hle⟩
    rw [Option.mem_def.1 hn, Int.le_antisymm hle hpos]

/-! An update sets each feature in one of its four parts. -/

theorem fst_onValues_subset (l : LightAccessory) (e : Option Entity) :
    (l.onValues e).map Prod.fst ⊆ [.onPrimary, .onSecondary] := by
  unfold onValues
  split
  · split <;> exact List.Subset.refl _
  · exact List.subset_append_left [Feature.onPrimary] [.onSecondary]

theorem fst_brightnessValues_subset (l : LightAccessory) (e : Entity) :
    (l.brightnessValues e).map Prod.fst ⊆ [.brightnessPrimary, .brightnessSecondary] := by
  unfold brightnessValues
  split
  · exact List.Subset.refl _
  · exact List.nil_subset _

theorem fst_temperatureValues_subset (l : LightAccessory) (e : Entity) :
    (l.temperatureValues e).map Prod.fst ⊆ [.colorTemperature] := by
  unfold temperatureValues
  split
  · exact List.Subset.refl _
  · exact List.nil_subset _

theorem fst_colorValues_subset (l : LightAccessory) (e : Entity) :
    (l.colorValues e).map Prod.fst ⊆ [.hue, .saturation] := by
  unfold colorValues
  split
  · exact List.Subset.refl _
  · exact List.nil_subset _

theorem lookup_eq_none {values : List (Feature × Int)} {features : List Feature}
    (h : values.map Prod.fst ⊆ features) {f : Feature} (hf : f ∉ features) :
    values.reverse.lookup f = none := by
  refine List.lookup_eq_none_iff.2 fun p hp => bne_iff_ne.2 ?_
  rintro rfl
  exact hf (h (List.mem_map_of_mem (List.mem_reverse.1 hp)))

/-- The last part that sets a feature tells what it is set to. -/
theorem lookup_shown (l : LightAccessory) (e : Entity) (f : Feature) :
    (l.shown (some e)).reverse.lookup f =
      (((l.colorValues e).reverse.lookup f).or ((l.temperatureValues e).reverse.lookup f)).or
        (((l.brightnessValues e).reverse.lookup f).or ((l.onValues (some e)).reverse.lookup f)) := by
  simp only [shown, List.reverse_append, List.lookup_append, Option.or_assoc]

theorem lookup_shown_on (l : LightAccessory) (e : Option Entity) (bulb : Bulb) :
    (l.shown e).reverse.lookup bulb.on = (l.onValues e).reverse.lookup bulb.on := by
  cases e with
  | none => rw [shown, List.append_nil]
  | some e =>
    rw [lookup_shown, lookup_eq_none (l.fst_colorValues_subset e) (by cases bulb <;> decide),
      lookup_eq_none (l.fst_temperatureValues_subset e) (by cases bulb <;> decide),
      lookup_eq_none (l.fst_brightnessValues_subset e) (by cases bulb <;> decide)]
    rfl

/-- An update leaves one of the services off. -/
theorem exists_shown_off (dual : l.isDual = true) (e : Option Entity) :
    ∃ bulb : Bulb, (l.shown e).reverse.lookup bulb.on = some 0 := by
  by_cases hmode : e.bind Light.colorMode? = some .colorTemp
  · refine ⟨.primary, (lookup_shown_on ..).trans ?_⟩
    simp only [onValues, dual, hmode, ↓reduceIte]
    rfl
  · refine ⟨.secondary, (lookup_shown_on ..).trans ?_⟩
    simp only [onValues, dual, hmode, ↓reduceIte]
    rfl

theorem not_bothOn_update (hdistinct : Accessory.Distinct l.accessory.labels)
    (hstandard : l.accessory.Standard) (dual : l.isDual = true) (e : Option Entity) :
    ¬ (l.update e).BothOn := by
  intro hboth
  obtain ⟨bulb, hoff⟩ := exists_shown_off dual e
  have hone : (l.update e).value? bulb.on = some 1 := hboth bulb
  rw [value?, feature?_update hdistinct, hoff] at hone
  obtain ⟨_, hc', hone⟩ := Option.bind_eq_some_iff.1 hone
  obtain ⟨c, hc, rfl⟩ := Option.map_eq_some_iff.1 hc'
  have hrange : c.range = some ⟨0, 1⟩ := by
    rw [range_of_feature? hstandard hc (by simp [place_on]), place_on]
    rfl
  cases (Characteristic.number?_setNumber hrange 0).symm.trans hone

theorem not_bothOn_blank (aid : Nat) (name entityId : String) (c : Light.Capabilities) :
    ¬ (blank aid name entityId c).BothOn := by
  have hoff := forall_blank (P := fun x => x.kind = .on → x.number? = some 0)
    (fun x s htext _ (hkind : x.kind = .on) => by
      rw [hkind] at htext
      cases htext)
    (fun kind iid (hkind : kind = .on) => by
      rw [hkind]
      rfl)
    (fun c bulb x hx hkind => by
      have hkind' : x.kind = .on := (congrArg Prod.snd (label_initial c bulb x)).symm.trans hkind
      rw [initial, hkind']
      exact hx hkind') aid name entityId c
  intro hboth
  obtain ⟨c, hc, hone⟩ := Option.bind_eq_some_iff.1 (hboth .primary)
  obtain ⟨hmem, hkind⟩ := of_feature? hc
  cases (hoff c hmem hkind).symm.trans hone

/-- No new light shows both of its services on. -/
theorem IsNew.not_bothOn (h : IsNew l) (dual : l.isDual = true) : ¬ l.BothOn := by
  obtain ⟨aid, name, entityId, state, registry, rfl⟩ := h
  cases state with
  | some e =>
    have hdual : (blank aid name entityId (.ofEntity e)).isDual = true :=
      (isDual_congr (profile_update ..)).symm.trans dual
    exact not_bothOn_update (sound_blank ..).distinct (standard_blank aid name entityId _) hdual (some e)
  | none =>
    cases registry with
    | some j => exact not_bothOn_blank aid name entityId (.ofJson j)
    | none => exact not_bothOn_blank aid name entityId {}

/-- Both services of a dual light are on if and only if the last number that uses gave each of them for it
is positive. A new light is not shown so, and no update leaves it so, but writes may. -/
theorem both_on_iff (new : IsNew l) (dual : l.isDual = true) (uses : List Use) :
    ((l.after uses).BothOn ↔
      ∀ bulb : Bulb, ∃ n ∈ (l.lastSetting bulb.on uses).or (l.value? bulb.on), 0 < n) ∧
    ¬ l.BothOn ∧ ∀ e, ¬ (l.after (uses ++ [.update e])).BothOn := by
  have built : Built l := new.built
  refine ⟨forall_congr' fun bulb => value?_on_after_eq_one_iff built (mem_bulbs_of_isDual dual bulb) uses,
    new.not_bothOn dual, fun e => ?_⟩
  have dual' : (l.after uses).isDual = true := (isDual_congr (l.profile_after uses)).trans dual
  rw [after_concat]
  exact not_bothOn_update (built.after uses).distinct (built.after uses).standard dual' e

/-- A lamp is on in its colour mode when its temperature service is switched on too, and again when the
one service is switched off. -/
theorem both_on_lamp :
    let lamp : LightAccessory := .create 2 "Lamp" "light.desk" none
      (some (.record [("supported_color_modes", .arr [.str "color_temp", .str "hs"])]))
    let on : Entity := { (default : Entity) with state := .on }
    IsNew lamp ∧ lamp.isDual = true ∧
    (lamp.after [.update (some on), .write [(14, 1)]]).BothOn ∧
    ¬ (lamp.after [.update (some on), .write [(14, 1)], .write [(8, 0)]]).BothOn ∧
    ¬ (lamp.after ([.write [(8, 1), (14, 1)]] ++ [.update (some on)])).BothOn := by
  intro lamp on
  have new : IsNew lamp := ⟨2, "Lamp", "light.desk", none, _, rfl⟩
  have dual : lamp.isDual = true := by decide +kernel
  have hswitched := (both_on_iff new dual [.update (some on), .write [(14, 1)]]).1
  have hoff := (both_on_iff new dual [.update (some on), .write [(14, 1)], .write [(8, 0)]]).1
  refine ⟨new, dual, hswitched.2 fun bulb => ⟨1, ?_, by decide⟩, fun hboth => ?_, ?_⟩
  · cases bulb <;> decide +kernel
  · obtain ⟨n, hn, hpos⟩ := hoff.1 hboth .primary
    have hzero : (lamp.lastSetting Bulb.primary.on [.update (some on), .write [(14, 1)],
        .write [(8, 0)]]).or (lamp.value? Bulb.primary.on) = some 0 := by decide +kernel
    cases hzero.symm.trans hn
    exact absurd hpos (by decide)
  · exact (both_on_iff new dual [.write [(8, 1), (14, 1)]]).2.2 (some on)

/-- A lamp whose colour mode is that of its temperature service shows both services on when the other one
is switched on. -/
theorem not_always_one_on : ¬ ∀ (l : LightAccessory) (uses : List Use), IsNew l → l.isDual = true →
    ¬ (l.after uses).BothOn := by
  intro h
  let lamp : Entity := { (default : Entity) with
    state := .on
    attributes := .ofList [("color_mode", .text "color_temp"),
      ("supported_color_modes", .json (.arr [.str "color_temp", .str "hs"]))] }
  refine h (.create 2 "Desk" "light.desk" (some lamp) none) [.write [(8, 1)]] ⟨_, _, _, _, _, rfl⟩
    (by decide +kernel) fun bulb => ?_
  cases bulb <;> decide +kernel

/-! ### How bright a light is shown -/

/-- Every brightness of the light is that of one that is on. -/
def Shines (l : LightAccessory) : Prop :=
  ∀ c ∈ l.accessory.characteristics, c.kind = .brightness → ∃ n ∈ c.number?, 1 ≤ n ∧ n ≤ 100

theorem lookup_shown_brightness (hb : l.capabilities.hasBrightness = true) (e : Entity) (bulb : Bulb) :
    (l.shown (some e)).reverse.lookup bulb.brightness =
      (Light.brightness? e).map fun b => (brightnessPercent b e.state.isOn : Int) := by
  rw [lookup_shown, lookup_eq_none (l.fst_colorValues_subset e) (by cases bulb <;> decide),
    lookup_eq_none (l.fst_temperatureValues_subset e) (by cases bulb <;> decide),
    lookup_eq_none (l.fst_onValues_subset (some e)) (by cases bulb <;> decide),
    Option.none_or, Option.none_or, Option.or_none, brightnessValues, hb, if_pos rfl]
  cases Light.brightness? e with
  | none => rfl
  | some b => cases bulb <;> rfl

/-- The services of a light that can be dimmed show how bright it is. -/
theorem Built.shines_iff_value? (h : Built l) (hb : l.capabilities.hasBrightness = true) :
    l.Shines ↔ ∀ bulb ∈ bulbs l.capabilities, ∃ n ∈ l.value? bulb.brightness, 1 ≤ n ∧ n ≤ 100 := by
  constructor
  · intro hall bulb hbulb
    obtain ⟨c, hc⟩ := Option.isSome_iff_exists.1 (h.isSome_brightness hb hbulb)
    obtain ⟨hmem, hkind⟩ := of_feature? hc
    rw [place_brightness] at hkind
    rw [value?, hc]
    exact hall c hmem hkind
  · intro hall c hc hkind
    obtain ⟨bulb, hbulb, hfind⟩ := h.exists_bulb hc (hkind ▸ rfl)
    have hfeature : l.feature? bulb.brightness = some c := by
      rw [feature?_eq, place_brightness, ← hkind]
      exact hfind
    have hvalue := hall bulb hbulb
    rwa [value?, hfeature] at hvalue

/-- A light that can be dimmed and is on shows a brightness between 1 and 100 on each service if and only
if its entity says how bright it is, or the last number that each service was given for it is positive. -/
theorem shines_iff (new : IsNew l) (hb : l.capabilities.hasBrightness = true) (uses : List Use) {e : Entity}
    (hon : e.state.isOn = true) : (l.after (uses ++ [.update (some e)])).Shines ↔
      (Light.brightness? e).isSome ∨ ∀ bulb ∈ bulbs l.capabilities,
        ∃ n ∈ (l.lastSetting bulb.brightness uses).or (l.value? bulb.brightness), 0 < n := by
  have built : Built l := new.built
  have hcapabilities : (l.after (uses ++ [.update (some e)])).capabilities = l.capabilities :=
    congrArg Prod.snd (l.profile_after _)
  have hpos (bulb : Bulb) (hbulb : bulb ∈ bulbs l.capabilities) (uses : List Use) :=
    value?_after_pos_iff built (show (0 : Int) < 100 by decide) (f := bulb.brightness)
      (by rw [place_brightness]; rfl) (built.isSome_brightness hb hbulb) uses
  have hlast (bulb : Bulb) : l.lastSetting bulb.brightness (uses ++ [.update (some e)]) =
      ((Light.brightness? e).map fun b => (brightnessPercent b true : Int)).or
        (l.lastSetting bulb.brightness uses) := by
    rw [lastSetting_concat, ← hon, ← lookup_shown_brightness hb e bulb]
    rfl
  rw [(built.after _).shines_iff_value? (hcapabilities ▸ hb), hcapabilities]
  cases hbrightness : Light.brightness? e with
  | some b =>
    refine iff_of_true (fun bulb hbulb => (hpos bulb hbulb _).2 ?_) (.inl rfl)
    rw [hlast, hbrightness]
    exact ⟨brightnessPercent b true, rfl, Int.natCast_pos.2 (shownPercent_pos _)⟩
  | none =>
    rw [Option.isSome_none, or_iff_right Bool.false_ne_true]
    refine forall₂_congr fun bulb hbulb => (hpos bulb hbulb _).trans ?_
    rw [hlast, hbrightness]
    rfl

/-- A lamp was dimmed to nothing. It is shown bright again when its entity says so, and when a controller
does. -/
theorem shines_lamp :
    let lamp : LightAccessory := .create 2 "Lamp" "light.desk" none
      (some (.record [("supported_color_modes", .arr [.str "brightness"])]))
    let on : Entity := { (default : Entity) with state := .on }
    let dim : Entity := { on with attributes := .ofList [("brightness", .int 1)] }
    IsNew lamp ∧ lamp.capabilities.hasBrightness = true ∧
    (lamp.after ([.write [(9, 0)]] ++ [.update (some dim)])).Shines ∧
    (lamp.after ([.write [(9, 0)], .write [(9, 40)]] ++ [.update (some on)])).Shines := by
  intro lamp on dim
  have new : IsNew lamp := ⟨_, _, _, _, _, rfl⟩
  have hb : lamp.capabilities.hasBrightness = true := by decide +kernel
  refine ⟨new, hb, (shines_iff new hb _ rfl).2 (.inl (by decide +kernel)),
    (shines_iff new hb _ rfl).2 (.inr ?_)⟩
  have hbulbs : bulbs lamp.capabilities = [.primary] := by decide +kernel
  intro bulb hbulb
  rw [hbulbs] at hbulb
  cases List.mem_singleton.1 hbulb
  exact ⟨40, by decide +kernel, by decide⟩

/-- A lamp that was dimmed to nothing is on, and its entity does not say how bright. -/
theorem not_always_shines : ¬ ∀ (l : LightAccessory) (uses : List Use) (e : Entity), IsNew l →
    l.capabilities.hasBrightness = true → e.state.isOn = true →
    (l.after (uses ++ [.update (some e)])).Shines := by
  intro h
  let lamp : LightAccessory := .create 2 "Desk" "light.desk" none
    (some (.record [("supported_color_modes", .arr [.str "brightness"])]))
  let on : Entity := { (default : Entity) with state := .on }
  have hdark : (lamp.after ([.write [(9, 0)]] ++ [.update (some on)])).value? .brightnessPrimary = some 0 := by
    decide +kernel
  obtain ⟨c, hc, hzero⟩ := Option.bind_eq_some_iff.1 hdark
  obtain ⟨hmem, hkind⟩ := of_feature? hc
  obtain ⟨n, hn, hpos, -⟩ :=
    h lamp [.write [(9, 0)]] on ⟨_, _, _, _, _, rfl⟩ (by decide +kernel) rfl c hmem hkind
  cases hzero.symm.trans hn
  exact absurd hpos (by decide)

end HomeHub.HomeKit.LightAccessory
