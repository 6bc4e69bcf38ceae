import HomeHub.Proofs.HomeKit.LastCommand

/-!
# The features of a light

What a light consists of follows from what it can do (`Built.kinds`): the service of a bulb has the
characteristics that the plan of the bulb names, and all numbers but those of the information service are
features. A feature that is set holds that number, and every other feature holds what it held before
(`feature?_set`). So showing an entity and taking in writes come to the last number for each feature.
-/

namespace HomeHub.HomeKit

/-! ### What an accessory consists of -/

theorem ServicePlan.kinds_buildAll (plans : List ServicePlan) (iid : Nat) :
    (buildAll iid plans).map (fun s => s.labels.map Prod.snd) = plans.map (·.characteristics) := by
  have hplans := congrArg (List.map (·.characteristics)) (map_ofService_buildAll plans iid)
  rw [List.map_map] at hplans
  exact (List.map_congr_left fun s _ => s.map_snd_labels).trans hplans

theorem Accessory.labels_setInformation (a : Accessory) (manufacturer model serialNumber : String) :
    (a.setInformation manufacturer model serialNumber).labels = a.labels := by
  rw [setInformation]
  split
  · refine labels_modifyService (fun c => ?_) (fun _ => rfl) _
    split <;> rfl
  · rfl

theorem Bulb.index_inj {bulb bulb' : Bulb} : bulb.index = bulb'.index ↔ bulb = bulb' := by
  cases bulb <;> cases bulb' <;> decide

theorem mem_bulbs_primary (c : Light.Capabilities) : Bulb.primary ∈ bulbs c := by
  unfold bulbs
  split <;> exact List.mem_cons_self

theorem mem_bulbs_secondary {c : Light.Capabilities} : Bulb.secondary ∈ bulbs c ↔ isDual c = true := by
  unfold bulbs
  split <;> simp_all

theorem eq_primary_of_mem_bulbs {c : Light.Capabilities} {bulb : Bulb} (h : bulb ∈ bulbs c)
    (single : isDual c ≠ true) : bulb = .primary := by
  cases bulb with
  | primary => rfl
  | secondary => exact absurd (mem_bulbs_secondary.1 h) single

/-- The service of a bulb stands at its index. -/
theorem getElem?_bulbs (c : Light.Capabilities) {bulb : Bulb} {i : Nat} (h : bulb.index = i + 1) :
    (bulbs c)[i]? = if bulb ∈ bulbs c then some bulb else none := by
  unfold bulbs
  cases bulb <;> cases h <;> split <;> rfl

theorem index_of_getElem?_bulbs {c : Light.Capabilities} {bulb : Bulb} {i : Nat}
    (h : (bulbs c)[i]? = some bulb) : bulb ∈ bulbs c ∧ bulb.index = i + 1 := by
  refine ⟨List.mem_of_getElem? h, ?_⟩
  unfold bulbs at h
  split at h
  · rcases i with - | - | i
    · cases h; rfl
    · cases h; rfl
    · cases h
  · rcases i with - | i
    · cases h; rfl
    · cases h

namespace LightAccessory

variable {l : LightAccessory}

/-! ### What a light consists of -/

/-- What a light stands for and what it can do. -/
def profile (l : LightAccessory) : String × Light.Capabilities := (l.entityId, l.capabilities)

theorem profile_set (l : LightAccessory) (f : Feature) (n : Int) : (l.set f n).profile = l.profile := by
  unfold set
  split <;> rfl

theorem profile_setAll (l : LightAccessory) (values : List (Feature × Int)) :
    (l.setAll values).profile = l.profile := by
  induction values generalizing l with
  | nil => rfl
  | cons p r ih => exact (ih _).trans (l.profile_set p.1 p.2)

theorem profile_update (l : LightAccessory) (e : Option Entity) : (l.update e).profile = l.profile := by
  cases e <;> simp only [update, profile_setAll]

theorem profile_writeTo (l : LightAccessory) (bulb : Bulb) (writes : List (Nat × Int)) :
    (l.writeTo bulb writes).2.profile = l.profile := by
  rw [writeTo_eq]
  split <;> rfl

theorem profile_write (l : LightAccessory) (writes : List (Nat × Int)) :
    (l.write writes).2.profile = l.profile :=
  (profile_writeTo _ .secondary writes).trans (l.profile_writeTo .primary writes)

theorem labels_blank (aid : Nat) (name entityId : String) (c : Light.Capabilities) :
    (blank aid name entityId c).accessory.labels =
      (ServicePlan.buildAll 1 (.information :: (bulbs c).map fun bulb =>
        ⟨.lightbulb, .on :: bulbKinds c bulb⟩)).map Service.labels := by
  have hfill (bulbs : List Bulb) (a : Accessory) : (bulbs.foldl (fun a bulb =>
      a.modifyService bulb.index (·.mapCharacteristics (initial c bulb))) a).labels = a.labels := by
    induction bulbs generalizing a with
    | nil => rfl
    | cons bulb r ih =>
      exact (ih _).trans (Accessory.labels_modifyService (label_initial c bulb) (fun _ => rfl) _)
  refine (hfill (bulbs c) _).trans ?_
  refine (Accessory.labels_modifyService (f := id) (fun _ => rfl) (fun s => ?_) _).trans ?_
  · exact (List.map_id _).symm
  · exact (Accessory.labels_setInformation ..).trans
      (Accessory.labels_modifyService (Accessory.label_describe name) (fun _ => rfl) _)

/-- The services of a light are those that its capabilities call for. -/
theorem Built.kinds (h : Built l) : l.accessory.labels.map (·.map Prod.snd) =
    ServicePlan.information.characteristics ::
      (bulbs l.capabilities).map fun bulb => .on :: bulbKinds l.capabilities bulb := by
  have hkept {l l' : LightAccessory} (hlayout : l'.layout = l.layout) (hprofile : l'.profile = l.profile)
      (h : l.layout.2.map (·.map Prod.snd) = ServicePlan.information.characteristics ::
        (bulbs l.profile.2).map fun bulb => .on :: bulbKinds l.profile.2 bulb) :
      l'.layout.2.map (·.map Prod.snd) = ServicePlan.information.characteristics ::
        (bulbs l'.profile.2).map fun bulb => .on :: bulbKinds l'.profile.2 bulb := by
    rwa [hlayout, hprofile]
  have hblank (aid : Nat) (name entityId : String) (c : Light.Capabilities) :
      (blank aid name entityId c).layout.2.map (·.map Prod.snd) =
        ServicePlan.information.characteristics ::
          (bulbs c).map fun bulb => .on :: bulbKinds c bulb := by
    rw [layout, labels_blank, List.map_map]
    refine (ServicePlan.kinds_buildAll ..).trans ?_
    rw [List.map_cons, List.map_map]
    rfl
  induction h with
  | create aid name entityId state registry =>
    cases state with
    | some e => exact hkept (layout_update ..) (profile_update ..) (hblank ..)
    | none =>
      cases registry with
      | some j => exact hblank aid name entityId (.ofJson j)
      | none => exact hblank aid name entityId {}
  | update _ e ih => exact hkept (layout_update ..) (profile_update ..) ih
  | write _ writes ih => exact hkept (layout_write ..) (profile_write ..) ih
  | setValues _ bulb values ih => exact hkept (layout_setValues ..) rfl ih

/-- The kinds of a service, if the light has one for the bulb. -/
theorem Built.kinds_at (h : Built l) (bulb : Bulb) :
    (l.accessory.services[bulb.index]?).map (fun s => s.labels.map Prod.snd) =
      if bulb ∈ bulbs l.capabilities then some (.on :: bulbKinds l.capabilities bulb) else none := by
  have hkinds := congrArg (·[bulb.index]?) h.kinds
  obtain ⟨i, hi⟩ : ∃ i, bulb.index = i + 1 := by cases bulb <;> exact ⟨_, rfl⟩
  simp only [Accessory.labels, List.map_map, List.getElem?_map, hi, List.getElem?_cons_succ,
    getElem?_bulbs _ hi] at hkinds
  rw [hi]
  refine hkinds.trans ?_
  split <;> rfl

/-! ### Which features a light has -/

theorem place_inj (l : LightAccessory) {f g : Feature} (h : l.place f = l.place g) : f = g := by
  cases f <;> cases g <;> simp_all [place]

theorem Built.isSome_characteristic? (h : Built l) (bulb : Bulb) (kind : Kind) :
    ((l.accessory.services[bulb.index]?).bind (·.characteristic? kind)).isSome ↔
      bulb ∈ bulbs l.capabilities ∧ kind ∈ Kind.on :: bulbKinds l.capabilities bulb := by
  have hkinds := h.kinds_at bulb
  cases hs : l.accessory.services[bulb.index]? with
  | none =>
    rw [hs] at hkinds
    split at hkinds
    · cases hkinds
    · next hbulb => simp [hbulb]
  | some s =>
    rw [hs] at hkinds
    split at hkinds
    · next hbulb =>
      have hlabels : s.characteristics.map (·.kind) = Kind.on :: bulbKinds l.capabilities bulb :=
        s.map_snd_labels.symm.trans (Option.some.inj hkinds)
      rw [← hlabels, Option.bind_some, Service.characteristic?]
      simp [hbulb]
    · cases hkinds

theorem Built.isSome_feature? (h : Built l) (f : Feature) : (l.feature? f).isSome ↔
    (l.place f).1 ∈ bulbs l.capabilities ∧
      (l.place f).2 ∈ Kind.on :: bulbKinds l.capabilities (l.place f).1 :=
  h.isSome_characteristic? (l.place f).1 (l.place f).2

theorem Built.isSome_on (h : Built l) {bulb : Bulb} (hbulb : bulb ∈ bulbs l.capabilities) :
    (l.feature? bulb.on).isSome := by
  rw [h.isSome_feature?, place_on]
  exact ⟨hbulb, List.mem_cons_self⟩

theorem Built.isSome_brightness (h : Built l) (hb : l.capabilities.hasBrightness = true) {bulb : Bulb}
    (hbulb : bulb ∈ bulbs l.capabilities) : (l.feature? bulb.brightness).isSome := by
  rw [h.isSome_feature?, place_brightness]
  refine ⟨hbulb, List.mem_cons_of_mem _ ?_⟩
  cases bulb with
  | primary => simp [bulbKinds, hb]
  | secondary => simp [bulbKinds, mem_bulbs_secondary.1 hbulb]

theorem Built.isSome_colorTemperature (h : Built l) :
    (l.feature? .colorTemperature).isSome = l.capabilities.hasColorTemp := by
  rw [Bool.eq_iff_iff, h.isSome_feature?]
  by_cases dual : HomeKit.isDual l.capabilities = true
  · have hcolorTemp : l.capabilities.hasColorTemp = true := (Bool.and_eq_true_iff.1 dual).2
    simp [place, isDual, dual, bulbKinds, mem_bulbs_secondary, hcolorTemp]
  · simp [place, isDual, dual, bulbKinds, mem_bulbs_primary]

theorem Built.isSome_color (h : Built l) {f : Feature} (hf : f = .hue ∨ f = .saturation) :
    (l.feature? f).isSome = l.capabilities.hasColor := by
  rw [Bool.eq_iff_iff, h.isSome_feature?]
  by_cases hcolor : l.capabilities.hasColor = true <;> by_cases htemp : l.capabilities.hasColorTemp = true <;>
    rcases hf with rfl | rfl <;> simp [place, bulbKinds, HomeKit.isDual, mem_bulbs_primary, hcolor, htemp]

/-- A number of the light that is none of the information service belongs to the service of a bulb, which
has no other one of its kind. -/
theorem Built.exists_bulb (h : Built l) {c : Characteristic} (hc : c ∈ l.accessory.characteristics)
    (hkind : c.kind.isText = false) : ∃ bulb ∈ bulbs l.capabilities,
      (l.accessory.services[bulb.index]?).bind (·.characteristic? c.kind) = some c := by
  obtain ⟨s, hs, hc⟩ := List.mem_flatMap.1 hc
  obtain ⟨i, hi⟩ := List.mem_iff_getElem?.1 hs
  have hlabels : l.accessory.labels[i]? = some s.labels := by
    rw [Accessory.labels, List.getElem?_map, hi]
    rfl
  have hmem : c.kind ∈ s.labels.map Prod.snd := List.mem_map_of_mem (List.mem_map_of_mem hc)
  have hkinds := congrArg (·[i]?) h.kinds
  simp only [List.getElem?_map, hlabels, Option.map_some] at hkinds
  obtain - | i := i
  · -- the information service has texts only
    rw [Option.some.inj hkinds] at hmem
    have htexts : ∀ kind ∈ ServicePlan.information.characteristics, kind.isText = true := by decide
    rw [htexts _ hmem] at hkind
    cases hkind
  · rw [List.getElem?_cons_succ, List.getElem?_map] at hkinds
    obtain ⟨bulb, hbulb, -⟩ := Option.map_eq_some_iff.1 hkinds.symm
    obtain ⟨hbulb, hindex⟩ := index_of_getElem?_bulbs hbulb
    have hnodup := h.distinct.kinds _ (List.mem_of_getElem? hlabels)
    rw [Service.map_snd_labels] at hnodup
    rw [← hindex] at hi
    exact ⟨bulb, hbulb, by rw [hi]; exact find?_of_nodup_map hnodup hc⟩

/-! ### What features hold -/

/-- A numeric characteristic holds a number in its range. -/
theorem Built.number? (h : Built l) : ∀ c ∈ l.accessory.characteristics, c.kind.isText = false →
    ∃ n r, c.number? = some n ∧ c.range = some r ∧ r.least ≤ n ∧ n ≤ r.most ∧ r.least ≤ r.most := by
  refine h.forall_characteristics (fun c n hc hkind => ?_) fun aid name entityId capabilities c hc hkind => ?_
  · obtain ⟨-, r, -, hr, -, -, hle⟩ := hc hkind
    refine ⟨r.clamp n, r, ?_, hr, ?_, ?_, hle⟩
    · exact Characteristic.number?_setNumber hr n
    · rw [Range.clamp]
      omega
    · exact Int.min_le_right ..
  · obtain ⟨n, r, hn, hr⟩ := ((sound_blank ..).sound c hc).number hkind
    exact ⟨n, r, congrArg Value.number? hn, hr⟩

/-- Every feature that a light has holds a number. -/
theorem Built.isSome_value? (h : Built l) (f : Feature) : (l.value? f).isSome = (l.feature? f).isSome := by
  rw [value?]
  cases hc : l.feature? f with
  | none => rfl
  | some c =>
    obtain ⟨hmem, hkind⟩ := of_feature? hc
    obtain ⟨n, -, hn, -⟩ := h.number? c hmem (hkind ▸ l.isText_place f)
    rw [Option.bind_some, hn]
    rfl

/-- The number of a feature whose range is the usual one lies in it. -/
theorem Built.exists_value? (h : Built l) {f : Feature} (hf : (l.place f).2 ≠ .colorTemperature) {r : Range}
    (hr : (l.place f).2.range? = some r) (hsome : (l.feature? f).isSome) :
    ∃ n, l.value? f = some n ∧ r.least ≤ n ∧ n ≤ r.most := by
  obtain ⟨c, hc⟩ := Option.isSome_iff_exists.1 hsome
  obtain ⟨hmem, hkind⟩ := of_feature? hc
  obtain ⟨n, r', hn, hr', hleast, hmost, -⟩ := h.number? c hmem (hkind ▸ l.isText_place f)
  have hrange : some r' = some r := hr'.symm.trans ((range_of_feature? h.standard hc hf).trans hr)
  cases hrange
  exact ⟨n, by rw [value?, hc]; exact hn, hleast, hmost⟩

theorem iid_eq_iff (hdistinct : Accessory.Distinct l.accessory.labels) {f g : Feature} {c d : Characteristic}
    (hc : l.feature? f = some c) (hd : l.feature? g = some d) : d.iid = c.iid ↔ g = f := by
  constructor
  · intro hiid
    obtain ⟨hmem, hkind⟩ := of_feature? hc
    obtain ⟨hmem', hkind'⟩ := of_feature? hd
    obtain ⟨s, hs, hcs⟩ := Option.bind_eq_some_iff.1 hc
    obtain ⟨s', hs', hds⟩ := Option.bind_eq_some_iff.1 hd
    have hindex := hdistinct.serviceIndex? hs (Service.of_characteristic? hcs).1
    rw [← hiid, hdistinct.serviceIndex? hs' (Service.of_characteristic? hds).1, Option.some.injEq,
      Bulb.index_inj] at hindex
    have hlabel := congrArg Prod.snd (hdistinct.label_eq hmem' hmem hiid)
    exact l.place_inj (Prod.ext hindex (hkind'.symm.trans (hlabel.trans hkind)))
  · rintro rfl
    cases hc.symm.trans hd
    rfl

/-- A feature that is set holds the number, and every other one what it held. -/
theorem feature?_set (hdistinct : Accessory.Distinct l.accessory.labels) (f g : Feature) (n : Int) :
    (l.set f n).feature? g = (l.feature? g).map fun c => if g = f then c.setNumber n else c := by
  unfold set
  cases hf : l.feature? f with
  | none =>
    simp only [iid?, hf, Option.map_none]
    cases hg : l.feature? g with
    | none => rfl
    | some d =>
      have hne : g ≠ f := by
        rintro rfl
        cases hf.symm.trans hg
      rw [Option.map_some, if_neg hne]
  | some c =>
    simp only [iid?, hf, Option.map_some]
    have hplace : ({ l with accessory := l.accessory.modify c.iid (·.setNumber n) } : LightAccessory).place g =
        l.place g := rfl
    have hkind (d : Characteristic) : (if d.iid = c.iid then d.setNumber n else d).kind = d.kind := by
      split <;> rfl
    rw [feature?_eq, hplace, feature?_eq, Accessory.modify, List.getElem?_map]
    cases hs : l.accessory.services[(l.place g).1.index]? with
    | none => rfl
    | some s =>
      rw [Option.map_some, Option.bind_some, Option.bind_some,
        Service.characteristic?_mapCharacteristics hkind]
      refine Option.map_congr fun d hd => ?_
      have hg : l.feature? g = some d := by rw [feature?_eq, hs]; exact hd
      exact if_congr (iid_eq_iff hdistinct hf hg) rfl rfl

/-- Of several numbers for a feature the last one counts. -/
theorem feature?_setAll (hdistinct : Accessory.Distinct l.accessory.labels) (values : List (Feature × Int))
    (g : Feature) : (l.setAll values).feature? g =
      (l.feature? g).map (·.setNumber? (values.reverse.lookup g)) := by
  induction values using List.reverseRecOn with
  | nil => exact (Option.map_id' ..).symm
  | append_singleton values p ih =>
    have hset : l.setAll (values ++ [p]) = (l.setAll values).set p.1 p.2 := List.foldl_append
    have hlabels : (l.setAll values).accessory.labels = l.accessory.labels :=
      congrArg Prod.snd (l.layout_setAll values)
    rw [hset, feature?_set (hlabels ▸ hdistinct), ih, Option.map_map, List.reverse_append]
    refine congrArg (Option.map · (l.feature? g)) (funext fun c => ?_)
    by_cases hg : g = p.1
    · rw [Function.comp_apply, if_pos hg, List.reverse_singleton, List.singleton_append, List.lookup_cons,
        beq_iff_eq.2 hg]
      cases values.reverse.lookup g <;> rfl
    · rw [Function.comp_apply, if_neg hg, List.reverse_singleton, List.singleton_append, List.lookup_cons,
        beq_eq_false_iff_ne.2 hg]

/-- What an update sets. -/
def shown (l : LightAccessory) (e : Option Entity) : List (Feature × Int) :=
  l.onValues e ++ match e with
    | some e => l.brightnessValues e ++ l.temperatureValues e ++ l.colorValues e
    | none => []

theorem update_eq (l : LightAccessory) (e : Option Entity) : l.update e = l.setAll (l.shown e) := by
  have happend (values values' : List (Feature × Int)) :
      l.setAll (values ++ values') = (l.setAll values).setAll values' := List.foldl_append
  have hcapabilities : (l.setAll (l.onValues e)).capabilities = l.capabilities :=
    congrArg Prod.snd (l.profile_setAll _)
  cases e with
  | none => exact (happend _ []).symm
  | some e =>
    simp only [update, shown, happend, brightnessValues, temperatureValues, colorValues, hcapabilities]

theorem feature?_update (hdistinct : Accessory.Distinct l.accessory.labels) (e : Option Entity)
    (f : Feature) : (l.update e).feature? f =
      (l.feature? f).map (·.setNumber? ((l.shown e).reverse.lookup f)) := by
  rw [update_eq, feature?_setAll hdistinct]

/-! #### Writes -/

theorem Built.writeTo (h : Built l) (bulb : Bulb) (writes : List (Nat × Int)) :
    Built (l.writeTo bulb writes).2 := by
  rw [writeTo_eq]
  split
  · exact h
  · exact h.setValues ..

/-- A service that is written to is one of the light. -/
theorem Built.mem_bulbs_of_writesTo (h : Built l) {bulb : Bulb} {writes : List (Nat × Int)}
    (hne : l.writesTo bulb writes ≠ []) : bulb ∈ bulbs l.capabilities := by
  obtain ⟨p, hp⟩ := List.exists_mem_of_ne_nil _ hne
  rw [writesTo_eq] at hp
  obtain ⟨w, -, hw⟩ := List.mem_filterMap.1 hp
  obtain ⟨kind, hkind, -⟩ := Option.map_eq_some_iff.1 hw
  obtain ⟨s, hs, -⟩ := exists_of_writable? h.distinct hkind
  have hkinds := h.kinds_at bulb
  rw [Option.mem_def.1 hs] at hkinds
  split at hkinds
  · assumption
  · cases hkinds

/-- Each bulb of a light has its own service. -/
theorem index_of_mem_bulbs {bulb : Bulb} (h : bulb ∈ bulbs l.capabilities) :
    (if l.isDual then bulb.index else Bulb.primary.index) = bulb.index := by
  cases bulb with
  | primary => exact ite_self _
  | secondary => exact if_pos (mem_bulbs_secondary.1 h)

theorem isDual_congr {l' : LightAccessory} (h : l'.profile = l.profile) : l'.isDual = l.isDual :=
  congrArg (fun p : String × Light.Capabilities => HomeKit.isDual p.2) h

theorem place_congr {l' : LightAccessory} (h : l'.profile = l.profile) (f : Feature) :
    l'.place f = l.place f := by
  cases f <;> simp only [place, isDual_congr h]

theorem lastWritten_congr {l' : LightAccessory} (hlayout : l'.layout = l.layout)
    (hprofile : l'.profile = l.profile) (f : Feature) (writes : List (Nat × Int)) :
    l'.lastWritten f writes = l.lastWritten f writes := by
  have hlabels : l'.accessory.labels = l.accessory.labels := congrArg Prod.snd hlayout
  simp only [lastWritten, iid?_eq, place_congr hprofile, hlabels]

theorem feature?_writeTo (h : Built l) (bulb : Bulb) (writes : List (Nat × Int)) (f : Feature) :
    (l.writeTo bulb writes).2.feature? f = (l.feature? f).map fun c =>
      if bulb = (l.place f).1 then c.setNumber? (l.lastWritten f writes) else c := by
  have hlast := lastOf_writesTo h.distinct f writes
  rw [writeTo_eq]
  split
  · next hnone =>
    refine (Option.map_id' ..).symm.trans (congrArg (Option.map · (l.feature? f)) (funext fun c => ?_))
    split
    · next hbulb =>
      rw [← hlast, ← hbulb, hnone]
      rfl
    · rfl
  · next hne =>
    rw [setValues, index_of_mem_bulbs (h.mem_bulbs_of_writesTo hne), feature?_store]
    refine congrArg (Option.map · (l.feature? f)) (funext fun c => ?_)
    by_cases hbulb : bulb = (l.place f).1
    · rw [if_pos (congrArg Bulb.index hbulb), if_pos hbulb, hbulb, hlast]
    · rw [if_neg (mt Bulb.index_inj.1 hbulb), if_neg hbulb]

/-- A batch of writes sets the features that it writes to. -/
theorem feature?_write (h : Built l) (writes : List (Nat × Int)) (f : Feature) :
    (l.write writes).2.feature? f =
      (l.feature? f).map (·.setNumber? (l.lastWritten f writes)) := by
  have hwrite : (l.write writes).2 = ((l.writeTo .primary writes).2.writeTo .secondary writes).2 := rfl
  have hprofile := l.profile_writeTo .primary writes
  rw [hwrite, feature?_writeTo (h.writeTo ..), feature?_writeTo h, place_congr hprofile,
    lastWritten_congr (l.layout_writeTo ..) hprofile, Option.map_map]
  refine congrArg (Option.map · (l.feature? f)) (funext fun c => ?_)
  cases (l.place f).1 <;> rfl

end LightAccessory

end HomeHub.HomeKit
