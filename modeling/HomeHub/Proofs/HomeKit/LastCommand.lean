import HomeHub.Proofs.HomeKit.LastValues
import HomeHub.Proofs.HomeKit.Numbering

/-!
# The last command of a batch

A batch of writes comes to at most one command for each service of a light, the one for the primary
service first, and the platform obeys the last one. A command switches off if and only if the batch
switches its service off, that is if the last number that it writes for whether the service is on, or for
its brightness, is not positive: these numbers are clamped to ranges that start at zero
(`Accessory.Standard`). So the temperature service of a dual light decides whether a light that is
switched on stays on (`LightAccessory.last_command`).
-/

namespace HomeHub.HomeKit

/-! ### Ranges -/

theorem Range.clamp_eq_zero {most n : Int} (h : 0 < most) : Range.clamp ⟨0, most⟩ n = 0 ↔ n ≤ 0 := by
  simp only [clamp]
  omega

theorem Range.map_clamp_eq_some_zero {most : Int} (h : 0 < most) (last : Option Int) :
    last.map (clamp ⟨0, most⟩) = some 0 ↔ ∃ n ∈ last, n ≤ 0 := by
  rw [Option.map_eq_some_iff]
  exact exists_congr fun n => and_congr_right fun _ => clamp_eq_zero h

namespace Characteristic

/-- Only the range of a colour temperature may be the light's own. -/
def Standard (c : Characteristic) : Prop := c.kind ≠ .colorTemperature → c.range = c.kind.range?

/-- Stores a number if there is one. -/
def setNumber? (c : Characteristic) (n : Option Int) : Characteristic := n.elim c c.setNumber

/-- Of two numbers the later one counts. -/
theorem setNumber?_setNumber? (c : Characteristic) (m n : Option Int) :
    (c.setNumber? m).setNumber? n = c.setNumber? (n.or m) := by
  cases n <;> cases m <;> rfl

theorem number?_setNumber {c : Characteristic} {r : Range} (h : c.range = some r) (n : Int) :
    (c.setNumber n).number? = some (r.clamp n) := by
  simp only [number?, setNumber, h]
  rfl

end Characteristic

namespace Accessory

def Standard (a : Accessory) : Prop := ∀ c ∈ a.characteristics, c.Standard

/-! What holds of new characteristics whatever text they are given holds of new accessories. -/

section

variable {P : Characteristic → Prop} (htext : ∀ c s, c.kind.isText = true → P c → P (c.setText s))
include htext

theorem forall_create (hnew : ∀ kind iid, P (.create kind iid)) (aid : Nat) (name : String)
    (category : Category) (plans : List ServicePlan) :
    ∀ c ∈ (create aid name category plans).characteristics, P c := by
  have hbuilt : ∀ c ∈ (⟨aid, category, name, ServicePlan.buildAll 1 (.information :: plans)⟩ :
      Accessory).characteristics, P c := forall_buildAll hnew rfl
  refine forall_modifyService hbuilt (fun _ => rfl) (fun c hc => ?_) 0
  unfold describe
  split
  · next hkind => exact htext c _ (hkind ▸ rfl) (hbuilt c hc)
  · next hkind => exact htext c _ (hkind ▸ rfl) (hbuilt c hc)
  · exact hbuilt c hc

theorem forall_setInformation {a : Accessory} (h : ∀ c ∈ a.characteristics, P c)
    (manufacturer model serialNumber : String) :
    ∀ c ∈ (a.setInformation manufacturer model serialNumber).characteristics, P c := by
  simp only [Accessory.setInformation]
  split
  · refine forall_modifyService h (fun _ => rfl) (fun c hc => ?_) _
    split
    · next hkind => exact htext c _ (hkind ▸ rfl) (h c hc)
    · next hkind => exact htext c _ (hkind ▸ rfl) (h c hc)
    · next hkind => exact htext c _ (hkind ▸ rfl) (h c hc)
    · exact h c hc
  · exact h

end

end Accessory

namespace LightAccessory

variable {l : LightAccessory} {writes : List (Nat × Int)}

theorem forall_blank {P : Characteristic → Prop}
    (htext : ∀ c s, c.kind.isText = true → P c → P (c.setText s))
    (hnew : ∀ kind iid, P (.create kind iid))
    (hinitial : ∀ c bulb x, P x → P (initial c bulb x)) (aid : Nat) (name entityId : String)
    (c : Light.Capabilities) : ∀ x ∈ (blank aid name entityId c).accessory.characteristics, P x := by
  have hfill (bulbs : List Bulb) (a : Accessory) (ha : ∀ x ∈ a.characteristics, P x) :
      ∀ x ∈ (bulbs.foldl (fun a bulb =>
        a.modifyService bulb.index (·.mapCharacteristics (initial c bulb))) a).characteristics, P x := by
    induction bulbs generalizing a with
    | nil => exact ha
    | cons bulb r ih =>
      exact ih _ (Accessory.forall_modifyService ha (fun _ => rfl)
        (fun x hx => hinitial c bulb x (ha x hx)) _)
  have hinformed := Accessory.forall_setInformation htext
    (Accessory.forall_create htext hnew aid name .lightbulb ((bulbs c).map fun bulb =>
      ⟨.lightbulb, .on :: bulbKinds c bulb⟩)) "homelink" "light" entityId
  refine hfill (bulbs c) _ (Accessory.forall_modifyService hinformed (fun s => ?_) hinformed _)
  exact (List.map_id _).symm

theorem standard_initial (c : Light.Capabilities) (bulb : Bulb) (x : Characteristic) (h : x.Standard) :
    (initial c bulb x).Standard := by
  unfold initial
  split
  · exact h
  · exact h
  · exact h
  · next hkind =>
    have hlabel := x.label_setRange c.minMireds c.maxMireds
    exact fun hne => absurd ((congrArg Prod.snd hlabel).trans hkind) hne
  · exact h
  · exact h

theorem standard_blank (aid : Nat) (name entityId : String) (c : Light.Capabilities) :
    (blank aid name entityId c).accessory.Standard :=
  forall_blank (fun _ _ _ h => h) (fun _ _ _ => rfl) standard_initial aid name entityId c

/-! What holds of a characteristic whatever number it is given is not lost by use. -/

section

variable {P : Characteristic → Prop} (hset : ∀ c n, P c → P (c.setNumber n))
include hset

theorem forall_set (h : ∀ c ∈ l.accessory.characteristics, P c) (f : Feature) (n : Int) :
    ∀ c ∈ (l.set f n).accessory.characteristics, P c := by
  unfold set
  split
  · exact Accessory.forall_modify h fun c hc _ => hset c n (h c hc)
  · exact h

theorem forall_setAll (h : ∀ c ∈ l.accessory.characteristics, P c) (values : List (Feature × Int)) :
    ∀ c ∈ (l.setAll values).accessory.characteristics, P c := by
  induction values generalizing l with
  | nil => exact h
  | cons p r ih => exact ih (forall_set hset h p.1 p.2)

theorem forall_update (h : ∀ c ∈ l.accessory.characteristics, P c) (e : Option Entity) :
    ∀ c ∈ (l.update e).accessory.characteristics, P c := by
  have hon := forall_setAll hset h (l.onValues e)
  cases e with
  | none => exact hon
  | some e => exact forall_setAll hset hon _

theorem forall_setValues (h : ∀ c ∈ l.accessory.characteristics, P c) (bulb : Bulb)
    (values : List (Kind × Int)) : ∀ c ∈ (l.setValues bulb values).2.accessory.characteristics, P c := by
  refine Accessory.forall_modifyService h (fun _ => rfl) (fun c hc => ?_) _
  split
  · exact hset c _ (h c hc)
  · exact h c hc

theorem forall_writeTo (h : ∀ c ∈ l.accessory.characteristics, P c) (bulb : Bulb)
    (writes : List (Nat × Int)) : ∀ c ∈ (l.writeTo bulb writes).2.accessory.characteristics, P c := by
  rw [writeTo_eq]
  split
  · exact h
  · exact forall_setValues hset h _ _

theorem Built.forall_characteristics (h : Built l) (hblank : ∀ aid name entityId capabilities,
    ∀ c ∈ (blank aid name entityId capabilities).accessory.characteristics, P c) :
    ∀ c ∈ l.accessory.characteristics, P c := by
  induction h with
  | create aid name entityId state registry =>
    cases state with
    | some e => exact forall_update hset (hblank _ _ _ _) _
    | none => cases registry <;> exact hblank _ _ _ _
  | update _ e ih => exact forall_update hset ih e
  | write _ writes ih => exact forall_writeTo hset (forall_writeTo hset ih _ _) _ _
  | setValues _ bulb values ih => exact forall_setValues hset ih _ _

end

theorem Built.standard (h : Built l) : l.accessory.Standard :=
  h.forall_characteristics (fun _ _ hc => hc) standard_blank

theorem isDual_writeTo (l : LightAccessory) (bulb : Bulb) (writes : List (Nat × Int)) :
    (l.writeTo bulb writes).2.isDual = l.isDual := by
  rw [writeTo_eq]
  split <;> rfl

end LightAccessory

/-! ### The last number of a characteristic -/

namespace Accessory.Distinct

variable {a : Accessory} {s : Service} {i : Nat} {c : Characteristic}

theorem characteristic? (h : Distinct a.labels) (hs : a.services[i]? = some s)
    (hc : c ∈ s.characteristics) : a.characteristic? c.iid = some c := by
  obtain ⟨j, hj⟩ := exists_at? hs hc
  exact characteristic?_of_at? h.nodup_iids hj

theorem serviceIndex? (h : Distinct a.labels) (hs : a.services[i]? = some s)
    (hc : c ∈ s.characteristics) : a.serviceIndex? c.iid = some i := by
  obtain ⟨j, hj⟩ := exists_at? hs hc
  exact serviceIndex?_of_at? h.nodup_iids hj

end Accessory.Distinct

theorem Service.characteristic?_mapCharacteristics {g : Characteristic → Characteristic}
    (hg : ∀ c, (g c).kind = c.kind) (s : Service) (kind : Kind) :
    (s.mapCharacteristics g).characteristic? kind = (s.characteristic? kind).map g := by
  rw [characteristic?, mapCharacteristics, List.find?_map]
  simp only [Function.comp_def, hg]
  rfl

namespace LightAccessory

variable {l : LightAccessory} {writes : List (Nat × Int)}

/-- The last number that is written to a characteristic of the light. -/
def lastWritten (l : LightAccessory) (f : Feature) (writes : List (Nat × Int)) : Option Int :=
  (l.iid? f).bind fun iid => writes.reverse.lookup iid

theorem feature?_eq (l : LightAccessory) (f : Feature) : l.feature? f =
    (l.accessory.services[(l.place f).1.index]?).bind (·.characteristic? (l.place f).2) := rfl

/-- The number of a characteristic is told by the labels. -/
theorem iid?_eq (l : LightAccessory) (f : Feature) :
    l.iid? f = ((l.accessory.labels[(l.place f).1.index]?).bind
      (·.find? (·.2 = (l.place f).2))).map Prod.fst := by
  simp only [iid?, feature?_eq, Accessory.labels, List.getElem?_map]
  cases l.accessory.services[(l.place f).1.index]? with
  | none => rfl
  | some s =>
    simp only [Option.bind_some, Option.map_some, Service.labels, List.find?_map, Option.map_map]
    rfl

/-- So is where a write goes. -/
theorem writable?_eq (l : LightAccessory) (bulb : Bulb) (iid : Nat) : l.writable? bulb iid =
    (l.accessory.labels.flatten.find? (·.1 = iid)).bind fun label =>
      if label.2.isWritable && l.accessory.labels.findIdx? (·.any (·.1 = iid)) = some bulb.index then
        some label.2
      else none := by
  have hindex : l.accessory.serviceIndex? iid = l.accessory.labels.findIdx? (·.any (·.1 = iid)) := by
    rw [Accessory.labels, List.findIdx?_map]
    simp only [Function.comp_def, Service.labels, List.any_map]
    rfl
  rw [Accessory.flatten_labels, List.find?_map, Option.bind_map, ← hindex]
  rfl

theorem writesTo_congr {l' : LightAccessory} (h : l'.layout = l.layout) (bulb : Bulb)
    (writes : List (Nat × Int)) : l'.writesTo bulb writes = l.writesTo bulb writes := by
  have hlabels : l'.accessory.labels = l.accessory.labels := congrArg Prod.snd h
  have hwritable (iid : Nat) : l'.writable? bulb iid = l.writable? bulb iid := by
    rw [writable?_eq, writable?_eq, hlabels]
  simp only [writesTo_eq, hwritable]

/-- A characteristic of a service can be written to if its kind can. -/
theorem writable?_of_mem (hdistinct : Accessory.Distinct l.accessory.labels) {bulb : Bulb} {s : Service}
    {c : Characteristic} (hs : l.accessory.services[bulb.index]? = some s) (hc : c ∈ s.characteristics)
    (hwritable : c.kind.isWritable = true) : l.writable? bulb c.iid = some c.kind := by
  simp only [writable?, hdistinct.characteristic? hs hc, Option.bind_eq_bind, Option.bind_some,
    hdistinct.serviceIndex? hs hc, hwritable, decide_true, Bool.and_self, ↓reduceIte]
  rfl

theorem writable?_iff (hdistinct : Accessory.Distinct l.accessory.labels) (f : Feature) (iid : Nat) :
    l.writable? (l.place f).1 iid = some (l.place f).2 ↔ l.iid? f = some iid := by
  constructor
  · intro h
    obtain ⟨s, hs, hlabel⟩ := exists_of_writable? hdistinct h
    have hlabels : l.accessory.labels[(l.place f).1.index]? = some s.labels := by
      rw [Accessory.labels, List.getElem?_map, hs]
      rfl
    have hfind := find?_of_nodup_map (hdistinct.kinds _ (List.mem_of_getElem? hlabels)) hlabel
    rw [iid?_eq, hlabels, Option.bind_some, hfind]
    rfl
  · intro h
    obtain ⟨c, hc, rfl⟩ := Option.map_eq_some_iff.1 h
    rw [feature?_eq] at hc
    obtain ⟨s, hs, hc⟩ := Option.bind_eq_some_iff.1 hc
    obtain ⟨hmem, hkind⟩ := Service.of_characteristic? hc
    have hwritable : (l.place f).2.isWritable = true := by cases f <;> rfl
    rw [← hkind] at hwritable ⊢
    exact writable?_of_mem hdistinct hs hmem hwritable

theorem lastOf_writesTo (hdistinct : Accessory.Distinct l.accessory.labels) (f : Feature)
    (writes : List (Nat × Int)) :
    lastOf (l.writesTo (l.place f).1 writes) (l.place f).2 = l.lastWritten f writes := by
  have hiff := writable?_iff hdistinct f
  rw [lastOf, writesTo_eq, ← List.filterMap_reverse, lastWritten]
  cases hiid : l.iid? f with
  | none =>
    refine lookup_filterMap_eq_none (fun iid h => ?_) _
    cases hiid.symm.trans ((hiff iid).1 h)
  | some iid =>
    refine lookup_filterMap (fun j => ?_) _
    rw [hiff, hiid, Option.some.injEq, eq_comm]

/-! ### What a command says -/

/-- The call that switches a light on, with the brightness and the colour that it is given. -/
def onCall (entityId : String) (brightness : Option Int) (color : Option (String × Json)) : ServiceCall :=
  let call := ServiceCall.forEntity "light" "turn_on" entityId
  let call := brightness.elim call fun n => call.withField "brightness_pct" (.int n)
  color.elim call fun p => call.withField p.1 p.2

theorem service_onCall (entityId : String) (brightness : Option Int) (color : Option (String × Json)) :
    (onCall entityId brightness color).service = "turn_on" := by
  cases brightness <;> cases color <;> rfl

/-- A light is switched off by a state of zero, and by a brightness of zero whatever the state is. -/
theorem call_command (l : LightAccessory) (bulb : Bulb) (stored : Kind → Option Int) :
    (l.command bulb stored).call =
      if stored .on = some 0 ∨ stored .brightness = some 0 then .forEntity "light" "turn_off" l.entityId
      else onCall l.entityId (stored .brightness) ((l.colorField bulb stored).map fun f => (f.1, f.2.1)) := by
  have hoff : (if stored .brightness = some 0 then some 0 else stored .on) = some 0 ↔
      stored .on = some 0 ∨ stored .brightness = some 0 := by
    split <;> simp_all
  simp only [command]
  by_cases h : stored .on = some 0 ∨ stored .brightness = some 0
  · rw [if_pos (hoff.2 h), if_pos h]
  · rw [if_neg (mt hoff.1 h), if_neg h]
    cases l.colorField bulb stored <;> cases stored .brightness <;> rfl

theorem service_command (l : LightAccessory) (bulb : Bulb) (stored : Kind → Option Int) :
    (l.command bulb stored).call.service =
      if stored .on = some 0 ∨ stored .brightness = some 0 then "turn_off" else "turn_on" := by
  rw [call_command, apply_ite ServiceCall.service, service_onCall]
  rfl

/-- What was written to a characteristic of a service replaces its number. -/
theorem feature?_store (l : LightAccessory) (index : Nat) (values : List (Kind × Int)) (f : Feature) :
    (l.store index values).feature? f = (l.feature? f).map fun c =>
      if index = (l.place f).1.index then c.setNumber? (lastOf values (l.place f).2) else c := by
  have hplace : (l.store index values).place f = l.place f := rfl
  rw [feature?_eq, feature?_eq, hplace, store, Accessory.modifyService, List.getElem?_modify]
  cases l.accessory.services[(l.place f).1.index]? with
  | none => rfl
  | some s =>
    by_cases hindex : index = (l.place f).1.index
    · simp only [hindex, ↓reduceIte, Option.map_eq_map, Option.map_some, Option.bind_some]
      rw [Service.characteristic?_mapCharacteristics]
      · refine Option.map_congr fun c hc => ?_
        rw [(Service.of_characteristic? hc).2]
        cases lastOf values (l.place f).2 <;> rfl
      · intro c
        split <;> rfl
    · simp [hindex]

theorem range_of_feature? (hstandard : l.accessory.Standard) {f : Feature} {c : Characteristic}
    (hc : l.feature? f = some c) (hf : (l.place f).2 ≠ .colorTemperature) :
    c.range = (l.place f).2.range? := by
  obtain ⟨hmem, hkind⟩ := of_feature? hc
  rw [hstandard c hmem (hkind ▸ hf), hkind]

/-- What a service holds of a kind that was written to it is the last number, clamped. -/
theorem stored_writesTo (hdistinct : Accessory.Distinct l.accessory.labels)
    (hstandard : l.accessory.Standard) {f : Feature} (hf : (l.place f).2 ≠ .colorTemperature) {r : Range}
    (hr : (l.place f).2.range? = some r) (writes : List (Nat × Int)) :
    (l.store (l.place f).1.index (l.writesTo (l.place f).1 writes)).stored (l.place f).1.index
      (l.writesTo (l.place f).1 writes) (l.place f).2 = (l.lastWritten f writes).map r.clamp := by
  have hlast := lastOf_writesTo hdistinct f writes
  rw [stored, hlast]
  cases hwritten : l.lastWritten f writes with
  | none => rfl
  | some n =>
    rw [hwritten] at hlast
    obtain ⟨iid, hiid, -⟩ := Option.bind_eq_some_iff.1 hwritten
    obtain ⟨c, hc, -⟩ := Option.map_eq_some_iff.1 hiid
    have hstored := l.feature?_store (l.place f).1.index (l.writesTo (l.place f).1 writes) f
    simp only [hlast, hc, ↓reduceIte, Option.map_some] at hstored
    rw [Option.isSome_some, if_pos rfl]
    refine (congrArg (Option.bind · Characteristic.number?) hstored).trans ?_
    exact Characteristic.number?_setNumber ((range_of_feature? hstandard hc hf).trans hr) n

end LightAccessory

/-! ### Switching off -/

/-- Whether a service is on. -/
def Bulb.on : Bulb → Feature
  | .primary => .onPrimary
  | .secondary => .onSecondary

def Bulb.brightness : Bulb → Feature
  | .primary => .brightnessPrimary
  | .secondary => .brightnessSecondary

namespace LightAccessory

variable {l : LightAccessory} {writes : List (Nat × Int)}

/-- The last number for whether a service is on, or for its brightness, is not positive. -/
def switchesOff (l : LightAccessory) (bulb : Bulb) (writes : List (Nat × Int)) : Bool :=
  [bulb.on, bulb.brightness].any fun f => (l.lastWritten f writes).any (· ≤ 0)

theorem place_on (l : LightAccessory) (bulb : Bulb) : l.place bulb.on = (bulb, .on) := by
  cases bulb <;> rfl

theorem place_brightness (l : LightAccessory) (bulb : Bulb) :
    l.place bulb.brightness = (bulb, .brightness) := by
  cases bulb <;> rfl

theorem switchesOff_iff (l : LightAccessory) (bulb : Bulb) (writes : List (Nat × Int)) :
    l.switchesOff bulb writes = true ↔
      (∃ n ∈ l.lastWritten bulb.on writes, n ≤ 0) ∨ ∃ n ∈ l.lastWritten bulb.brightness writes, n ≤ 0 := by
  simp [switchesOff, Option.any_eq_true]

/-- What switches a service off does not depend on what its characteristics hold. -/
theorem switchesOff_congr {l' : LightAccessory} (h : l'.layout = l.layout) (bulb : Bulb)
    (writes : List (Nat × Int)) : l'.switchesOff bulb writes = l.switchesOff bulb writes := by
  have hlabels : l'.accessory.labels = l.accessory.labels := congrArg Prod.snd h
  simp only [switchesOff, List.any_cons, List.any_nil, lastWritten, iid?_eq, place_on, place_brightness,
    hlabels]

/-- A service that is not written to is not switched off. -/
theorem switchesOff_eq_false (hdistinct : Accessory.Distinct l.accessory.labels) {bulb : Bulb}
    (h : l.writesTo bulb writes = []) : l.switchesOff bulb writes = false := by
  have hon := lastOf_writesTo hdistinct bulb.on writes
  have hbrightness := lastOf_writesTo hdistinct bulb.brightness writes
  rw [place_on, h] at hon
  rw [place_brightness, h] at hbrightness
  simp only [switchesOff, List.any_cons, List.any_nil, ← hon, ← hbrightness]
  rfl

/-- What the command for a service says. There is one if something is written to the service. -/
def order? (l : LightAccessory) (bulb : Bulb) (writes : List (Nat × Int)) : Option String :=
  if l.writesTo bulb writes = [] then none
  else some (if l.switchesOff bulb writes then "turn_off" else "turn_on")

theorem order?_congr {l' : LightAccessory} (h : l'.layout = l.layout) (bulb : Bulb)
    (writes : List (Nat × Int)) : l'.order? bulb writes = l.order? bulb writes := by
  rw [order?, order?, writesTo_congr h, switchesOff_congr h]

theorem services_writeTo (hdistinct : Accessory.Distinct l.accessory.labels)
    (hstandard : l.accessory.Standard) (dual : l.isDual = true) (bulb : Bulb)
    (writes : List (Nat × Int)) :
    (l.writeTo bulb writes).1.map (·.call.service) = (l.order? bulb writes).toList := by
  have hon := stored_writesTo hdistinct hstandard (f := bulb.on) (r := ⟨0, 1⟩)
    (by rw [place_on]; nofun) (by rw [place_on]; rfl) writes
  have hbrightness := stored_writesTo hdistinct hstandard (f := bulb.brightness) (r := ⟨0, 100⟩)
    (by rw [place_brightness]; nofun) (by rw [place_brightness]; rfl) writes
  rw [place_on] at hon
  rw [place_brightness] at hbrightness
  rw [writeTo_eq, order?]
  split
  · rfl
  · simp only [setValues, dual, ↓reduceIte, List.map_cons, List.map_nil, Option.toList_some,
      service_command, hon, hbrightness, switchesOff_iff,
      Range.map_clamp_eq_some_zero (show (0 : Int) < 1 by decide),
      Range.map_clamp_eq_some_zero (show (0 : Int) < 100 by decide)]

/-- What is written to the one service leaves the command for the other as it is. -/
theorem services_write (built : Built l) (dual : l.isDual = true) (writes : List (Nat × Int)) :
    (l.write writes).1.map (·.call.service) =
      (l.order? .primary writes).toList ++ (l.order? .secondary writes).toList := by
  let l' := (l.writeTo .primary writes).2
  have hlayout : l'.layout = l.layout := l.layout_writeTo .primary writes
  have hdistinct : Accessory.Distinct l'.layout.2 := hlayout ▸ built.distinct
  have hstandard : l'.accessory.Standard :=
    forall_writeTo (fun _ _ hc => hc) built.standard .primary writes
  have dual' : l'.isDual = true := (l.isDual_writeTo .primary writes).trans dual
  have hwrite : (l.write writes).1 = (l.writeTo .primary writes).1 ++ (l'.writeTo .secondary writes).1 :=
    rfl
  rw [hwrite, List.map_append, services_writeTo built.distinct built.standard dual,
    services_writeTo hdistinct hstandard dual', order?_congr hlayout]

/-- A dual light gets one command for each service that a batch writes to, which switches off if the batch
switches the service off. So if any command switches on, the last one does too, unless the batch switches
the temperature service off: then the light goes off, whatever is written to the colour service. -/
theorem last_command (built : Built l) (dual : l.isDual = true) (writes : List (Nat × Int)) :
    (l.write writes).1.map (·.call.service) =
      (l.order? .primary writes).toList ++ (l.order? .secondary writes).toList ∧
    ((∃ c ∈ (l.write writes).1, c.call.service = "turn_on") →
      ∃ c, (l.write writes).1.getLast? = some c ∧
        c.call.service = if l.switchesOff .secondary writes then "turn_off" else "turn_on") := by
  have hservices := services_write built dual writes
  refine ⟨hservices, fun ⟨c, hc, hon⟩ => ?_⟩
  have hmem : "turn_on" ∈ (l.write writes).1.map (·.call.service) := hon ▸ List.mem_map_of_mem hc
  have hlast : ((l.write writes).1.map (·.call.service)).getLast? =
      some (if l.switchesOff .secondary writes then "turn_off" else "turn_on") := by
    rw [hservices] at hmem ⊢
    rw [List.getLast?_append]
    by_cases h : l.writesTo .secondary writes = []
    · -- the one command is for the primary service, and switches on
      have hnone : l.order? .secondary writes = none := if_pos h
      rw [hnone, Option.toList_none, List.append_nil] at hmem
      rw [hnone, switchesOff_eq_false built.distinct h, Option.mem_toList.1 hmem]
      rfl
    · have horder : l.order? .secondary writes =
          some (if l.switchesOff .secondary writes then "turn_off" else "turn_on") := if_neg h
      rw [horder]
      rfl
  rw [List.getLast?_map] at hlast
  exact Option.map_eq_some_iff.1 hlast

/-- A lamp stays on if its temperature service is switched on and the other one off, not the other way
round. -/
theorem last_command_lamp :
    let lamp : LightAccessory := .create 2 "Lamp" "light.desk" none
      (some (.record [("supported_color_modes", .arr [.str "color_temp", .str "hs"])]))
    let switch (primary secondary : Int) : List (Nat × Int) := [(8, primary), (14, secondary)]
    lamp.isDual = true ∧
    (∃ c, (lamp.write (switch 0 1)).1.getLast? = some c ∧ c.call.service = "turn_on") ∧
    ∃ c, (lamp.write (switch 1 0)).1.getLast? = some c ∧ c.call.service = "turn_off" := by
  intro lamp switch
  have built : Built lamp := .create ..
  have dual : lamp.isDual = true := by decide +kernel
  have hon {writes : List (Nat × Int)} (h : "turn_on" ∈ (lamp.write writes).1.map (·.call.service)) :
      ∃ c ∈ (lamp.write writes).1, c.call.service = "turn_on" := List.mem_map.1 h
  have hfirst := (last_command built dual (switch 0 1)).2 (hon (by decide +kernel))
  have hsecond := (last_command built dual (switch 1 0)).2 (hon (by decide +kernel))
  rw [show lamp.switchesOff .secondary (switch 0 1) = false by decide +kernel] at hfirst
  rw [show lamp.switchesOff .secondary (switch 1 0) = true by decide +kernel] at hsecond
  exact ⟨dual, hfirst, hsecond⟩

/-- A lamp whose colour service is switched on and whose temperature service is switched off goes off. -/
theorem not_always_last_on : ¬ ∀ (l : LightAccessory) (writes : List (Nat × Int)), Built l →
    l.isDual = true → (∃ c ∈ (l.write writes).1, c.call.service = "turn_on") →
    ∃ c, (l.write writes).1.getLast? = some c ∧ c.call.service = "turn_on" := by
  intro h
  let lamp : LightAccessory := .create 2 "Lamp" "light.desk" none
    (some (.record [("supported_color_modes", .arr [.str "color_temp", .str "hs"])]))
  have hcommands : (lamp.write [(8, 1), (14, 0)]).1.map (·.call.service) = ["turn_on", "turn_off"] := by
    decide +kernel
  have hon : "turn_on" ∈ (lamp.write [(8, 1), (14, 0)]).1.map (·.call.service) := by
    rw [hcommands]
    exact List.mem_cons_self
  obtain ⟨c, hc, hservice⟩ := h lamp [(8, 1), (14, 0)] (.create ..) (by decide +kernel) (List.mem_map.1 hon)
  have hlast : ((lamp.write [(8, 1), (14, 0)]).1.map (·.call.service)).getLast? = some "turn_on" := by
    rw [List.getLast?_map, hc, Option.map_some, hservice]
  rw [hcommands] at hlast
  exact absurd hlast (by decide)

end LightAccessory

end HomeHub.HomeKit
