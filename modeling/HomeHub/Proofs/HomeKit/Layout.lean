import HomeHub.HomeKit.Bridge
import Mathlib.Data.List.Nodup

/-!
# The layout of an accessory

What controllers write and what entities become changes only the numbers of an accessory. The `outline`
of an accessory is all but those; its `labels` are the numbers and kinds of its characteristics, service
by service, by which a write is routed. An accessory is `Sound` if these tell its characteristics apart,
every number lies in its range and every text is a text. It is made so (`sound_create`), and stays so when
single characteristics change, also when a range is given its bounds upside down.
-/

namespace HomeHub.HomeKit

/-! ### Lists with one place changed, and with one found -/

theorem map_modify_eq {α β : Type} {g : α → β} {f : α → α} {i : Nat} {l : List α}
    (h : ∀ x ∈ l[i]?, g (f x) = g x) : (l.modify i f).map g = l.map g := by
  refine List.ext_getElem? fun j => ?_
  rw [List.getElem?_map, List.getElem?_map, List.getElem?_modify]
  cases hj : l[j]? with
  | none => rfl
  | some x =>
    by_cases hij : i = j
    · subst hij
      simp only [↓reduceIte, Option.map_eq_map, Option.map_some, h x hj]
    · simp only [hij, ↓reduceIte, Option.map_eq_map, Option.map_some]

theorem mem_of_mem_modify {α : Type} {f : α → α} {i : Nat} {l : List α} {x : α}
    (h : x ∈ l.modify i f) : x ∈ l ∨ ∃ y ∈ l[i]?, x = f y := by
  obtain ⟨j, hj⟩ := List.mem_iff_getElem?.1 h
  rw [List.getElem?_modify] at hj
  obtain ⟨y, hy, rfl⟩ := Option.map_eq_some_iff.1 hj
  by_cases hij : i = j
  · subst hij
    exact .inr ⟨y, hy, if_pos rfl⟩
  · rw [if_neg hij]
    exact .inl (List.mem_of_getElem? hy)

theorem find?_of_nodup_map {α β : Type} [DecidableEq β] {g : α → β} {xs : List α} (h : (xs.map g).Nodup)
    {x : α} (hx : x ∈ xs) : xs.find? (g · = g x) = some x := by
  cases hfind : xs.find? (g · = g x) with
  | none => exact absurd (decide_eq_true rfl) (List.find?_eq_none.1 hfind x hx)
  | some y =>
    have hy : g y = g x := by simpa using List.find?_some hfind
    exact congrArg some (List.inj_on_of_nodup_map h (List.mem_of_find?_eq_some hfind) hx hy)

/-! ### Characteristics -/

namespace Characteristic

variable {c : Characteristic}

/-- What tells the characteristics of an accessory apart. -/
def label (c : Characteristic) : Nat × Kind := (c.iid, c.kind)

/-- All but the number. -/
def outline (c : Characteristic) : Characteristic :=
  match c.value with
  | .number _ => { c with value := .number 0 }
  | .text _ => c

/-- A numeric characteristic holds a number in its range, a textual one a text. -/
structure Sound (c : Characteristic) : Prop where
  number : c.kind.isText = false → ∃ n r, c.value = .number n ∧ c.range = some r ∧
    r.least ≤ n ∧ n ≤ r.most ∧ r.least ≤ r.most
  text : c.kind.isText = true → ∃ s, c.value = .text s

@[simp] theorem label_setNumber (c : Characteristic) (n : Int) : (c.setNumber n).label = c.label := rfl

@[simp] theorem label_setText (c : Characteristic) (s : String) : (c.setText s).label = c.label := rfl

@[simp] theorem label_setRange (c : Characteristic) (low high : Int) :
    (c.setRange low high).label = c.label := by
  simp only [setRange]
  split <;> rfl

theorem sound_create (kind : Kind) (iid : Nat) : (create kind iid).Sound := by
  cases kind <;> exact ⟨fun h => by simp_all [create, Kind.isText, Kind.range?],
    fun h => by simp_all [create, Kind.isText]⟩

theorem Sound.setNumber (h : c.Sound) (hkind : c.kind.isText = false) (n : Int) :
    (c.setNumber n).Sound := by
  obtain ⟨-, r, -, hrange, -, -, hle⟩ := h.number hkind
  refine ⟨fun _ => ⟨r.clamp n, r, ?_, hrange, ?_, ?_, hle⟩, fun htext => ?_⟩
  · rw [Characteristic.setNumber, hrange]
    rfl
  · rw [Range.clamp]
    omega
  · exact Int.min_le_right ..
  · exact absurd (hkind.symm.trans htext) (by decide)

theorem Sound.setText (hkind : c.kind.isText = true) (s : String) : (c.setText s).Sound :=
  ⟨fun h => absurd (hkind.symm.trans h) (by decide), fun _ => ⟨s, rfl⟩⟩

/-- Bounds that are upside down make a range too, of the lower one only. -/
theorem Sound.setRange (h : c.Sound) (hkind : c.kind.isText = false) (low high : Int) :
    (c.setRange low high).Sound := by
  obtain ⟨n, -, hvalue, -⟩ := h.number hkind
  have hbounded : ({ c with value := .number low, range := some (.between low high) } :
      Characteristic).Sound :=
    ⟨fun _ => ⟨low, .between low high, rfl, rfl, Int.le_refl low, Int.le_max_right .., Int.le_max_right ..⟩,
      fun htext => absurd (hkind.symm.trans htext) (by decide)⟩
  have heq : c.setRange low high =
      ({ c with value := .number low, range := some (.between low high) } : Characteristic).setNumber n := by
    simp only [Characteristic.setRange, hvalue]
    rfl
  rw [heq]
  exact hbounded.setNumber hkind n

theorem Sound.outline_setNumber (h : c.Sound) (hkind : c.kind.isText = false) (n : Int) :
    (c.setNumber n).outline = c.outline := by
  obtain ⟨m, -, hvalue, -⟩ := h.number hkind
  simp only [outline, Characteristic.setNumber, hvalue]

end Characteristic

/-! ### Accessories -/

def Service.outline (s : Service) : Service := s.mapCharacteristics Characteristic.outline

/-- The labels of the characteristics of a service. -/
def Service.labels (s : Service) : List (Nat × Kind) := s.characteristics.map Characteristic.label

theorem Service.map_snd_labels (s : Service) : s.labels.map Prod.snd = s.characteristics.map (·.kind) :=
  List.map_map ..

theorem Service.of_characteristic? {s : Service} {kind : Kind} {c : Characteristic}
    (h : s.characteristic? kind = some c) : c ∈ s.characteristics ∧ c.kind = kind :=
  ⟨List.mem_of_find?_eq_some h, by simpa using List.find?_some h⟩

namespace Accessory

variable {a : Accessory} {f : Characteristic → Characteristic}

/-- All but the numbers of an accessory. -/
def outline (a : Accessory) : Accessory := { a with services := a.services.map Service.outline }

def labels (a : Accessory) : List (List (Nat × Kind)) := a.services.map Service.labels

/-- No two characteristics have one number, and none of one service are of one kind. -/
structure Distinct (labels : List (List (Nat × Kind))) : Prop where
  iids : (labels.flatten.map Prod.fst).Nodup
  kinds : ∀ service ∈ labels, (service.map Prod.snd).Nodup

structure Sound (a : Accessory) : Prop where
  distinct : Distinct a.labels
  sound : ∀ c ∈ a.characteristics, c.Sound

theorem flatten_labels (a : Accessory) : a.labels.flatten = a.characteristics.map Characteristic.label := by
  rw [labels, ← List.flatMap_def, characteristics, List.map_flatMap]
  rfl

theorem Distinct.nodup_iids (h : Distinct a.labels) : (a.characteristics.map (·.iid)).Nodup := by
  have hiids : a.labels.flatten.map Prod.fst = a.characteristics.map (·.iid) := by
    rw [flatten_labels, List.map_map]
    rfl
  exact hiids ▸ h.iids

theorem mem_labels {c : Characteristic} (hc : c ∈ a.characteristics) : c.label ∈ a.labels.flatten := by
  obtain ⟨s, hs, hcs⟩ := List.mem_flatMap.1 hc
  exact List.mem_flatten.2 ⟨_, List.mem_map_of_mem hs, List.mem_map_of_mem hcs⟩

/-- A number stands for one characteristic. -/
theorem Distinct.label_eq (h : Distinct a.labels) {c d : Characteristic} (hc : c ∈ a.characteristics)
    (hd : d ∈ a.characteristics) (hiid : c.iid = d.iid) : c.label = d.label :=
  List.inj_on_of_nodup_map h.iids (mem_labels hc) (mem_labels hd) hiid

/-! A change of single characteristics is a change of services that maps their characteristics. -/

theorem labels_mapCharacteristics (hf : ∀ c, (f c).label = c.label) (s : Service) :
    (s.mapCharacteristics f).labels = s.labels := by
  show (s.characteristics.map f).map Characteristic.label = s.labels
  rw [List.map_map]
  exact List.map_congr_left fun c _ => hf c

theorem outline_mapCharacteristics {s : Service} (hf : ∀ c ∈ s.characteristics, (f c).outline = c.outline) :
    (s.mapCharacteristics f).outline = s.outline := by
  have hmap : (s.characteristics.map f).map Characteristic.outline =
      s.characteristics.map Characteristic.outline := by
    rw [List.map_map]
    exact List.map_congr_left hf
  exact congrArg (fun cs => { s with characteristics := cs }) hmap

theorem labels_modify (hf : ∀ c, (f c).label = c.label) (iid : Nat) :
    (a.modify iid f).labels = a.labels := by
  rw [labels, modify, List.map_map]
  refine List.map_congr_left fun s _ => labels_mapCharacteristics (fun c => ?_) s
  split
  · exact hf c
  · rfl

theorem outline_modify {iid : Nat}
    (hf : ∀ c ∈ a.characteristics, c.iid = iid → (f c).outline = c.outline) :
    (a.modify iid f).outline = a.outline := by
  rw [outline, modify, List.map_map]
  congr 1
  refine List.map_congr_left fun s hs => outline_mapCharacteristics fun c hc => ?_
  split
  · next hiid => exact hf c (List.mem_flatMap.2 ⟨s, hs, hc⟩) hiid
  · rfl

/-- What holds of the characteristics, and of those changed as they are then, holds of all afterwards. -/
theorem forall_modify {P : Characteristic → Prop} (h : ∀ c ∈ a.characteristics, P c) {iid : Nat}
    (hf : ∀ c ∈ a.characteristics, c.iid = iid → P (f c)) : ∀ c ∈ (a.modify iid f).characteristics, P c := by
  intro c hc
  obtain ⟨_, hs', hcs⟩ := List.mem_flatMap.1 hc
  obtain ⟨s, hs, rfl⟩ := List.mem_map.1 hs'
  obtain ⟨c, hc', rfl⟩ := List.mem_map.1 hcs
  have hmem : c ∈ a.characteristics := List.mem_flatMap.2 ⟨s, hs, hc'⟩
  split
  · next hiid => exact hf c hmem hiid
  · exact h c hmem

theorem Sound.modify (h : a.Sound) {iid : Nat} (hlabel : ∀ c, (f c).label = c.label)
    (hf : ∀ c ∈ a.characteristics, c.iid = iid → (f c).Sound) : (a.modify iid f).Sound :=
  ⟨by rw [labels_modify hlabel]; exact h.distinct, forall_modify h.sound hf⟩

/-- What is done to a service is to map its characteristics. -/
theorem labels_modifyService {g : Service → Service} (hf : ∀ c, (f c).label = c.label)
    (hg : ∀ s, (g s).characteristics = s.characteristics.map f) (index : Nat) :
    (a.modifyService index g).labels = a.labels := by
  refine map_modify_eq fun s _ => ?_
  rw [Service.labels, hg]
  exact labels_mapCharacteristics hf s

theorem outline_modifyService {index : Nat}
    (hf : ∀ c ∈ a.characteristics, (f c).outline = c.outline) :
    (a.modifyService index (·.mapCharacteristics f)).outline = a.outline := by
  rw [outline, modifyService]
  congr 1
  refine map_modify_eq fun s hs => outline_mapCharacteristics fun c hc => ?_
  exact hf c (List.mem_flatMap.2 ⟨s, List.mem_of_getElem? hs, hc⟩)

theorem forall_modifyService {P : Characteristic → Prop} {g : Service → Service}
    (h : ∀ c ∈ a.characteristics, P c) (hg : ∀ s, (g s).characteristics = s.characteristics.map f)
    (hf : ∀ c ∈ a.characteristics, P (f c)) (index : Nat) :
    ∀ c ∈ (a.modifyService index g).characteristics, P c := by
  intro c hc
  obtain ⟨_, hs', hcs⟩ := List.mem_flatMap.1 hc
  rcases mem_of_mem_modify hs' with hs | ⟨s, hs, rfl⟩
  · exact h c (List.mem_flatMap.2 ⟨_, hs, hcs⟩)
  · rw [hg] at hcs
    obtain ⟨c, hc', rfl⟩ := List.mem_map.1 hcs
    exact hf c (List.mem_flatMap.2 ⟨s, List.mem_of_getElem? hs, hc'⟩)

theorem Sound.modifyService {g : Service → Service} (h : a.Sound) (hlabel : ∀ c, (f c).label = c.label)
    (hg : ∀ s, (g s).characteristics = s.characteristics.map f)
    (hf : ∀ c ∈ a.characteristics, (f c).Sound) (index : Nat) : (a.modifyService index g).Sound :=
  ⟨by rw [labels_modifyService hlabel hg]; exact h.distinct, forall_modifyService h.sound hg hf index⟩

end Accessory

/-! ### How accessories are numbered -/

/-- The numbers of a service, its own first. -/
def Service.iids (s : Service) : List Nat := s.iid :: s.characteristics.map (·.iid)

namespace ServicePlan

theorem iids_build (p : ServicePlan) (iid : Nat) : (p.build iid).iids = List.range' iid p.size := by
  rw [size, List.range'_succ]
  refine congrArg (iid :: ·) (List.ext_getElem (by simp [build]) fun i _ _ => ?_)
  simp [build, Characteristic.create]

/-- How many numbers the services take. -/
def sizeAll : List ServicePlan → Nat
  | [] => 0
  | p :: r => p.size + sizeAll r

/-- The numbers ascend without a gap. -/
theorem iids_buildAll (plans : List ServicePlan) (iid : Nat) :
    (buildAll iid plans).flatMap Service.iids = List.range' iid (sizeAll plans) := by
  induction plans generalizing iid with
  | nil => rfl
  | cons p r ih => rw [buildAll, List.flatMap_cons, iids_build, ih, sizeAll, ← List.range'_append_1]

theorem kinds_build (p : ServicePlan) (iid : Nat) :
    (p.build iid).labels.map Prod.snd = p.characteristics := by
  refine List.ext_getElem (by simp [Service.labels, build]) fun i _ _ => ?_
  simp [Service.labels, build, Characteristic.label, Characteristic.create]

theorem exists_of_mem_buildAll {s : Service} {plans : List ServicePlan} {iid : Nat}
    (h : s ∈ buildAll iid plans) : ∃ p ∈ plans, ∃ i, s = p.build i := by
  induction plans generalizing iid with
  | nil => exact absurd h List.not_mem_nil
  | cons p r ih =>
    rcases List.mem_cons.1 h with rfl | h
    · exact ⟨p, List.mem_cons_self, iid, rfl⟩
    · obtain ⟨q, hq, hs⟩ := ih h
      exact ⟨q, List.mem_cons_of_mem _ hq, hs⟩

end ServicePlan

namespace Accessory

/-- Services whose plans name no kind twice. -/
theorem distinct_buildAll {plans : List ServicePlan} (hkinds : ∀ p ∈ plans, p.characteristics.Nodup)
    (iid : Nat) : Distinct ((ServicePlan.buildAll iid plans).map Service.labels) where
  iids := by
    have hsub (services : List Service) :
        ((services.map Service.labels).flatten.map Prod.fst).Sublist (services.flatMap Service.iids) := by
      induction services with
      | nil => exact .slnil
      | cons s r ih =>
        rw [List.map_cons, List.flatten_cons, List.map_append, List.flatMap_cons]
        refine .append ?_ ih
        rw [Service.labels, List.map_map]
        exact List.sublist_cons_self ..
    exact (hsub _).nodup (ServicePlan.iids_buildAll plans iid ▸ List.nodup_range')
  kinds := by
    intro labels hlabels
    obtain ⟨s, hs, rfl⟩ := List.mem_map.1 hlabels
    obtain ⟨p, hp, i, rfl⟩ := ServicePlan.exists_of_mem_buildAll hs
    rw [ServicePlan.kinds_build]
    exact hkinds p hp

/-- The characteristics of services made by plans are new. -/
theorem forall_buildAll {P : Characteristic → Prop} (hP : ∀ kind iid, P (.create kind iid))
    {a : Accessory} {plans : List ServicePlan} {iid : Nat} (h : a.services = ServicePlan.buildAll iid plans) :
    ∀ c ∈ a.characteristics, P c := by
  intro c hc
  obtain ⟨s, hs, hcs⟩ := List.mem_flatMap.1 hc
  obtain ⟨p, -, i, rfl⟩ := ServicePlan.exists_of_mem_buildAll (h ▸ hs)
  obtain ⟨j, -, rfl⟩ := List.mem_mapIdx.1 hcs
  exact hP ..

theorem sound_of_plans {a : Accessory} {plans : List ServicePlan} {iid : Nat}
    (h : a.services = ServicePlan.buildAll iid plans) (hkinds : ∀ p ∈ plans, p.characteristics.Nodup) :
    a.Sound :=
  ⟨by rw [labels, h]; exact distinct_buildAll hkinds iid, forall_buildAll Characteristic.sound_create h⟩

/-! ### What an accessory says from the start -/

@[simp] theorem label_describe (name : String) (c : Characteristic) : (describe name c).label = c.label := by
  unfold describe
  split <;> rfl

theorem sound_describe {c : Characteristic} (h : c.Sound) (name : String) : (describe name c).Sound := by
  unfold describe
  split
  · next hkind => exact .setText (hkind ▸ rfl) _
  · next hkind => exact .setText (hkind ▸ rfl) _
  · exact h

theorem sound_create (aid : Nat) (name : String) (category : Category) {plans : List ServicePlan}
    (hkinds : ∀ p ∈ plans, p.characteristics.Nodup) : (create aid name category plans).Sound := by
  have hall : ∀ p ∈ .information :: plans, p.characteristics.Nodup :=
    List.forall_mem_cons.2 ⟨by decide, hkinds⟩
  have hbuilt : (⟨aid, category, name, ServicePlan.buildAll 1 (.information :: plans)⟩ : Accessory).Sound :=
    sound_of_plans rfl hall
  exact hbuilt.modifyService (label_describe name) (fun _ => rfl)
    (fun c hc => sound_describe (hbuilt.sound c hc) name) 0

theorem Sound.setInformation {a : Accessory} (h : a.Sound) (manufacturer model serialNumber : String) :
    (a.setInformation manufacturer model serialNumber).Sound := by
  simp only [Accessory.setInformation]
  split
  · refine h.modifyService (fun c => ?_) (fun _ => rfl) (fun c hc => ?_) _
    · split <;> rfl
    · split
      · next hkind => exact .setText (hkind ▸ rfl) _
      · next hkind => exact .setText (hkind ▸ rfl) _
      · next hkind => exact .setText (hkind ▸ rfl) _
      · exact h.sound c hc
  · exact h

end Accessory

end HomeHub.HomeKit
