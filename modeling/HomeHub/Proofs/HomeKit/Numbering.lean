import HomeHub.Proofs.HomeKit.Layout
import Mathlib.Data.List.Perm.Basic

/-!
# Numbers of services and characteristics

`Assembly` puts an accessory together service by service. It hands out the next number to a service that
is added, and then one to each of its characteristics, and so makes what `Accessory.create` makes
(`build_addServices`): read in order, the numbers are one, two and so on (`iids_create`). As no number is
handed out twice, it is that of one service, or of one characteristic at one place (`place_eq`). So the
look-ups for a characteristic, which take the first that has the number, lead back to it.
-/

namespace HomeHub.HomeKit

/-- A map that changes the member at one index only. -/
theorem map_eq_modify {α : Type} {g f : α → α} {l : List α} {i : Nat} (hi : ∀ x, l[i]? = some x → g x = f x)
    (hne : ∀ j x, j ≠ i → l[j]? = some x → g x = x) : l.map g = l.modify i f := by
  refine List.ext_getElem? fun j => ?_
  rw [List.getElem?_map, List.getElem?_modify]
  cases hj : l[j]? with
  | none => rfl
  | some x =>
    by_cases hij : i = j
    · subst hij
      simp only [↓reduceIte, Option.map_eq_map, Option.map_some, hi x hj]
    · simp only [hij, ↓reduceIte, Option.map_eq_map, Option.map_some, hne j x (Ne.symm hij) hj]

theorem Service.mapCharacteristics_eq_self {s : Service} {f : Characteristic → Characteristic}
    (h : ∀ c ∈ s.characteristics, f c = c) : s.mapCharacteristics f = s :=
  congrArg (fun cs => { s with characteristics := cs }) ((List.map_congr_left h).trans (List.map_id _))

/-! ### Places -/

namespace Accessory

variable {a : Accessory} {s : Service} {c d : Characteristic} {i j k m iid : Nat}

/-- The numbers of an accessory in order, that of a service before those of its characteristics. -/
def iids (a : Accessory) : List Nat := a.services.flatMap Service.iids

/-- The characteristic at a place, which is the index of a service and one within it. -/
def at? (a : Accessory) (i j : Nat) : Option Characteristic := a.services[i]?.bind (·.characteristics[j]?)

/-- Changes the characteristic at a place and nothing else. -/
def modifyAt (a : Accessory) (i j : Nat) (f : Characteristic → Characteristic) : Accessory :=
  a.modifyService i fun s => { s with characteristics := s.characteristics.modify j f }

theorem iids_perm (a : Accessory) :
    (a.services.map (·.iid) ++ a.characteristics.map (·.iid)).Perm a.iids := by
  rw [characteristics, List.map_flatMap]
  exact List.map_append_flatMap_perm ..

theorem at?_eq (hs : a.services[i]? = some s) (hc : s.characteristics[j]? = some c) : a.at? i j = some c := by
  rw [at?, hs, Option.bind_some, hc]

theorem exists_at? (hs : a.services[i]? = some s) (hc : c ∈ s.characteristics) : ∃ j, a.at? i j = some c := by
  obtain ⟨j, hj⟩ := List.mem_iff_getElem?.1 hc
  exact ⟨j, at?_eq hs hj⟩

theorem mem_of_at? (hc : a.at? i j = some c) : c ∈ a.characteristics := by
  obtain ⟨s, hs, hcs⟩ := Option.bind_eq_some_iff.1 hc
  exact List.mem_flatMap.2 ⟨s, List.mem_of_getElem? hs, List.mem_of_getElem? hcs⟩

/-- A number is found at one place only. -/
theorem place_eq (once : (a.characteristics.map (·.iid)).Nodup) (hc : a.at? i j = some c)
    (hd : a.at? k m = some d) (hiid : c.iid = d.iid) : i = k ∧ j = m := by
  obtain ⟨s, hs, hcs⟩ := Option.bind_eq_some_iff.1 hc
  obtain ⟨t, ht, hdt⟩ := Option.bind_eq_some_iff.1 hd
  rw [characteristics, List.map_flatMap, List.nodup_flatMap] at once
  obtain ⟨hwithin, hacross⟩ := once
  have hcnumber := List.mem_map_of_mem (f := (·.iid)) (List.mem_of_getElem? hcs)
  have hdnumber := List.mem_map_of_mem (f := (·.iid)) (List.mem_of_getElem? hdt)
  have hapart {x y : Nat} {u v : Service} (hx : a.services[x]? = some u) (hy : a.services[y]? = some v)
      (hlt : x < y) : (u.characteristics.map (·.iid)).Disjoint (v.characteristics.map (·.iid)) := by
    obtain ⟨hxlen, rfl⟩ := List.getElem?_eq_some_iff.1 hx
    obtain ⟨hylen, rfl⟩ := List.getElem?_eq_some_iff.1 hy
    exact List.pairwise_iff_getElem.1 hacross x y hxlen hylen hlt
  rcases Nat.lt_trichotomy i k with hlt | rfl | hlt
  · exact absurd (hiid ▸ hdnumber) (hapart hs ht hlt hcnumber)
  · cases hs.symm.trans ht
    refine ⟨rfl, ?_⟩
    have hj : (s.characteristics.map (·.iid))[j]? = some c.iid := by rw [List.getElem?_map, hcs]; rfl
    have hm : (s.characteristics.map (·.iid))[m]? = some c.iid := by rw [List.getElem?_map, hdt, hiid]; rfl
    exact (List.getElem?_inj (List.getElem?_eq_some_iff.1 hj).1 (hwithin s (List.mem_of_getElem? hs))).1
      (hj.trans hm.symm)
  · exact absurd (hiid ▸ hcnumber) (hapart ht hs hlt hdnumber)

/-! ### What is found by a number -/

theorem characteristic?_of_at? (once : (a.characteristics.map (·.iid)).Nodup) (hc : a.at? i j = some c) :
    a.characteristic? c.iid = some c := find?_of_nodup_map once (mem_of_at? hc)

theorem serviceIndex?_of_at? (once : (a.characteristics.map (·.iid)).Nodup) (hc : a.at? i j = some c) :
    a.serviceIndex? c.iid = some i := by
  obtain ⟨s, hs, hcs⟩ := Option.bind_eq_some_iff.1 hc
  obtain ⟨hi, rfl⟩ := List.getElem?_eq_some_iff.1 hs
  refine List.findIdx?_eq_some_iff_getElem.2
    ⟨hi, List.any_eq_true.2 ⟨c, List.mem_of_getElem? hcs, decide_eq_true rfl⟩, fun k hk hany => ?_⟩
  obtain ⟨d, hd, hiid⟩ := List.any_eq_true.1 hany
  obtain ⟨m, hm⟩ := exists_at? (List.getElem?_eq_getElem (Nat.lt_trans hk hi)) hd
  exact Nat.ne_of_lt hk (place_eq once hm hc (of_decide_eq_true hiid)).1

theorem modify_of_at? (once : (a.characteristics.map (·.iid)).Nodup) (hc : a.at? i j = some c)
    (f : Characteristic → Characteristic) : a.modify c.iid f = a.modifyAt i j f := by
  refine congrArg (fun services => { a with services }) (map_eq_modify (fun s hs => ?_) fun k s hk hs => ?_)
  · refine congrArg (fun characteristics => { s with characteristics })
      (map_eq_modify (fun d hd => ?_) fun m d hm hd => ?_)
    · cases (at?_eq hs hd).symm.trans hc
      exact if_pos rfl
    · exact if_neg fun hiid => hm (place_eq once (at?_eq hs hd) hc hiid).2
  · refine Service.mapCharacteristics_eq_self fun d hd => if_neg fun hiid => ?_
    obtain ⟨m, hm⟩ := exists_at? hs hd
    exact hk (place_eq once hm hc hiid).1

theorem not_found (hiid : iid ∉ a.characteristics.map (·.iid)) :
    a.characteristic? iid = none ∧ a.serviceIndex? iid = none ∧ ∀ f, a.modify iid f = a := by
  have hne {c : Characteristic} (hc : c ∈ a.characteristics) : c.iid ≠ iid := by
    rintro rfl
    exact hiid (List.mem_map_of_mem hc)
  have hof {s : Service} (hs : s ∈ a.services) {c : Characteristic} (hc : c ∈ s.characteristics) :
      c.iid ≠ iid := hne (List.mem_flatMap.2 ⟨s, hs, hc⟩)
  refine ⟨?_, ?_, fun f => ?_⟩
  · exact List.find?_eq_none.2 fun c hc => by simpa using hne hc
  · refine List.findIdx?_eq_none_iff.2 fun s hs => List.any_eq_false.2 fun c hc => ?_
    simpa using hof hs hc
  · refine congrArg (fun services => { a with services }) ?_
    refine (List.map_congr_left fun s hs => ?_).trans (List.map_id _)
    exact Service.mapCharacteristics_eq_self fun c hc => if_neg (hof hs hc)

end Accessory

/-! ### Accessories put together service by service -/

/-- An accessory that services are added to. -/
structure Assembly where
  aid : Nat
  category : Category
  displayName : String
  /-- The number that is handed out next. -/
  next : Nat
  services : List Service

namespace Assembly

def allocate (b : Assembly) : Nat × Assembly := (b.next, { b with next := b.next + 1 })

/-- New characteristics, each with the next number. -/
def allocateAll (b : Assembly) : List Kind → List Characteristic × Assembly
  | [] => ([], b)
  | kind :: r =>
    let (iid, b) := b.allocate
    let (rest, b) := b.allocateAll r
    (.create kind iid :: rest, b)

/-- Adds a service and tells at which index. -/
def addService (b : Assembly) (p : ServicePlan) : Nat × Assembly :=
  let (iid, b) := b.allocate
  let (characteristics, b) := b.allocateAll p.characteristics
  (b.services.length, { b with services := b.services ++ [{ kind := p.kind, iid, characteristics }] })

/-- Adds services one after the other and tells at which indexes. -/
def addServices (b : Assembly) : List ServicePlan → List Nat × Assembly
  | [] => ([], b)
  | p :: r =>
    let (index, b) := b.addService p
    let (indexes, b) := b.addServices r
    (index :: indexes, b)

/-- The information service comes first. Its name and its version are filled in by where they stand. -/
def start (aid : Nat) (name : String) (category : Category) : Assembly :=
  let (index, b) := addService ⟨aid, category, name, 1, []⟩ .information
  let fill (cs : List Characteristic) : List Characteristic :=
    (cs.modify 0 (·.setText name)).modify 4 (·.setText Accessory.firmwareRevision)
  { b with services := b.services.modify index fun s => { s with characteristics := fill s.characteristics } }

def build (b : Assembly) : Accessory := ⟨b.aid, b.category, b.displayName, b.services⟩

theorem allocateAll_eq (b : Assembly) (kinds : List Kind) : b.allocateAll kinds =
    (kinds.mapIdx fun i kind => .create kind (b.next + i), { b with next := b.next + kinds.length }) := by
  induction kinds generalizing b with
  | nil => rfl
  | cons kind r ih =>
    have hplace (i : Nat) : b.next + 1 + i = b.next + (i + 1) := by omega
    simp only [allocateAll, allocate, ih, List.mapIdx_cons, List.length_cons, Nat.add_zero, hplace]

theorem addService_eq (b : Assembly) (p : ServicePlan) : b.addService p =
    (b.services.length,
      { b with next := b.next + p.size, services := b.services ++ [p.build b.next] }) := by
  have hnext : b.next + 1 + p.characteristics.length = b.next + p.size := Nat.add_right_comm ..
  simp only [addService, allocate, allocateAll_eq, hnext]
  rfl

theorem addServices_eq (b : Assembly) (plans : List ServicePlan) : b.addServices plans =
    (List.range' b.services.length plans.length,
      { b with
        next := b.next + ServicePlan.sizeAll plans
        services := b.services ++ ServicePlan.buildAll b.next plans }) := by
  induction plans generalizing b with
  | nil => simp [addServices, ServicePlan.buildAll, ServicePlan.sizeAll]
  | cons p r ih =>
    simp only [addServices, addService_eq, ih]
    simp [ServicePlan.buildAll, ServicePlan.sizeAll, List.range'_succ, Nat.add_assoc]

theorem build_addServices (aid : Nat) (name : String) (category : Category) (plans : List ServicePlan) :
    ((start aid name category).addServices plans).2.build = .create aid name category plans := by
  rw [addServices_eq]
  rfl

end Assembly

/-! ### The numbers of an accessory -/

namespace ServicePlan

/-- The plan that a service carries out. -/
def ofService (s : Service) : ServicePlan := ⟨s.kind, s.characteristics.map (·.kind)⟩

theorem ofService_build (p : ServicePlan) (iid : Nat) : ofService (p.build iid) = p :=
  congrArg (ServicePlan.mk p.kind) ((Service.map_snd_labels _).symm.trans (p.kinds_build iid))

theorem map_ofService_buildAll (plans : List ServicePlan) (iid : Nat) :
    (buildAll iid plans).map ofService = plans := by
  induction plans generalizing iid with
  | nil => rfl
  | cons p r ih => rw [buildAll, List.map_cons, ofService_build, ih]

end ServicePlan

namespace Accessory

variable {name : String}

/-- An accessory is made as planned but for the texts of its information service. -/
theorem map_services_create {β : Type} {g : Service → β}
    (hg : ∀ s, g (s.mapCharacteristics (describe name)) = g s) (aid : Nat) (category : Category)
    (plans : List ServicePlan) : (create aid name category plans).services.map g =
      (ServicePlan.buildAll 1 (.information :: plans)).map g := map_modify_eq fun s _ => hg s

theorem iids_create (aid : Nat) (name : String) (category : Category) (plans : List ServicePlan) :
    (create aid name category plans).iids =
      List.range' 1 (ServicePlan.sizeAll (.information :: plans)) := by
  have hiids (s : Service) : (s.mapCharacteristics (describe name)).iids = s.iids := by
    rw [Service.iids, Service.mapCharacteristics, List.map_map]
    refine congrArg (s.iid :: ·) (List.map_congr_left fun c _ => ?_)
    exact congrArg Prod.fst (label_describe name c)
  rw [iids, List.flatMap_def, map_services_create hiids, ← List.flatMap_def, ServicePlan.iids_buildAll]

theorem plans_create (aid : Nat) (name : String) (category : Category) (plans : List ServicePlan) :
    (create aid name category plans).services.map ServicePlan.ofService = .information :: plans := by
  have hplan (s : Service) :
      ServicePlan.ofService (s.mapCharacteristics (describe name)) = ServicePlan.ofService s := by
    rw [ServicePlan.ofService, Service.mapCharacteristics, List.map_map]
    refine congrArg (ServicePlan.mk s.kind) (List.map_congr_left fun c _ => ?_)
    exact congrArg Prod.snd (label_describe name c)
  rw [map_services_create hplan, ServicePlan.map_ofService_buildAll]

/-- However services are added, each is found at the index that is told, with the characteristics that it
was to have. The numbers of services and characteristics, read in order, are one, two and so on. By its
number a characteristic is found, and the index of its service, and it alone is changed. By any other
number, that of a service among them, nothing is found and nothing is changed. -/
theorem found_by_number (aid : Nat) (name : String) (category : Category) (plans : List ServicePlan) :
    let added := (Assembly.start aid name category).addServices plans
    let a := added.2.build
    a = create aid name category plans ∧
    added.1 = List.range' 1 plans.length ∧
    a.services.map ServicePlan.ofService = .information :: plans ∧
    a.iids = List.range' 1 (ServicePlan.sizeAll (.information :: plans)) ∧
    (∀ i j c, a.at? i j = some c →
      a.characteristic? c.iid = some c ∧ a.serviceIndex? c.iid = some i ∧
        ∀ f, a.modify c.iid f = a.modifyAt i j f) ∧
    (∀ iid, iid ∉ a.characteristics.map (·.iid) →
      a.characteristic? iid = none ∧ a.serviceIndex? iid = none ∧ ∀ f, a.modify iid f = a) ∧
    ∀ s ∈ a.services, s.iid ∉ a.characteristics.map (·.iid) := by
  intro added a
  have ha : a = create aid name category plans := Assembly.build_addServices ..
  have hindexes : added.1 = List.range' 1 plans.length :=
    congrArg Prod.fst (Assembly.addServices_eq ..)
  have hiids := ha ▸ iids_create aid name category plans
  have hnodup : a.iids.Nodup := hiids ▸ List.nodup_range'
  obtain ⟨-, once, happart⟩ := List.nodup_append.1 (a.iids_perm.nodup_iff.2 hnodup)
  refine ⟨ha, hindexes, ha ▸ plans_create aid name category plans, hiids, fun i j c hc => ?_,
    fun iid => not_found, fun s hs hmem => happart _ (List.mem_map_of_mem hs) _ hmem rfl⟩
  exact ⟨characteristic?_of_at? once hc, serviceIndex?_of_at? once hc, modify_of_at? once hc⟩

/-- The brightness of a lamp, the number of the lamp, and one that is not handed out. -/
theorem found_by_number_lamp :
    let plan : ServicePlan := ⟨.lightbulb, [.on, .brightness]⟩
    let a := create 2 "Lamp" .lightbulb [plan]
    let c := Characteristic.create .brightness 9
    a.at? 1 1 = some c ∧ a.characteristic? 9 = some c ∧ a.serviceIndex? 9 = some 1 ∧
      (∀ f, a.modify 9 f = a.modifyAt 1 1 f) ∧
      (∃ s ∈ a.services, s.iid = 7) ∧ 7 ∉ a.characteristics.map (·.iid) ∧ a.characteristic? 7 = none ∧
      42 ∉ a.characteristics.map (·.iid) ∧ a.serviceIndex? 42 = none := by
  intro plan a c
  obtain ⟨ha, -, -, -, hfound, hnot, hservice⟩ := found_by_number 2 "Lamp" .lightbulb [plan]
  rw [ha] at hfound hnot hservice
  have hat : a.at? 1 1 = some c := rfl
  have hmem : ∃ s ∈ a.services, s.iid = 7 := ⟨plan.build 7, by decide, rfl⟩
  have hlamp : 7 ∉ a.characteristics.map (·.iid) := by
    obtain ⟨s, hs, hiid⟩ := hmem
    exact hiid ▸ hservice s hs
  have hnone : 42 ∉ a.characteristics.map (·.iid) := by decide
  obtain ⟨hcharacteristic, hindex, hmodify⟩ := hfound 1 1 c hat
  exact ⟨hat, hcharacteristic, hindex, hmodify, hmem, hlamp, (hnot 7 hlamp).1, hnone, (hnot 42 hnone).2.1⟩

end Accessory

end HomeHub.HomeKit
