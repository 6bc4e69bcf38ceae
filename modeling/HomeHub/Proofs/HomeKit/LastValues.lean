import HomeHub.Proofs.HomeKit.Steady
import HomeHub.Proofs.Json.Record

/-!
# The last value of each characteristic

A write request may name a characteristic several times, and what it names may come in any order. Writes
are routed by numbers that tell the characteristics of a light apart (`LightAccessory.writable?_inj`), and
a service has one characteristic of a kind, so of all that is written only the last number of each
characteristic counts (`LightAccessory.write_congr`). The service calls are made in the order of the
accessories, and for each light that of its primary service comes first (`Bridge.pairwise_offers`).
-/

namespace HomeHub.HomeKit

/-! ### Pairs under other keys -/

section

variable {κ κ' α : Type} [BEq κ'] [LawfulBEq κ'] {g : κ → Option κ'} {k' : κ'}

/-- What becomes of one key only is found as that is. -/
theorem lookup_filterMap [BEq κ] [LawfulBEq κ] {k : κ} (hg : ∀ i, g i = some k' ↔ i = k) (l : List (κ × α)) :
    (l.filterMap fun p => (g p.1).map (·, p.2)).lookup k' = l.lookup k := by
  induction l with
  | nil => rfl
  | cons p r ih =>
    obtain ⟨i, a⟩ := p
    rw [List.lookup_cons, List.filterMap_cons]
    by_cases hi : i = k
    · rw [(hg i).2 hi, beq_iff_eq.2 hi.symm]
      exact List.lookup_cons_self
    · rw [beq_eq_false_iff_ne.2 (Ne.symm hi)]
      cases hgi : g i with
      | none => exact ih
      | some j =>
        have hj : (k' == j) = false := beq_eq_false_iff_ne.2 fun hj => hi ((hg i).1 (hj ▸ hgi))
        rw [Option.map_some, List.lookup_cons, hj]
        exact ih

theorem lookup_filterMap_eq_none (hg : ∀ i, g i ≠ some k') (l : List (κ × α)) :
    (l.filterMap fun p => (g p.1).map (·, p.2)).lookup k' = none := by
  refine List.lookup_eq_none_iff.2 fun p hp => bne_iff_ne.2 ?_
  rintro rfl
  obtain ⟨q, -, hq⟩ := List.mem_filterMap.1 hp
  obtain ⟨j, hj, rfl⟩ := Option.map_eq_some_iff.1 hq
  exact hg q.1 hj

end

namespace LightAccessory

variable {l : LightAccessory} {bulb : Bulb} {writes writes' : List (Nat × Int)}

/-! ### Where a write goes -/

/-- The kind of the characteristic with a number, if it is one of the service that may be written. -/
def writable? (l : LightAccessory) (bulb : Bulb) (iid : Nat) : Option Kind := do
  let c ← l.accessory.characteristic? iid
  if c.kind.isWritable && l.accessory.serviceIndex? iid = some bulb.index then return c.kind else none

theorem writesTo_eq (l : LightAccessory) (bulb : Bulb) (writes : List (Nat × Int)) :
    l.writesTo bulb writes = writes.filterMap fun w => (l.writable? bulb w.1).map (·, w.2) := by
  refine List.filterMap_congr fun ⟨iid, n⟩ _ => ?_
  simp only [writable?]
  cases l.accessory.characteristic? iid with
  | none => rfl
  | some c =>
    simp only [Option.bind_eq_bind, Option.bind_some]
    split <;> rfl

theorem exists_of_writable? (hdistinct : Accessory.Distinct l.accessory.labels) {iid : Nat} {kind : Kind}
    (h : l.writable? bulb iid = some kind) :
    ∃ s ∈ l.accessory.services[bulb.index]?, (iid, kind) ∈ s.labels := by
  obtain ⟨c, hc, h⟩ := Option.bind_eq_some_iff.1 h
  split at h
  · next hroute =>
    cases h
    have hindex := of_decide_eq_true (Bool.and_eq_true_iff.1 hroute).2
    obtain ⟨hlt, hany, -⟩ := List.findIdx?_eq_some_iff_getElem.1 hindex
    obtain ⟨d, hd, hiid⟩ := List.any_eq_true.1 hany
    refine ⟨_, List.getElem?_eq_getElem hlt, ?_⟩
    have hc' : c.iid = iid := by simpa using List.find?_some hc
    have hd' : d.iid = c.iid := (of_decide_eq_true hiid).trans hc'.symm
    have hmem : d ∈ l.accessory.characteristics := List.mem_flatMap.2 ⟨_, List.getElem_mem hlt, hd⟩
    have hlabel := hdistinct.label_eq hmem (List.mem_of_find?_eq_some hc) hd'
    have hd'' : d.label = (iid, c.kind) := hlabel.trans (congrArg (·, c.kind) hc')
    exact hd'' ▸ List.mem_map_of_mem hd
  · cases h

/-- A kind stands for one number of a service. -/
theorem writable?_inj (hdistinct : Accessory.Distinct l.accessory.labels) {i j : Nat} {kind : Kind}
    (hi : l.writable? bulb i = some kind) (hj : l.writable? bulb j = some kind) : i = j := by
  obtain ⟨s, hs, hi⟩ := exists_of_writable? hdistinct hi
  obtain ⟨s', hs', hj⟩ := exists_of_writable? hdistinct hj
  cases Option.mem_unique hs hs'
  have hlabels : s.labels ∈ l.accessory.labels := List.mem_map_of_mem (List.mem_of_getElem? hs)
  exact congrArg Prod.fst (List.inj_on_of_nodup_map (hdistinct.kinds _ hlabels) hi hj rfl)

theorem lastOf_writesTo_congr (hdistinct : Accessory.Distinct l.accessory.labels)
    (hlast : ∀ iid, writes.reverse.lookup iid = writes'.reverse.lookup iid) (bulb : Bulb) :
    lastOf (l.writesTo bulb writes) = lastOf (l.writesTo bulb writes') := by
  funext kind
  rw [lastOf, lastOf, writesTo_eq, writesTo_eq, ← List.filterMap_reverse, ← List.filterMap_reverse]
  by_cases hkind : ∃ iid, l.writable? bulb iid = some kind
  · obtain ⟨iid, hiid⟩ := hkind
    have hg (i : Nat) : l.writable? bulb i = some kind ↔ i = iid :=
      ⟨fun hi => writable?_inj hdistinct hi hiid, fun hi => hi ▸ hiid⟩
    rw [lookup_filterMap hg, lookup_filterMap hg, hlast]
  · have hg (i : Nat) : l.writable? bulb i ≠ some kind := fun hi => hkind ⟨i, hi⟩
    rw [lookup_filterMap_eq_none hg, lookup_filterMap_eq_none hg]

/-! ### Only the last values count -/

theorem eq_nil_iff_lastOf (values : List (Kind × Int)) : values = [] ↔ ∀ kind, lastOf values kind = none := by
  constructor
  · rintro rfl kind
    rfl
  · intro h
    refine List.eq_nil_iff_forall_not_mem.2 fun p hp => ?_
    have hne := List.lookup_eq_none_iff.1 (h p.1) p (List.mem_reverse.2 hp)
    exact bne_iff_ne.1 hne rfl

theorem setValues_congr {values values' : List (Kind × Int)} (h : lastOf values = lastOf values')
    (l : LightAccessory) (bulb : Bulb) : l.setValues bulb values = l.setValues bulb values' := by
  have hstore (index : Nat) : l.store index values = l.store index values' := by simp only [store, h]
  have hstored (l : LightAccessory) (index : Nat) : l.stored index values = l.stored index values' :=
    funext fun kind => by rw [stored, stored, h]
  simp only [setValues, hstore, hstored]

theorem writeTo_eq (l : LightAccessory) (bulb : Bulb) (writes : List (Nat × Int)) :
    l.writeTo bulb writes = if l.writesTo bulb writes = [] then ([], l) else
      ([(l.setValues bulb (l.writesTo bulb writes)).1],
        (l.setValues bulb (l.writesTo bulb writes)).2) := by
  rw [writeTo]
  split
  · next h => rw [if_pos h]
  · next h => rw [if_neg h]

theorem writeTo_congr (hdistinct : Accessory.Distinct l.accessory.labels)
    (hlast : ∀ iid, writes.reverse.lookup iid = writes'.reverse.lookup iid) (bulb : Bulb) :
    l.writeTo bulb writes = l.writeTo bulb writes' := by
  have hvalues := lastOf_writesTo_congr hdistinct hlast bulb
  have hnil : l.writesTo bulb writes = [] ↔ l.writesTo bulb writes' = [] := by
    rw [eq_nil_iff_lastOf, eq_nil_iff_lastOf, hvalues]
  rw [writeTo_eq, writeTo_eq, setValues_congr hvalues]
  by_cases h : l.writesTo bulb writes = []
  · rw [if_pos h, if_pos (hnil.1 h)]
  · rw [if_neg h, if_neg (mt hnil.2 h)]

/-! ### What stays whatever is written -/

/-- The aid of a light and the labels of its characteristics. -/
def layout (l : LightAccessory) : Nat × List (List (Nat × Kind)) := (l.aid, l.accessory.labels)

theorem layout_set (l : LightAccessory) (f : Feature) (n : Int) : (l.set f n).layout = l.layout := by
  unfold set
  split
  · exact Prod.ext rfl (Accessory.labels_modify (fun c => c.label_setNumber n) _)
  · rfl

theorem layout_setAll (l : LightAccessory) (values : List (Feature × Int)) :
    (l.setAll values).layout = l.layout := by
  induction values generalizing l with
  | nil => rfl
  | cons p r ih => exact (ih _).trans (l.layout_set p.1 p.2)

theorem layout_update (l : LightAccessory) (e : Option Entity) : (l.update e).layout = l.layout := by
  cases e <;> simp only [update, layout_setAll]

theorem layout_setValues (l : LightAccessory) (bulb : Bulb) (values : List (Kind × Int)) :
    (l.setValues bulb values).2.layout = l.layout := by
  refine Prod.ext rfl (Accessory.labels_modifyService (fun c => ?_) (fun _ => rfl) _)
  split <;> rfl

theorem layout_writeTo (l : LightAccessory) (bulb : Bulb) (writes : List (Nat × Int)) :
    (l.writeTo bulb writes).2.layout = l.layout := by
  rw [writeTo_eq]
  split
  · rfl
  · exact l.layout_setValues ..

theorem layout_write (l : LightAccessory) (writes : List (Nat × Int)) :
    (l.write writes).2.layout = l.layout :=
  (layout_writeTo _ .secondary writes).trans (l.layout_writeTo .primary writes)

/-- A light that was made for an entity and has been used since. -/
inductive Built : LightAccessory → Prop
  | create (aid : Nat) (name entityId : String) (state : Option Entity) (registry : Option Json) :
      Built (create aid name entityId state registry)
  | update {l : LightAccessory} (h : Built l) (e : Option Entity) : Built (l.update e)
  | write {l : LightAccessory} (h : Built l) (writes : List (Nat × Int)) : Built (l.write writes).2
  | setValues {l : LightAccessory} (h : Built l) (bulb : Bulb) (values : List (Kind × Int)) :
      Built (l.setValues bulb values).2

theorem Built.distinct (h : Built l) : Accessory.Distinct l.layout.2 := by
  induction h with
  | create => exact (sound_create ..).distinct
  | update _ e ih => exact (layout_update _ e).symm ▸ ih
  | write _ writes ih => exact (layout_write _ writes).symm ▸ ih
  | setValues _ bulb values ih => exact (layout_setValues _ bulb values).symm ▸ ih

/-! ### The commands of a request -/

end LightAccessory

/-- A command for a service of a light. -/
structure Offer where
  light : LightAccessory
  bulb : Bulb
  command : LightCommand

/-- The one is for an accessory of a lower aid, or for the primary service of the same accessory and the
other for the secondary one. -/
def Offer.Before (x y : Offer) : Prop :=
  x.light.aid < y.light.aid ∨ x.light.aid = y.light.aid ∧ x.bulb = .primary ∧ y.bulb = .secondary

namespace LightAccessory

/-- The commands that writes to a light come to, with the services that they are for. -/
def offers (l : LightAccessory) (writes : List (Nat × Int)) : List Offer :=
  let first := l.writeTo .primary writes
  first.1.map (⟨l, .primary, ·⟩) ++ (first.2.writeTo .secondary writes).1.map (⟨l, .secondary, ·⟩)

theorem map_offers (l : LightAccessory) (writes : List (Nat × Int)) :
    (l.offers writes).map (fun o => (o.light, o.command)) = (l.write writes).1.map fun c => (l, c) := by
  simp only [offers, write, List.map_append, List.map_map, Function.comp_def]

theorem light_of_mem_offers {l : LightAccessory} {writes : List (Nat × Int)} {o : Offer}
    (h : o ∈ l.offers writes) : o.light = l := by
  rcases List.mem_append.1 h with h | h <;> (obtain ⟨c, -, rfl⟩ := List.mem_map.1 h; rfl)

theorem pairwise_offers (l : LightAccessory) (writes : List (Nat × Int)) :
    (l.offers writes).Pairwise Offer.Before := by
  have hone (l l' : LightAccessory) (bulb : Bulb) :
      ((l.writeTo bulb writes).1.map (⟨l', bulb, ·⟩ : LightCommand → Offer)).Pairwise Offer.Before := by
    rw [writeTo_eq]
    split
    · exact .nil
    · exact List.pairwise_singleton ..
  refine List.pairwise_append.2 ⟨hone _ _ _, hone _ _ _, fun x hx y hy => ?_⟩
  obtain ⟨c, -, rfl⟩ := List.mem_map.1 hx
  obtain ⟨d, -, rfl⟩ := List.mem_map.1 hy
  exact .inr ⟨rfl, rfl, rfl⟩

theorem write_congr {l : LightAccessory} {writes writes' : List (Nat × Int)}
    (hdistinct : Accessory.Distinct l.accessory.labels)
    (hlast : ∀ iid, writes.reverse.lookup iid = writes'.reverse.lookup iid) :
    l.write writes = l.write writes' ∧ l.offers writes = l.offers writes' := by
  have hfirst := writeTo_congr hdistinct hlast .primary
  have hlabels : (l.writeTo .primary writes').2.accessory.labels = l.accessory.labels :=
    congrArg Prod.snd (l.layout_writeTo ..)
  have hsecond := writeTo_congr (hlabels ▸ hdistinct) hlast .secondary
  constructor
  · simp only [write, hfirst, hsecond]
  · simp only [offers, hfirst, hsecond]

end LightAccessory

namespace Bridge

/-- The numbers of a request, each with the characteristic that it is written to. -/
def numbers (writes : List CharacteristicWrite) : List ((Nat × Nat) × Int) :=
  writes.filterMap fun w => (w.value.bind Value.numberOfJson?).map ((w.aid, w.iid), ·)

/-- The last number that is written to a characteristic. -/
def lastNumber (writes : List CharacteristicWrite) (aid iid : Nat) : Option Int :=
  (numbers writes).reverse.lookup (aid, iid)

theorem numbersFor_eq (writes : List CharacteristicWrite) (aid : Nat) :
    numbersFor writes aid = (numbers writes).filterMap fun p =>
      (if p.1.1 = aid then some p.1.2 else none).map (·, p.2) := by
  rw [numbers, List.filterMap_filterMap]
  refine List.filterMap_congr fun w _ => ?_
  cases w.value.bind Value.numberOfJson? with
  | none => exact ite_self none
  | some n =>
    by_cases haid : w.aid = aid <;> simp [haid]

theorem lookup_numbersFor (writes : List CharacteristicWrite) (aid iid : Nat) :
    (numbersFor writes aid).reverse.lookup iid = lastNumber writes aid iid := by
  rw [numbersFor_eq, ← List.filterMap_reverse]
  refine lookup_filterMap (g := fun p : Nat × Nat => if p.1 = aid then some p.2 else none) (fun p => ?_) _
  simp only [Option.ite_none_right_eq_some, Option.some.injEq, Prod.ext_iff]

/-- The commands of a request, by ascending aid. -/
def offers (b : Bridge) (writes : List CharacteristicWrite) : List Offer :=
  b.lights.values.flatMap fun l => l.offers (numbersFor writes l.aid)

variable {b₀ b : Bridge} {writes writes' : List CharacteristicWrite}

theorem applyWrites_fst (b : Bridge) (writes : List CharacteristicWrite) :
    (b.applyWrites writes).1 = (b.offers writes).map fun o => (o.light, o.command) := by
  rw [offers, List.map_flatMap]
  exact List.flatMap_congr fun l _ => (l.map_offers _).symm

theorem accepted_dispatch (b : Bridge) (l : LightAccessory) (c : LightCommand) :
    (b.dispatch l c).2.caller.accepted = b.caller.accepted ++ [c.call] ∨
    (b.dispatch l c).2.caller.accepted = b.caller.accepted ∧ (b.dispatch l c).1 ≠ .ok () := by
  rw [dispatch, Caller.call]
  cases b.caller.refuses b.caller.offered with
  | none => exact .inl rfl
  | some e => exact .inr ⟨rfl, by rintro ⟨⟩⟩

/-- The calls that are accepted are those of the first commands, of all if none fails. -/
theorem accepted_dispatchAll (b : Bridge) (commands : List (LightAccessory × LightCommand)) :
    ∃ n, (b.dispatchAll commands).2.caller.accepted =
        b.caller.accepted ++ (commands.take n).map (·.2.call) ∧
      ((b.dispatchAll commands).1 = .ok () → n = commands.length) := by
  induction commands generalizing b with
  | nil => exact ⟨0, (List.append_nil _).symm, fun _ => rfl⟩
  | cons p r ih =>
    obtain ⟨l, c⟩ := p
    have hone := b.accepted_dispatch l c
    rw [dispatchAll]
    split
    · next h =>
      rw [h] at hone
      rcases hone with haccepted | ⟨haccepted, -⟩
      · exact ⟨1, haccepted, by rintro ⟨⟩⟩
      · exact ⟨0, haccepted.trans (List.append_nil _).symm, by rintro ⟨⟩⟩
    · next b' h =>
      rw [h] at hone
      obtain ⟨n, hn, hall⟩ := ih b'
      rcases hone with haccepted | ⟨-, hrefused⟩
      · refine ⟨n + 1, ?_, fun hok => congrArg (· + 1) (hall hok)⟩
        rw [hn, haccepted, List.append_assoc]
        rfl
      · exact absurd rfl hrefused

theorem accepted_setCharacteristics (b : Bridge) (writes : List CharacteristicWrite) :
    ∃ n, (b.setCharacteristics writes).2.caller.accepted =
        b.caller.accepted ++ ((b.offers writes).take n).map (·.command.call) ∧
      ∀ count, (b.setCharacteristics writes).1 = .ok count →
        count = (b.offers writes).length ∧ n = (b.offers writes).length := by
  have hlength : (b.applyWrites writes).1.length = (b.offers writes).length := by
    rw [applyWrites_fst, List.length_map]
  obtain ⟨n, hn, hall⟩ := (b.applyWrites writes).2.accepted_dispatchAll (b.applyWrites writes).1
  refine ⟨n, ?_, fun count hcount => ?_⟩
  · refine hn.trans (congrArg (b.caller.accepted ++ ·) ?_)
    rw [applyWrites_fst, ← List.map_take, List.map_map]
    rfl
  · have hresult : (((b.applyWrites writes).2.dispatchAll (b.applyWrites writes).1).1.mapError
        BridgeError.hub).map (fun () => (b.applyWrites writes).1.length) = .ok count := hcount
    cases hr : ((b.applyWrites writes).2.dispatchAll (b.applyWrites writes).1).1 with
    | error e =>
      rw [hr] at hresult
      cases hresult
    | ok _ =>
      rw [hr] at hresult
      cases hresult
      exact ⟨hlength, (hall hr).trans hlength⟩

/-! ### Bridges -/

/-- The lights of a bridge are told apart as they were when they were added. -/
theorem Leads.distinct (h₀ : b₀.lights = .empty) (h : Leads LightAccessory.Built b₀ b) {aid : Nat}
    {l : LightAccessory} (hl : b.lights.get? aid = some l) :
    l.aid = aid ∧ Accessory.Distinct l.accessory.labels := by
  refine h.forall_lights (P := fun aid l => l.layout.1 = aid ∧ Accessory.Distinct l.layout.2)
    (fun l hl => ⟨rfl, hl.distinct⟩) (fun c aid l l' hturns hl => ?_) (by rw [h₀]; nofun) aid l hl
  have hlayout : l'.layout = l.layout := by
    cases hturns with
    | rest => rfl
    | update e _ => exact l.layout_update e
    | write writes _ => exact l.layout_write writes
  rwa [hlayout]

/-- The commands are for registered lights, in their order. -/
theorem pairwise_offers (hkey : ∀ aid l, b.lights.get? aid = some l → l.aid = aid)
    (writes : List CharacteristicWrite) : (b.offers writes).Pairwise Offer.Before := by
  refine List.pairwise_flatMap.2 ⟨fun l _ => l.pairwise_offers _, ?_⟩
  refine (Table.ascending_values LightAccessory.aid hkey).imp fun {l m} hlt x hx y hy => .inl ?_
  rw [LightAccessory.light_of_mem_offers hx, LightAccessory.light_of_mem_offers hy]
  exact Nat.compare_eq_lt.1 hlt

theorem mem_lights_of_offers (hkey : ∀ aid l, b.lights.get? aid = some l → l.aid = aid) {o : Offer}
    (ho : o ∈ b.offers writes) : b.lights.get? o.light.aid = some o.light := by
  obtain ⟨l, hl, ho⟩ := List.mem_flatMap.1 ho
  rw [LightAccessory.light_of_mem_offers ho]
  exact (Table.mem_values_iff hkey).1 hl

theorem offers_congr (hlights : ∀ l ∈ b.lights.values,
    l.offers (numbersFor writes l.aid) = l.offers (numbersFor writes' l.aid)) :
    b.offers writes = b.offers writes' := List.flatMap_congr hlights

theorem setCharacteristics_congr (hlights : ∀ l ∈ b.lights.values,
    l.write (numbersFor writes l.aid) = l.write (numbersFor writes' l.aid)) :
    b.setCharacteristics writes = b.setCharacteristics writes' := by
  have hcommands : (b.applyWrites writes).1 = (b.applyWrites writes').1 :=
    List.flatMap_congr fun l hl => congrArg (·.1.map fun c => (l, c)) (hlights l hl)
  have hafter : b.lights.map (fun l => (l.write (numbersFor writes l.aid)).2) =
      b.lights.map fun l => (l.write (numbersFor writes' l.aid)).2 := by
    refine Table.eq_of_pairs (List.map_congr_left fun p hp => ?_)
    exact congrArg (p.1, ·.2) (hlights p.2 (List.mem_map_of_mem hp))
  have happly : b.applyWrites writes = b.applyWrites writes' :=
    Prod.ext hcommands (congrArg (fun lights => { b with lights }) hafter)
  rw [setCharacteristics, happly, setCharacteristics]

/-- Two requests that leave each characteristic with the same last number come to the same, whatever else
they hold in whatever order: the same commands, calls, events, result and lights. The commands are ordered by
the accessories, the primary service of a light first, and the calls accepted are those of the first ones. -/
theorem put_congr (h₀ : b₀.lights = .empty) (h : Leads LightAccessory.Built b₀ b) {body body' : List UInt8}
    (hbody : Json.decodeBytes writesShape.read body = .ok writes)
    (hbody' : Json.decodeBytes writesShape.read body' = .ok writes')
    (hlast : ∀ aid iid, lastNumber writes aid iid = lastNumber writes' aid iid) :
    b.put body = b.put body' ∧ b.offers writes = b.offers writes' ∧
    (b.offers writes).Pairwise Offer.Before ∧
    (∀ o ∈ b.offers writes, b.lights.get? o.light.aid = some o.light) ∧
    ∃ n, (b.put body).2.caller.accepted =
        b.caller.accepted ++ ((b.offers writes).take n).map (·.command.call) ∧
      ∀ count, (b.put body).1 = .ok count →
        count = (b.offers writes).length ∧ n = (b.offers writes).length := by
  have hkey (aid : Nat) (l : LightAccessory) (hl : b.lights.get? aid = some l) : l.aid = aid :=
    (h.distinct h₀ hl).1
  have hlight {l : LightAccessory} (hl : l ∈ b.lights.values) :
      l.write (numbersFor writes l.aid) = l.write (numbersFor writes' l.aid) ∧
      l.offers (numbersFor writes l.aid) = l.offers (numbersFor writes' l.aid) := by
    refine LightAccessory.write_congr (h.distinct h₀ ((Table.mem_values_iff hkey).1 hl)).2 fun iid => ?_
    rw [lookup_numbersFor, lookup_numbersFor, hlast]
  have hput : b.put body = b.setCharacteristics writes := by rw [put, hbody]
  have hput' : b.put body' = b.setCharacteristics writes' := by rw [put, hbody']
  refine ⟨?_, offers_congr fun l hl => (hlight hl).2, pairwise_offers hkey writes,
    fun o ho => mem_lights_of_offers hkey ho, ?_⟩
  · rw [hput, hput']
    exact setCharacteristics_congr fun l hl => (hlight hl).1
  · rw [hput]
    exact b.accepted_setCharacteristics writes

/-- A lamp of two services is written to in another order, with a value between, with a text, and with a
truth value for a number. The call for its brightness comes first, written last. -/
theorem put_congr_lamp :
    let lamp : LightAccessory := .create 2 "Lamp" "light.lamp" none
      (some (.record [("supported_color_modes", .arr [.str "color_temp", .str "hs"])]))
    let b₀ : Bridge := { publisher := { bus := { capacity := 16 } }, supply := ⟨0, ⟨0, 0⟩⟩ }
    let b := Call.run b₀ (.add lamp)
    let write (iid value : String) : String :=
      "\x7b\"aid\":2,\"iid\":" ++ iid ++ ",\"value\":" ++ value ++ "\x7d"
    let request (writes : List String) : List UInt8 :=
      ("\x7b\"characteristics\":[" ++ ",".intercalate writes ++ "]\x7d").toUTF8.toList
    let body := request [write "14" "true", write "9" "30", write "9" "40"]
    let body' := request [write "9" "40", write "9" "\"full\"", write "14" "1"]
    b.put body = b.put body' ∧ (b.put body).1 = .ok 2 ∧
    ((b.put body).2.caller.accepted.map fun c => (c.data.get? "brightness_pct").isSome) = [true, false] := by
  intro lamp b₀ b write request body body'
  have hadded : Leads LightAccessory.Built b₀ b :=
    .call .refl (.add lamp) (by
      rintro _ ⟨⟩
      exact .create ..)
  have hread {body : List UInt8} {ns : List ((Nat × Nat) × Int)}
      (h : (Json.decodeBytes writesShape.read body).toOption.map numbers = some ns) :
      ∃ writes, Json.decodeBytes writesShape.read body = .ok writes ∧ numbers writes = ns := by
    cases hdecode : Json.decodeBytes writesShape.read body with
    | error _ =>
      rw [hdecode] at h
      cases h
    | ok writes =>
      rw [hdecode] at h
      exact ⟨writes, rfl, Option.some.inj h⟩
  obtain ⟨writes, hbody, hnumbers⟩ : ∃ writes, Json.decodeBytes writesShape.read body = .ok writes ∧
      numbers writes = [((2, 14), 1), ((2, 9), 30), ((2, 9), 40)] := hread (by decide +kernel)
  obtain ⟨writes', hbody', hnumbers'⟩ : ∃ writes, Json.decodeBytes writesShape.read body' = .ok writes ∧
      numbers writes = [((2, 9), 40), ((2, 14), 1)] := hread (by decide +kernel)
  have hlast (aid iid : Nat) : lastNumber writes aid iid = lastNumber writes' aid iid := by
    rw [lastNumber, lastNumber, hnumbers, hnumbers']
    by_cases h9 : (aid, iid) = (2, 9)
    · rw [h9]
      rfl
    · by_cases h14 : (aid, iid) = (2, 14)
      · rw [h14]
        rfl
      · simp [List.lookup_cons, beq_eq_false_iff_ne.2 h9, beq_eq_false_iff_ne.2 h14]
  obtain ⟨hput, -⟩ := put_congr rfl hadded hbody hbody' hlast
  exact ⟨hput, by decide +kernel, by decide +kernel⟩

end Bridge

end HomeHub.HomeKit
