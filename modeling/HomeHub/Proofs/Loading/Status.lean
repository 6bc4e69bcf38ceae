import HomeHub.Proofs.Flow.Announced
import HomeHub.Proofs.Lists
import HomeHub.Proofs.Loading.Visits

/-!
# Whose status an entity tells

Loading stores an entity for every node that it contacts, named after the slug of the node's name, and
the last one stored under an id stays. Each node has an entity of its own exactly if no two names have
the same slug; names that the store takes for different ones may well have.
-/

namespace HomeHub

namespace Visit

variable {visits : List Visit} {before after : Hub}

theorem statusId_eq_iff {v w : Visit} : v.statusId = w.statusId ↔ slug v.name = slug w.name := by
  constructor
  · intro h
    have hlist := congrArg String.toList h
    simp only [statusId, String.toList_append, List.append_assoc, List.append_cancel_left_eq,
      List.append_cancel_right_eq] at hlist
    exact String.toList_inj.1 hlist
  · intro h
    rw [statusId, statusId, h]

/-- The entity of an id tells of the last visit to a node with this id. -/
theorem Effects.get?_of_last {earlier later : List Visit} {v : Visit}
    (h : Effects (earlier ++ v :: later) before after) (hlater : ∀ w ∈ later, w.statusId ≠ v.statusId) :
    ∃ s, after.states.get? v.statusId = some s ∧ v.Shows s := by
  obtain ⟨es, hes, hstates⟩ := h.states
  rw [hstates]
  clear hstates h
  generalize before.states = t
  induction earlier generalizing es t with
  | nil =>
    obtain ⟨s, rest, hs, hrest, rfl⟩ := List.forall₂_cons_left_iff.1 hes
    have hothers : ∀ s' ∈ rest, s'.entityId ≠ v.statusId := by
      intro s' hs'
      obtain ⟨w, hw, hshows⟩ := exists_mem_of_forall₂ hrest hs'
      rw [hshows.entityId]
      exact hlater w hw
    refine ⟨s, ?_, hs⟩
    rw [List.foldl_cons, Table.get?_foldl_insert_of_ne hothers, hs.entityId, Table.get?_insert_self]
  | cons w earlier ih =>
    obtain ⟨s, rest, -, hrest, rfl⟩ := List.forall₂_cons_left_iff.1 hes
    exact ih rest hrest _

/-- No two nodes share an entity, and the entity of every node tells of it: it is on exactly if the node
answered, and has its host and port. -/
def EachItsOwn (visits : List Visit) (states : States) : Prop :=
  visits.Pairwise (fun v w => v.statusId ≠ w.statusId) ∧
    ∀ v ∈ visits, ∃ s, states.get? v.statusId = some s ∧ (s.state = .on ↔ v.answered = true) ∧
      s.attribute? "host" = some (.text v.data.host) ∧
      s.attribute? "port" = some (.int v.data.port.toNat)

theorem Effects.eachItsOwn_iff (h : Effects visits before after) :
    EachItsOwn visits after.states ↔ ((visits.map name).map slug).Nodup := by
  have hapart : visits.Pairwise (fun v w => v.statusId ≠ w.statusId) ↔
      ((visits.map name).map slug).Nodup := by
    rw [List.Nodup, List.pairwise_map, List.pairwise_map]
    exact ⟨List.Pairwise.imp fun hne heq => hne (statusId_eq_iff.2 heq),
      List.Pairwise.imp fun hne heq => hne (statusId_eq_iff.1 heq)⟩
  refine ⟨fun hown => hapart.1 hown.1, fun hnames => ⟨hapart.2 hnames, fun v hv => ?_⟩⟩
  obtain ⟨earlier, later, rfl⟩ := List.append_of_mem hv
  have hlater : ∀ w ∈ later, w.statusId ≠ v.statusId := fun w hw =>
    ((List.pairwise_cons.1 (List.pairwise_append.1 (hapart.2 hnames)).2.1).1 w hw).symm
  obtain ⟨s, hs, hshows⟩ := h.get?_of_last hlater
  refine ⟨s, hs, ?_, hshows.host, hshows.port⟩
  rw [hshows.state]
  cases v.answered <;> simp

end Visit

namespace Hub

/-- After loading, an id has the status of the last node contacted that is named so. Each node has its
own status exactly if no two entries that can be read have names with the same slug. -/
theorem status_of_last (c : Nat → Network) (h : Hub) {entries : List Entry}
    (listed : h.repository.ofDomain nativeApiDomain = .ok entries) :
    let visits := Visit.ofEntries c h.contacts.length entries
    let after := (h.loadEntriesAmid c).2
    (∀ earlier v later, visits = earlier ++ v :: later →
        (∀ w ∈ later, slug w.name ≠ slug v.name) →
        ∃ s, after.states.get? ("binary_sensor." ++ slug v.name ++ "_status") = some s ∧ v.Shows s) ∧
      (Visit.EachItsOwn visits after.states ↔
        ((entries.filter (·.nodeData?.isSome)).map fun e => slug (e.uniqueId.getD e.title)).Nodup) := by
  intro visits after
  have heffects : Visit.Effects visits h after := (effects_loadEntriesAmid c h listed).2
  constructor
  · intro earlier v later heq hlater
    rw [heq] at heffects
    exact heffects.get?_of_last fun w hw heq => hlater w hw (Visit.statusId_eq_iff.1 heq)
  · rw [heffects.eachItsOwn_iff, Visit.map_name_ofEntries, List.map_map]
    rfl

/-- The title of the one lamp is the unique id of the other, and one status is left. -/
theorem status_twoLamps :
    (∃ s, (twoLamps.loadEntriesAmid startingUp).2.states.get? "binary_sensor.lamp_status" = some s ∧
        s.state = .on) ∧
      ¬ Visit.EachItsOwn (Visit.ofEntries startingUp 0 [Register.olderLamp, Register.lamp])
        (twoLamps.loadEntriesAmid startingUp).2.states := by
  obtain ⟨hlast, hown⟩ := status_of_last startingUp twoLamps ofDomain_twoLamps
  constructor
  · have hid : "binary_sensor." ++ slug "lamp" ++ "_status" = "binary_sensor.lamp_status" := by
      decide +kernel
    have hvisits : Visit.ofEntries startingUp twoLamps.contacts.length [Register.olderLamp, Register.lamp] =
        [⟨Register.olderLamp, ⟨"10.0.0.7", 6053, ""⟩, .error .timeout⟩,
          ⟨Register.lamp, ⟨"10.0.0.7", 6053, ""⟩, .ok ⟨"lamp", false, "", "", ""⟩⟩] := by
      simp only [Visit.ofEntries, nodeData?_olderLamp, nodeData?_lamp]
      rfl
    obtain ⟨s, hs, hshows⟩ := hlast [_] _ [] hvisits (by simp)
    have hname : Visit.name ⟨Register.lamp, ⟨"10.0.0.7", 6053, ""⟩, .ok ⟨"lamp", false, "", "", ""⟩⟩ =
        "lamp" := rfl
    rw [hname, hid] at hs
    exact ⟨s, hs, hshows.state⟩
  · refine mt hown.1 ?_
    decide +kernel

/-! ### Names that the store tells apart -/

/-- A lamp with a hyphen in its unique id. -/
def hyphenLamp : Entry := { Register.lamp with uniqueId := some "desk-lamp" }

/-- A second lamp, with an underscore. -/
def underscoreLamp : Entry :=
  { Register.lamp with
    id := .generated 1
    uniqueId := some "desk_lamp"
    data := (EntryData.mk "10.0.0.8" 6053 "").toJson }

/-- Entries that the store keeps apart may share a status. -/
theorem not_always_eachItsOwn : ¬ ∀ (c : Nat → Network) (h : Hub) (entries : List Entry),
    h.repository.rows.WellKept → h.repository.ofDomain nativeApiDomain = .ok entries →
      Visit.EachItsOwn (Visit.ofEntries c h.contacts.length entries)
        (h.loadEntriesAmid c).2.states := by
  intro hall
  let h : Hub := { (default : Hub) with repository := Register.repository [hyphenLamp, underscoreLamp] }
  have sound : Register.Sound [hyphenLamp, underscoreLamp] := by
    refine ⟨fun e he => ?_, by decide⟩
    rcases List.mem_pair.1 he with rfl | rfl
    · exact ⟨Register.storable_lamp.data, by decide, by decide⟩
    · exact ⟨EntryData.ofText_toJson ⟨"10.0.0.8", 6053, ""⟩, by decide, by decide⟩
  have kept : h.repository.rows.WellKept := by
    refine Rows.wellKept_of_register sound (List.pairwise_pair.2 ?_) fun e he => ?_
    · exact fun hclash => absurd hclash.2.2 (by decide)
    · rcases List.mem_pair.1 he with rfl | rfl <;> decide +kernel
  have listed : h.repository.ofDomain nativeApiDomain = .ok [hyphenLamp, underscoreLamp] :=
    (Register.ofDomain_eq sound nativeApiDomain).trans (congrArg Except.ok rfl)
  have hown := (effects_loadEntriesAmid startingUp h listed).2.eachItsOwn_iff.1
    (hall startingUp h _ kept listed)
  rw [Visit.map_name_ofEntries] at hown
  exact absurd hown (by decide +kernel)

end Hub

end HomeHub
