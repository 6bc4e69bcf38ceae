import HomeHub.Proofs.States.Writes

/-!
# What the events tell of the states

The event of a change carries the entity before and after it. Of one entity the events of a run tell
steps that join, from nothing to what is stored of it (`joins_events`); who keeps the last state told
of every entity has the states themselves (`keep_events`). A call that is refused, or that finds
nothing to remove, tells nothing and changes nothing.
-/

namespace HomeHub

/-! ### Steps that join -/

/-- The steps lead from one state to another, each beginning where the one before it ended. -/
inductive Joins {α : Type} : α → List (α × α) → α → Prop where
  | nil (a : α) : Joins a [] a
  | cons {a b c : α} {r : List (α × α)} : Joins b r c → Joins a ((a, b) :: r) c

theorem joins_append {α : Type} {a c : α} {l m : List (α × α)} :
    Joins a (l ++ m) c ↔ ∃ b, Joins a l b ∧ Joins b m c := by
  constructor
  · intro h
    induction l generalizing a with
    | nil => exact ⟨a, .nil a, h⟩
    | cons p r ih =>
      cases h with
      | cons h =>
        obtain ⟨b, hl, hm⟩ := ih h
        exact ⟨b, .cons hl, hm⟩
  · rintro ⟨b, hl, hm⟩
    induction hl with
    | nil => exact hm
    | cons _ ih => exact .cons (ih hm)

/-! ### Events of changes -/

/-- The event tells of the change. -/
structure Change.ToldBy (c : Change) (e : Event) : Prop where
  kind : e.eventType = .stateChanged
  about : e.entityId = some c.entityId
  data : e.data = c.data

/-- What is told of an entity that is stored so. -/
def States.told (s : States) (id : String) : Option Json :=
  some (.ofOption Entity.toJson (s.get? id))

namespace Event

/-- What events tell of an entity: its state before and after each of them. -/
def steps (id : String) (events : List Event) : List (Option Json × Option Json) :=
  (events.filter fun e => e.entityId = some id).map fun e =>
    (e.data.get? "old_state", e.data.get? "new_state")

/-- Takes over the new state that an event tells. A null state is that of no entity. -/
def keep (t : Table String Json) (e : Event) : Table String Json :=
  match e.entityId, e.data.get? "new_state" with
  | some id, some .null => t.erase id
  | some id, some state => t.insert id state
  | _, _ => t

/-- The last state that the events tell of each entity. -/
def replay (events : List Event) : Table String Json := events.foldl keep .empty

theorem steps_append (id : String) (l m : List Event) : steps id (l ++ m) = steps id l ++ steps id m := by
  rw [steps, List.filter_append, List.map_append]
  rfl

end Event

namespace Change

variable {c : Change} {e : Event}

/-- The step of its entity, before and after. -/
def step (c : Change) : Option Json × Option Json :=
  (some (.ofOption Entity.toJson c.old), some (.ofOption Entity.toJson c.new))

/-- The steps of an entity among changes. -/
def steps (id : String) (changes : List Change) : List (Option Json × Option Json) :=
  (changes.filter fun c => c.entityId = id).map step

theorem steps_append (id : String) (l m : List Change) : steps id (l ++ m) = steps id l ++ steps id m := by
  rw [steps, List.filter_append, List.map_append]
  rfl

theorem ToldBy.steps_eq (h : c.ToldBy e) (id : String) : Event.steps id [e] = steps id [c] := by
  have hold : e.data.get? "old_state" = some (.ofOption Entity.toJson c.old) := by
    rw [h.data]
    exact c.get?_data (by simp [members])
  have hnew : e.data.get? "new_state" = some (.ofOption Entity.toJson c.new) := by
    rw [h.data]
    exact c.get?_data (by simp [members])
  by_cases hid : c.entityId = id
  · simp [Event.steps, steps, step, h.about, hid, hold, hnew]
  · simp [Event.steps, steps, h.about, hid]

/-- To keep what the event tells is to make the change. -/
theorem ToldBy.keep_eq (h : c.ToldBy e) (s : States) :
    e.keep (s.map Entity.toJson) = (c.commit s).map Entity.toJson := by
  have hnew : e.data.get? "new_state" = some (.ofOption Entity.toJson c.new) := by
    rw [h.data]
    exact c.get?_data (by simp [members])
  refine Table.eq_of_get? fun id => ?_
  rw [Table.get?_map, get?_commit, Event.keep, h.about, hnew]
  cases c.new with
  | none =>
    show ((s.map Entity.toJson).erase c.entityId).get? id = _
    rw [Table.get?_erase, Table.get?_map]
    simp only [Std.LawfulEqCmp.compare_eq_iff_eq]
    split <;> rfl
  | some x =>
    show ((s.map Entity.toJson).insert c.entityId x.toJson).get? id = _
    rw [Table.get?_insert, Table.get?_map]
    simp only [Std.LawfulEqCmp.compare_eq_iff_eq]
    split <;> rfl

/-- The change was made to these states. -/
theorem joins_commit {s : States} (hold : c.old = s.get? c.entityId) (id : String) :
    Joins (s.told id) (steps id [c]) ((c.commit s).told id) := by
  rw [States.told, States.told, get?_commit]
  by_cases hid : id = c.entityId
  · subst hid
    simp only [steps, step, hold, decide_true, List.filter_cons_of_pos, List.filter_nil,
      List.map_cons, List.map_nil, ↓reduceIte]
    exact .cons (.nil _)
  · have hne : ¬ c.entityId = id := fun h => hid h.symm
    simp only [steps, hid, hne, decide_false, Bool.false_eq_true, not_false_eq_true,
      List.filter_cons_of_neg, List.filter_nil, List.map_nil, ↓reduceIte]
    exact .nil _

end Change

/-! ### Entities under their own ids -/

/-- Every entity is stored under its own id, which is well-formed. -/
def States.Keyed (s : States) : Prop :=
  ∀ id e, s.get? id = some e → e.entityId = id ∧ (splitEntityId? id).isSome

namespace States

variable {s : States} {id : String} {e : Entity}

theorem Sets.keyed {state : EntityState} {attributes : Attributes} {fresh : Uuid} {now : Timestamp}
    (he : Sets s id state attributes fresh now e) (hs : s.Keyed) :
    e.entityId = id ∧ (splitEntityId? id).isSome := by
  cases he with
  | update hold =>
    have hold' := hs id _ hold
    exact hold'
  | create _ hbuild =>
    obtain ⟨hvalid, rfl⟩ := Entity.Draft.eq_of_build hbuild
    exact ⟨rfl, hvalid⟩

theorem Keyed.mem_all (hs : s.Keyed) : e ∈ s.all ↔ s.get? e.entityId = some e :=
  Table.mem_values_iff fun id e he => (hs id e he).1

/-- The listing is ordered by the ids, so it holds no entity twice. -/
theorem Keyed.ascending_all (hs : s.Keyed) : (s.all.map (·.entityId)).Pairwise (· < ·) := by
  have hascending := Table.ascending_values Entity.entityId fun id e he => (hs id e he).1
  exact List.pairwise_map.2 (hascending.imp fun h => compareOfLessAndEq_eq_lt.1 h)

/-- In whatever order the entities are taken, sorted by their ids they are the listing. -/
theorem Keyed.mergeSort_eq_all {l : List Entity} (hs : s.Keyed) (hl : l.Perm s.values) :
    l.mergeSort (fun a b => decide (a.entityId ≤ b.entityId)) = s.all := by
  have hperm : (l.mergeSort fun a b => decide (a.entityId ≤ b.entityId)).Perm s.all :=
    (List.mergeSort_perm ..).trans hl
  have sorted : (l.mergeSort fun a b => decide (a.entityId ≤ b.entityId)).Pairwise
      fun a b => a.entityId ≤ b.entityId := by
    refine (List.pairwise_mergeSort (fun a b c hab hbc => ?_) (fun a b => ?_) l).imp of_decide_eq_true
    · exact decide_eq_true (String.le_trans (of_decide_eq_true hab) (of_decide_eq_true hbc))
    · simpa using String.le_total a.entityId b.entityId
  have ascending : s.all.Pairwise fun a b => a.entityId ≤ b.entityId :=
    (List.pairwise_map.1 hs.ascending_all).imp fun h => String.not_lt.1 (String.lt_asymm h)
  refine hperm.eq_of_pairwise (fun a b ha hb hab hba => ?_) sorted ascending
  -- two entities of the listing with one id are one entity
  have heq : a.entityId = b.entityId := String.le_antisymm hab hba
  have hget := hs.mem_all.1 (hperm.mem_iff.1 ha)
  rw [heq] at hget
  exact Option.some.inj (hget.symm.trans (hs.mem_all.1 hb))

end States

/-! ### What becomes of a call -/

namespace Write

variable {w : Write} {h : Hub} {c : Change}

/-- The id that the call names. -/
def entityId : Write → String
  | set entityId _ _ => entityId
  | insert e => e.entityId
  | remove entityId => entityId

/-- What the call answers: the entity that it stored or removed, if any. -/
def answer (w : Write) (h : Hub) : Except HubError (Option Entity) :=
  match w with
  | set entityId state attributes => (h.setState entityId state attributes).1.map some
  | insert e => (h.insertState e).1.map some
  | remove entityId => (h.removeState entityId).1

theorem old_of_change (hc : w.change? h = some c) : c.old = h.states.get? c.entityId := by
  cases makes_of_change hc with
  | set _ => rfl
  | insert _ => rfl
  | remove hold => exact hold.symm

theorem entityId_of_change (hs : h.states.Keyed) (hc : w.change? h = some c) :
    c.entityId = w.entityId := by
  cases makes_of_change hc with
  | set he => exact (he.keyed hs).1
  | insert _ => rfl
  | remove _ => rfl

theorem keyed_of_change (hs : h.states.Keyed) (hc : w.change? h = some c) :
    ∀ e ∈ c.new, e.entityId = c.entityId ∧ (splitEntityId? c.entityId).isSome := by
  cases makes_of_change hc with
  | @set _ _ _ e he =>
    rintro _ ⟨⟩
    obtain ⟨hid, hvalid⟩ := he.keyed hs
    refine ⟨rfl, ?_⟩
    show (splitEntityId? e.entityId).isSome
    rwa [hid]
  | insert hvalid =>
    rintro _ ⟨⟩
    exact ⟨rfl, hvalid⟩
  | remove _ => nofun

theorem keyed_apply (w : Write) (hs : h.states.Keyed) : (w.apply h).states.Keyed := by
  rw [apply_states]
  cases hc : w.change? h with
  | none => exact hs
  | some c =>
    intro id e he
    rw [Change.get?_commit] at he
    split at he
    · next hid => exact hid ▸ keyed_of_change hs hc e he
    · exact hs id e he

theorem toldBy_of_event {e : Event} (he : w.event? h = some e) :
    ∃ c, w.change? h = some c ∧ c.ToldBy e := by
  obtain ⟨c, hc, rfl⟩ := Option.map_eq_some_iff.1 he
  exact ⟨c, hc, rfl, rfl, rfl⟩

theorem open_apply (w : Write) (hopen : h.publisher.Open) : (w.apply h).publisher.Open := by
  rw [apply_publisher]
  split
  · exact hopen.publish _
  · exact hopen

/-- The answer of a call that makes a change. -/
theorem answer_of_change (hc : w.change? h = some c) : w.answer h =
    ({ w.drawn h with states := c.commit h.states }.announce c).1.map fun _ => c.new <|> c.old := by
  cases w with
  | set id state attributes =>
    rw [change?] at hc
    cases hset : h.states.set id state attributes h.draw.1 h.supply.now with
    | error rule => rw [hset] at hc; cases hc
    | ok r =>
      obtain ⟨e, -, rfl⟩ := States.exists_of_set hset
      rw [hset] at hc
      cases hc
      have hset' : h.draw.2.states.set id state attributes h.draw.1 h.draw.2.supply.now =
        .ok (e, h.states.put e) := hset
      simp only [answer, Hub.setState, hset']
      exact (comp_map (fun _ => e) some (_ : Except HubError Unit)).symm
  | insert e =>
    rw [change?] at hc
    cases hinsert : h.states.insertEntity e with
    | error rule => rw [hinsert] at hc; cases hc
    | ok r =>
      obtain ⟨-, rfl⟩ := States.eq_of_insertEntity hinsert
      rw [hinsert] at hc
      cases hc
      simp only [answer, Hub.insertState, hinsert]
      exact (comp_map (fun _ => e) some (_ : Except HubError Unit)).symm
  | remove id =>
    obtain ⟨r, hremove, rfl⟩ := Option.map_eq_some_iff.1 hc
    obtain ⟨old, -, rfl⟩ := States.exists_of_removeEntity hremove
    simp only [answer, Hub.removeState, hremove]
    rfl

theorem answer_open (hopen : h.publisher.Open) (hc : w.change? h = some c) :
    w.answer h = .ok (c.new <|> c.old) := by
  have haccepted : ({ w.drawn h with states := c.commit h.states }.announce c).1 = .ok () := by
    show ((w.drawn h).publisher.publish _).1 = .ok ()
    rw [drawn_publisher, Publisher.publish_open hopen]
  rw [answer_of_change hc, haccepted]
  rfl

/-- Without a change the call was refused, or there was nothing to remove. -/
theorem answer_of_no_change (hc : w.change? h = none) : (∃ err, w.answer h = .error err) ∨
    (w.answer h = .ok none ∧ ∃ id, w = .remove id ∧ h.states.get? id = none) := by
  cases w with
  | set id state attributes =>
    rw [change?] at hc
    cases hset : h.states.set id state attributes h.draw.1 h.supply.now with
    | error rule =>
      have hset' : h.draw.2.states.set id state attributes h.draw.1 h.draw.2.supply.now =
        .error rule := hset
      refine .inl ⟨.invalid rule, ?_⟩
      simp only [answer, Hub.setState, hset']
      rfl
    | ok r => rw [hset] at hc; cases hc
  | insert e =>
    rw [change?] at hc
    cases hinsert : h.states.insertEntity e with
    | error rule =>
      refine .inl ⟨.invalid rule, ?_⟩
      simp only [answer, Hub.insertState, hinsert]
      rfl
    | ok r => rw [hinsert] at hc; cases hc
  | remove id =>
    have hremove : h.states.removeEntity id = none := Option.map_eq_none_iff.1 hc
    refine .inr ⟨?_, id, rfl, Option.map_eq_none_iff.1 hremove⟩
    simp only [answer, Hub.removeState, hremove]

theorem no_change_of_answer (hopen : h.publisher.Open) (hnone : ∀ e, w.answer h ≠ .ok (some e)) :
    w.change? h = none := by
  cases hc : w.change? h with
  | none => rfl
  | some c =>
    have hanswer := answer_open hopen hc
    cases makes_of_change hc <;> exact absurd hanswer (hnone _)

theorem unchanged_of_no_change (hc : w.change? h = none) :
    (w.apply h).states = h.states ∧ (w.apply h).publisher = h.publisher := by
  rw [apply_eq, hc]
  exact ⟨drawn_states w h, drawn_publisher w h⟩

/-- What comes of a call. -/
structure Told (w : Write) (h : Hub) : Prop where
  /-- A call that stores or removes an entity tells of that entity, once. -/
  touched : ∀ e, w.answer h = .ok (some e) → ∃ event : Event,
    event.eventType = .stateChanged ∧ event.entityId = some w.entityId ∧
      (w.apply h).publisher.published = h.publisher.published ++ [event]
  /-- No other call that succeeds than one that finds nothing to remove. -/
  missing : w.answer h = .ok none ↔ ∃ id, w = .remove id ∧ h.states.get? id = none
  untouched : w.answer h = .ok none →
    (w.apply h).states = h.states ∧ (w.apply h).publisher = h.publisher
  rejected : ∀ err, w.answer h = .error err →
    (w.apply h).states = h.states ∧ (w.apply h).publisher = h.publisher
  /-- Of an entity that is set anew its state, its attributes and its times may change. -/
  kept : ∀ id state attributes old, w = .set id state attributes → h.states.get? id = some old →
    (w.apply h).states.get? id = some { old with
      state
      attributes
      lastChanged := if old.state = state then old.lastChanged else h.supply.now
      lastUpdated := h.supply.now }

theorem get?_apply_set {id : String} {state : EntityState} {attributes : Attributes} {old : Entity}
    (hs : h.states.Keyed) (hold : h.states.get? id = some old) :
    ((set id state attributes).apply h).states.get? id =
      some { old.updateState state h.supply.now with attributes } := by
  have hset : h.states.set id state attributes h.draw.1 h.supply.now =
      .ok ({ old.updateState state h.supply.now with attributes },
        h.states.put { old.updateState state h.supply.now with attributes }) := by
    rw [States.set, hold]
  have hc : (set id state attributes).change? h =
      some (h.states.put { old.updateState state h.supply.now with attributes }).1 := by
    rw [change?, hset]
    rfl
  rw [apply_states, hc, Change.get?_commit]
  exact if_pos (hs id old hold).1.symm

theorem told (w : Write) (hs : h.states.Keyed) (hopen : h.publisher.Open) : w.Told h where
  touched e he := by
    cases hc : w.change? h with
    | none =>
      rcases answer_of_no_change hc with ⟨err, herr⟩ | ⟨hnone, -⟩
      · rw [he] at herr; cases herr
      · rw [he] at hnone; cases hnone
    | some c =>
      have hevent : w.event? h =
          some (Event.make .stateChanged (some c.entityId) c.data (w.drawn h).supply).1 :=
        congrArg _ hc
      refine ⟨(Event.make .stateChanged (some c.entityId) c.data (w.drawn h).supply).1, rfl,
        congrArg some (entityId_of_change hs hc), ?_⟩
      rw [apply_publisher, hevent]
      exact congrArg (fun r => r.2.published) (Publisher.publish_open hopen _)
  missing := by
    constructor
    · intro hnone
      have hc : w.change? h = none := no_change_of_answer hopen (by simp [hnone])
      rcases answer_of_no_change hc with ⟨err, herr⟩ | ⟨-, hmissing⟩
      · rw [hnone] at herr; cases herr
      · exact hmissing
    · rintro ⟨id, rfl, hnone⟩
      have hremove : h.states.removeEntity id = none := Option.map_eq_none_iff.2 hnone
      simp only [answer, Hub.removeState, hremove]
  untouched hnone := unchanged_of_no_change (no_change_of_answer hopen (by simp [hnone]))
  rejected err herr := unchanged_of_no_change (no_change_of_answer hopen (by simp [herr]))
  kept id state attributes old hw hold := by
    subst hw
    exact get?_apply_set hs hold

/-- The event of the call, if any, tells the step that the call makes of an entity. -/
theorem joins_event (w : Write) (h : Hub) (id : String) :
    Joins (h.states.told id) (Event.steps id (w.event? h).toList) ((w.apply h).states.told id) := by
  rw [apply_states]
  cases he : w.event? h with
  | none =>
    rw [Option.map_eq_none_iff.1 he]
    exact .nil _
  | some e =>
    obtain ⟨c, hc, hce⟩ := toldBy_of_event he
    rw [hc, Option.toList_some, hce.steps_eq]
    exact Change.joins_commit (old_of_change hc) id

theorem keep_event (w : Write) (h : Hub) :
    (w.event? h).toList.foldl Event.keep (h.states.map Entity.toJson) =
      (w.apply h).states.map Entity.toJson := by
  rw [apply_states]
  cases he : w.event? h with
  | none =>
    rw [Option.map_eq_none_iff.1 he]
    rfl
  | some e =>
    obtain ⟨c, hc, hce⟩ := toldBy_of_event he
    rw [hc]
    exact hce.keep_eq h.states

end Write

/-! ### Runs -/

namespace Writes

theorem keyed_run (ws : Writes) {h : Hub} (hs : h.states.Keyed) : (ws.run h).states.Keyed := by
  induction ws generalizing h with
  | nil => exact hs
  | cons call r ih => exact ih (call.2.keyed_apply hs)

theorem open_run (ws : Writes) {h : Hub} (hopen : h.publisher.Open) : (ws.run h).publisher.Open := by
  induction ws generalizing h with
  | nil => exact hopen
  | cons call r ih => exact ih (call.2.open_apply hopen)

theorem joins_events (ws : Writes) (h : Hub) (id : String) :
    Joins (h.states.told id) (Event.steps id (ws.events h)) ((ws.run h).states.told id) := by
  induction ws generalizing h with
  | nil => exact .nil _
  | cons call r ih =>
    rw [events, Event.steps_append]
    exact joins_append.2 ⟨_, call.2.joins_event (h.atTime call.1) id, ih _⟩

theorem keep_events (ws : Writes) (h : Hub) :
    (ws.events h).foldl Event.keep (h.states.map Entity.toJson) =
      (ws.run h).states.map Entity.toJson := by
  induction ws generalizing h with
  | nil => rfl
  | cons call r ih =>
    have hcall := call.2.keep_event (h.atTime call.1)
    rw [events, List.foldl_append, run, ← ih, ← hcall]
    rfl

/-- Calls one after another on states that start empty, with a publisher that accepts every event:
what the events tell last of each entity is what is stored; the steps that they tell of an entity join;
every entity is stored and listed once, under its own id; and `Told` says what comes of the next call. -/
theorem events_tell_states (ws : Writes) (h : Hub) (hstates : h.states = .empty)
    (hpublished : h.publisher.published = []) (hopen : h.publisher.Open) :
    let after := ws.run h
    Event.replay after.publisher.published = after.states.map Entity.toJson ∧
    (∀ id, Joins (some .null) (Event.steps id after.publisher.published) (after.states.told id)) ∧
    (∀ id e, after.states.get? id = some e → e.entityId = id ∧ (splitEntityId? id).isSome) ∧
    (after.states.all.map (·.entityId)).Pairwise (· < ·) ∧
    (∀ e, e ∈ after.states.all ↔ after.states.get? e.entityId = some e) ∧
    ∀ now w, Write.Told w (after.atTime now) := by
  have hkeyed : (ws.run h).states.Keyed := ws.keyed_run (by rw [hstates]; nofun)
  have hevents : (ws.run h).publisher.published = ws.events h := by
    rw [run_publisher, Publisher.published_foldl hopen, hpublished, List.nil_append]
  refine ⟨?_, fun id => ?_, hkeyed, hkeyed.ascending_all, fun e => hkeyed.mem_all, fun now w =>
    w.told hkeyed (ws.open_run hopen)⟩
  · have hkeep := ws.keep_events h
    rw [hstates] at hkeep
    rw [hevents]
    exact hkeep
  · have hjoins := ws.joins_events h id
    rw [hstates] at hjoins
    rw [hevents]
    exact hjoins

/-- A lamp is switched on, a reading of a door comes in twice, an entity without a domain is refused
and the lamp is removed. -/
theorem events_tell_door :
    let h : Hub := { supply := ⟨0, ⟨0, 0⟩⟩, publisher := { bus := { capacity := 16 } }, network := default }
    let ws : Writes := [
      (⟨60, 0⟩, .set "light.lamp" .on .empty),
      (⟨70, 0⟩, .set "sensor.door" (.value "3.5") .empty),
      (⟨80, 0⟩, .insert { (default : Entity) with entityId := "door" }),
      (⟨90, 0⟩, .set "sensor.door" (.value "3.5") .empty),
      (⟨95, 0⟩, .remove "light.lamp")]
    let after := ws.run h
    after.publisher.published.map (·.entityId) =
      [some "light.lamp", some "sensor.door", some "sensor.door", some "light.lamp"] ∧
    after.states.all.map (fun e => (e.entityId, e.lastChanged, e.lastUpdated)) =
      [("sensor.door", ⟨70, 0⟩, ⟨90, 0⟩)] ∧
    Event.replay after.publisher.published = after.states.map Entity.toJson ∧
    (∀ id, Joins (some .null) (Event.steps id after.publisher.published) (after.states.told id)) ∧
    (∀ id e, after.states.get? id = some e → e.entityId = id ∧ (splitEntityId? id).isSome) ∧
    (after.states.all.map (·.entityId)).Pairwise (· < ·) ∧
    (∀ e, e ∈ after.states.all ↔ after.states.get? e.entityId = some e) ∧
    ∀ now w, Write.Told w (after.atTime now) := by
  intro h ws after
  exact ⟨by decide +kernel, by decide +kernel, events_tell_states ws h rfl rfl fun _ => rfl⟩

end Writes

end HomeHub
