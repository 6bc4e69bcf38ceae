import HomeHub.Proofs.States.Telling
import Mathlib.Data.List.ReduceOption

/-!
# Writes that overlap

A call that writes the states takes two turns: it changes the states while it alone holds them, and
afterwards it hands over its event. In between other calls may take turns. `Writers` are the calls with
what each still has to tell; the two turns of a call in a row are the call itself (`run_pair`).

The changes are made one after the other, so their steps join (`Accounted.joins`). Their events need
not come in that order, and then the steps that the events tell do not join. They do join for an entity
whose changes are told in the order in which they were made (`Even.run`).
-/

namespace HomeHub

/-- The first turn of a call: the change that it makes, if any, and the hub after it. -/
def Write.update (w : Write) (h : Hub) : Option Change × Hub :=
  match w.change? h with
  | some c => (some c, { w.drawn h with states := c.commit h.states })
  | none => (none, w.drawn h)

structure Writers where
  hub : Hub
  /-- What each call still has to tell, none once it has returned. -/
  calls : List (Option Change) := []
  /-- The changes, in the order in which they were made. -/
  made : List Change := []

inductive Turn where
  /-- A call begins and updates the states. -/
  | update (now : Timestamp) (w : Write)
  /-- A call tells of its change and returns. -/
  | tell (now : Timestamp) (call : Nat)

namespace Writers

variable {ws : Writers} {id : String}

/-- The changes not told yet. -/
def pending (ws : Writers) : List Change := ws.calls.reduceOption

def take (ws : Writers) : Turn → Writers
  | .update now w =>
    let (c, hub) := w.update (ws.hub.atTime now)
    { hub, calls := ws.calls ++ [c], made := ws.made ++ c.toList }
  | .tell now call =>
    match ws.calls[call]? with
    | some (some c) =>
      { ws with hub := ((ws.hub.atTime now).announce c).2, calls := ws.calls.set call none }
    | _ => ws

def run (ws : Writers) (turns : List Turn) : Writers := turns.foldl take ws

/-- A call that is not interrupted is the call as a whole. -/
theorem run_pair (ws : Writers) (now : Timestamp) (w : Write) :
    (ws.run [.update now w, .tell now ws.calls.length]).hub = w.apply (ws.hub.atTime now) := by
  rw [run, List.foldl_cons, List.foldl_cons, List.foldl_nil, Write.apply_eq]
  cases hc : w.change? (ws.hub.atTime now) with
  | none => simp only [take, Write.update, hc, List.getElem?_concat_length]
  | some c =>
    simp only [take, Write.update, hc, List.getElem?_concat_length]
    cases w <;> rfl

/-- The call is the first of those that have still to tell something of the entity. -/
def Turn.IsDue (id : String) (ws : Writers) : Turn → Prop
  | .update .. => True
  | .tell _ call => ws.calls[call]?.join.any (·.entityId = id) →
    ∀ c ∈ (ws.calls.take call).reduceOption, c.entityId ≠ id

/-- The changes of the entity are told in the order in which they are made. -/
def InOrder (id : String) : Writers → List Turn → Prop
  | _, [] => True
  | ws, t :: r => Turn.IsDue id ws t ∧ InOrder id (ws.take t) r

instance (id : String) (ws : Writers) (t : Turn) : Decidable (Turn.IsDue id ws t) :=
  match t with
  | .update .. => .isTrue trivial
  | .tell .. => inferInstanceAs (Decidable (_ → _))

instance decidableInOrder (id : String) : (ws : Writers) → (turns : List Turn) →
    Decidable (InOrder id ws turns)
  | _, [] => .isTrue trivial
  | ws, t :: r =>
    have := decidableInOrder id (ws.take t) r
    inferInstanceAs (Decidable (_ ∧ _))

/-! ### What every run keeps -/

end Writers

/-- What an event has of its change. -/
def Change.content (c : Change) : EventType × Option String × Json :=
  (.stateChanged, some c.entityId, c.data)

namespace Writers

variable {ws : Writers} {id : String} {start : States}

/-- The changes made are those told and those to be told; their steps join. -/
structure Accounted (start : States) (ws : Writers) : Prop where
  accepted : ws.hub.publisher.Open
  joins : ∀ id, Joins (start.told id) (Change.steps id ws.made) (ws.hub.states.told id)
  told : (ws.made.map Change.content).Perm
    (ws.hub.publisher.published.map Event.said ++ ws.pending.map Change.content)

theorem reduceOption_concat_toList (calls : List (Option Change)) (c : Option Change) :
    (calls ++ [c]).reduceOption = calls.reduceOption ++ c.toList := by
  cases c <;> simp [List.reduceOption_append, List.reduceOption_cons_of_none]

/-- A call that tells is one of those with something to tell, and none of them afterwards. -/
theorem exists_pending {call : Nat} {c : Change} (hc : ws.calls[call]? = some (some c)) :
    ∃ earlier later, ws.calls = earlier ++ some c :: later ∧ earlier.length = call ∧
      ws.calls.set call none = earlier ++ none :: later := by
  obtain ⟨hlt, heq⟩ := List.getElem?_eq_some_iff.1 hc
  refine ⟨ws.calls.take call, ws.calls.drop (call + 1), ?_, by simp [hlt.le], ?_⟩
  · rw [← heq, List.getElem_cons_drop, List.take_append_drop]
  · rw [List.set_eq_take_append_cons_drop, if_pos hlt]

theorem exists_announced {h : Hub} (hopen : h.publisher.Open) (c : Change) :
    ∃ e, c.ToldBy e ∧ (h.announce c).2.states = h.states ∧ (h.announce c).2.publisher.Open ∧
      (h.announce c).2.publisher.published = h.publisher.published ++ [e] :=
  ⟨_, ⟨rfl, rfl, rfl⟩, rfl, hopen.publish _,
    congrArg (fun r => r.2.published) (Publisher.publish_open hopen _)⟩

theorem Accounted.update (h : ws.Accounted start) (now : Timestamp) (w : Write) :
    (ws.take (.update now w)).Accounted start := by
  have hpublisher := w.drawn_publisher (ws.hub.atTime now)
  have hstates := w.drawn_states (ws.hub.atTime now)
  cases hc : w.change? (ws.hub.atTime now) with
  | none =>
    have htake : ws.take (.update now w) =
        { hub := w.drawn (ws.hub.atTime now), calls := ws.calls ++ [none], made := ws.made } := by
      simp only [take, Write.update, hc, Option.toList_none, List.append_nil]
    rw [htake]
    refine ⟨hpublisher ▸ h.accepted, fun id => hstates ▸ h.joins id, ?_⟩
    simp only [pending, hpublisher, reduceOption_concat_toList, Option.toList_none, List.append_nil]
    exact h.told
  | some c =>
    have htake : ws.take (.update now w) = {
        hub := { w.drawn (ws.hub.atTime now) with states := c.commit ws.hub.states }
        calls := ws.calls ++ [some c]
        made := ws.made ++ [c] } := by
      simp only [take, Write.update, hc, Option.toList_some]
      rfl
    rw [htake]
    refine ⟨hpublisher ▸ h.accepted, fun id => ?_, ?_⟩
    · rw [Change.steps_append]
      exact joins_append.2 ⟨_, h.joins id, Change.joins_commit (Write.old_of_change hc) id⟩
    · simp only [pending, hpublisher, reduceOption_concat_toList, Option.toList_some, List.map_append,
        ← List.append_assoc]
      exact h.told.append_right _

theorem Accounted.tell (h : ws.Accounted start) (now : Timestamp) (call : Nat) :
    (ws.take (.tell now call)).Accounted start := by
  rw [take]
  split
  · next c hc =>
    obtain ⟨earlier, later, hcalls, -, hset⟩ := exists_pending hc
    obtain ⟨e, hce, hstates, hopen, hpublished⟩ :=
      exists_announced (h := ws.hub.atTime now) h.accepted c
    refine ⟨hopen, fun id => hstates ▸ h.joins id, ?_⟩
    have hsaid : e.said = c.content := by
      rw [Event.said, hce.kind, hce.about, hce.data, Change.content]
    have htold := h.told
    simp only [pending, hcalls, List.reduceOption_append, List.reduceOption_cons_of_some,
      List.map_append, List.map_cons] at htold
    simp only [pending, hset, hpublished, List.reduceOption_append, List.reduceOption_cons_of_none,
      List.map_append, List.map_cons, List.map_nil, hsaid, List.append_assoc]
    refine htold.trans (List.Perm.append_left _ ?_)
    exact List.perm_middle
  · exact h

theorem Accounted.run (h : ws.Accounted start) (turns : List Turn) :
    (ws.run turns).Accounted start := by
  induction turns generalizing ws with
  | nil => exact h
  | cons t r ih =>
    cases t with
    | update now w => exact ih (h.update now w)
    | tell now call => exact ih (h.tell now call)

/-! ### Changes told in order -/

/-- Of this entity the events are those of the first changes. -/
def Even (id : String) (ws : Writers) : Prop :=
  Change.steps id ws.made =
    Event.steps id ws.hub.publisher.published ++ Change.steps id ws.pending

theorem steps_of_others {changes : List Change} (h : ∀ c ∈ changes, c.entityId ≠ id) :
    Change.steps id changes = [] := by
  have hnone : changes.filter (fun c => c.entityId = id) = [] :=
    List.filter_eq_nil_iff.2 fun c hc => by simpa using h c hc
  rw [Change.steps, hnone, List.map_nil]

theorem Even.update (h : ws.Even id) (now : Timestamp) (w : Write) :
    (ws.take (.update now w)).Even id := by
  have hpublisher : (w.update (ws.hub.atTime now)).2.publisher = ws.hub.publisher := by
    rw [Write.update]
    split <;> exact w.drawn_publisher _
  show Change.steps id (ws.made ++ _) = Event.steps id (w.update _).2.publisher.published ++
    Change.steps id (ws.calls ++ [_]).reduceOption
  rw [hpublisher, reduceOption_concat_toList, Change.steps_append, Change.steps_append, h,
    List.append_assoc]
  rfl

theorem Even.tell {call : Nat} (h : ws.Even id) (hopen : ws.hub.publisher.Open) (now : Timestamp)
    (hdue : Turn.IsDue id ws (.tell now call)) : (ws.take (.tell now call)).Even id := by
  rw [take]
  split
  · next c hc =>
    obtain ⟨earlier, later, hcalls, hlength, hset⟩ := exists_pending hc
    obtain ⟨e, hce, -, -, hpublished⟩ := exists_announced (h := ws.hub.atTime now) hopen c
    rw [Even] at h
    simp only [Even, pending, hset, hpublished, List.reduceOption_append, Event.steps_append,
      List.reduceOption_cons_of_none, Change.steps_append, hce.steps_eq]
    rw [h, pending, hcalls, List.reduceOption_append, List.reduceOption_cons_of_some,
      ← List.singleton_append, Change.steps_append, Change.steps_append, List.append_assoc]
    by_cases hid : c.entityId = id
    · -- nothing of the entity is pending before this change
      have hearlier : Change.steps id earlier.reduceOption = [] := by
        have htake : ws.calls.take call = earlier := by
          rw [hcalls, ← hlength, List.take_left]
        have hnone := hdue (by simpa [hc] using hid)
        rw [htake] at hnone
        exact steps_of_others hnone
      rw [hearlier]
      rfl
    · have hother : Change.steps id [c] = [] :=
        steps_of_others fun c' hc' => by rwa [List.mem_singleton.1 hc']
      rw [hother]
      rfl
  · exact h

theorem Even.run (h : ws.Even id) (haccounted : ws.Accounted start) {turns : List Turn}
    (horder : InOrder id ws turns) : (ws.run turns).Even id := by
  induction turns generalizing ws with
  | nil => exact h
  | cons t r ih =>
    cases t with
    | update now w => exact ih (h.update now w) (haccounted.update now w) horder.2
    | tell now call =>
      exact ih (h.tell haccounted.accepted now horder.1) (haccounted.tell now call) horder.2

/-- Any calls on states that start empty, their turns taken in any order, with a publisher that accepts
every event. The steps of the changes join, to what is stored; the events are those of the changes, each
told once, but for the changes not told yet. The steps that the events of an entity tell join too if its
changes are told in the order in which they are made, and once they are all told the last is what is
stored. -/
theorem joins_in_order (h : Hub) (hstates : h.states = .empty) (hpublished : h.publisher.published = [])
    (hopen : h.publisher.Open) (turns : List Turn) :
    let after := run { hub := h } turns
    let events := after.hub.publisher.published
    (∀ id, Joins (some .null) (Change.steps id after.made) (after.hub.states.told id)) ∧
    (after.made.map Change.content).Perm
      (events.map Event.said ++ after.pending.map Change.content) ∧
    ∀ id, InOrder id { hub := h } turns →
      (∃ last, Joins (some .null) (Event.steps id events) last) ∧
      ((∀ c ∈ after.pending, c.entityId ≠ id) →
        Joins (some .null) (Event.steps id events) (after.hub.states.told id)) := by
  have hstart : Accounted h.states { hub := h } := by
    refine ⟨hopen, fun id => .nil _, ?_⟩
    rw [hpublished]
    exact .refl _
  have hafter := hstart.run turns
  have hjoins (id : String) : Joins (some .null) (Change.steps id (run { hub := h } turns).made)
      ((run { hub := h } turns).hub.states.told id) := by
    have hid := hafter.joins id
    rwa [hstates] at hid
  refine ⟨hjoins, hafter.told, fun id horder => ?_⟩
  have heven : Even id (run { hub := h } turns) := by
    refine Even.run ?_ hstart horder
    rw [Even, hpublished]
    rfl
  obtain ⟨last, htold, hrest⟩ := joins_append.1 (heven ▸ hjoins id)
  refine ⟨⟨last, htold⟩, fun hnone => ?_⟩
  rw [steps_of_others hnone] at hrest
  cases hrest
  exact htold

/-- A lamp is switched on and dimmed before the first of these is told, and the turns of a call for
another lamp lie between theirs. -/
theorem joins_two_lamps :
    let h : Hub := { supply := ⟨0, ⟨0, 0⟩⟩, publisher := { bus := { capacity := 16 } }, network := default }
    let turns : List Turn := [
      .update ⟨60, 0⟩ (.set "light.desk" .on .empty),
      .update ⟨61, 0⟩ (.set "light.lamp" .on .empty),
      .update ⟨62, 0⟩ (.set "light.lamp" .on (.ofList [("brightness", .int 20)])),
      .tell ⟨63, 0⟩ 1, .tell ⟨64, 0⟩ 0, .tell ⟨65, 0⟩ 2]
    let after := run { hub := h } turns
    let events := after.hub.publisher.published
    InOrder "light.lamp" { hub := h } turns ∧
    events.map (·.entityId) = [some "light.lamp", some "light.desk", some "light.lamp"] ∧
    after.pending.length = 0 ∧
    Joins (some .null) (Event.steps "light.lamp" events) (after.hub.states.told "light.lamp") := by
  intro h turns
  have horder : InOrder "light.lamp" { hub := h } turns := by decide +kernel
  have hpending : (run { hub := h } turns).pending.length = 0 := by decide +kernel
  have hnone : ∀ c ∈ (run { hub := h } turns).pending, c.entityId ≠ "light.lamp" := by
    simp only [List.length_eq_zero_iff.1 hpending, List.not_mem_nil, false_implies, implies_true]
  exact ⟨horder, by decide +kernel, hpending,
    ((joins_in_order h rfl rfl (fun _ => rfl) turns).2.2 "light.lamp" horder).2 hnone⟩

/-- Steps that join begin at the start, here at no entity. -/
theorem isNone_of_joins {steps : List (Option Json × Option Json)}
    (h : ∃ last, Joins (some .null) steps last) : ∀ p ∈ steps.head?, (p.1.bind Json.obj?).isNone := by
  obtain ⟨last, hjoins⟩ := h
  cases hjoins with
  | nil => nofun
  | cons _ =>
    rintro _ ⟨⟩
    rfl

/-- A lamp is switched on and off again by two calls, and the second tells of it first: the first event
begins at a lamp that is on, and the last one leaves it on while it is off. -/
theorem not_always_joined : ¬ ∀ (h : Hub) (turns : List Turn) (id : String), h.states = .empty →
    h.publisher.published = [] → h.publisher.Open →
    let after := run { hub := h } turns
    let steps := Event.steps id after.hub.publisher.published
    (∃ last, Joins (some .null) steps last) ∧
    (after.pending = [] → Joins (some .null) steps (after.hub.states.told id)) := by
  intro hall
  let h : Hub := { supply := ⟨0, ⟨0, 0⟩⟩, publisher := { bus := { capacity := 16 } }, network := default }
  let turns : List Turn := [
    .update ⟨60, 0⟩ (.set "light.lamp" .on .empty),
    .update ⟨61, 0⟩ (.set "light.lamp" .off .empty),
    .tell ⟨62, 0⟩ 1, .tell ⟨63, 0⟩ 0]
  have hfirst : ∀ p ∈ (Event.steps "light.lamp" (run { hub := h } turns).hub.publisher.published).head?,
      (p.1.bind Json.obj?).isNone :=
    isNone_of_joins (hall h turns "light.lamp" rfl rfl fun _ => rfl).1
  exact absurd hfirst (by decide +kernel)

end Writers

end HomeHub
