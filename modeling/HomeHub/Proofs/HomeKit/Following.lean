import HomeHub.HomeKit.Bridge
import HomeHub.Proofs.Entity.Reading
import HomeHub.Proofs.States.Writes

/-!
# Accessories that follow the states

The bridge knows entities by the events of their changes only. A light that is updated with what an
event says shows the same as one that is updated with the entity stored (`update_congr`), so after any
calls the lights show what they would show had they seen the states themselves: `follow_events`.
-/

namespace HomeHub

/-! ### What is stored can be read again -/

def States.Portable (s : States) : Prop := ∀ id e, s.get? id = some e → e.Portable

/-- What the call brings into the states can be read again. -/
def Write.Portable : Write → Prop
  | .set _ state attributes => state.Plain ∧ ∀ p ∈ attributes.pairs, p.2.Finite
  | .insert e => e.Portable
  | .remove _ => True

theorem States.Sets.portable {s : States} {id : String} {state : EntityState} {attributes : Attributes}
    {fresh : Uuid} {now : Timestamp} {e : Entity} (he : Sets s id state attributes fresh now e)
    (hs : s.Portable) (hstate : state.Plain) (hattributes : ∀ p ∈ attributes.pairs, p.2.Finite)
    (hnow : now.Legible) : e.Portable := by
  cases he with
  | update hold =>
    refine ⟨hstate, hattributes, ?_, hnow⟩
    show (if _ then _ else _ : Timestamp).Legible
    split
    · exact (hs _ _ hold).changed
    · exact hnow
  | create _ hbuild =>
    obtain ⟨-, rfl⟩ := Entity.Draft.eq_of_build hbuild
    exact ⟨hstate, hattributes, hnow, hnow⟩

theorem Write.portable_of_change {w : Write} {h : Hub} {c : Change} (hc : w.change? h = some c)
    (hw : w.Portable) (hs : h.states.Portable) (hnow : h.supply.now.Legible) :
    ∀ e ∈ c.new, e.Portable := by
  cases makes_of_change hc with
  | set he =>
    rintro _ ⟨⟩
    exact he.portable hs hw.1 hw.2 hnow
  | insert _ =>
    rintro _ ⟨⟩
    exact hw
  | remove _ => nofun

theorem Write.portable_apply {w : Write} {h : Hub} (hw : w.Portable) (hs : h.states.Portable)
    (hnow : h.supply.now.Legible) : (w.apply h).states.Portable := by
  rw [apply_states]
  cases hc : w.change? h with
  | none => exact hs
  | some c =>
    intro id e he
    rw [Change.get?_commit] at he
    split at he
    · exact portable_of_change hc hw hs hnow e he
    · exact hs id e he

/-! ### What a light shows of an entity -/

namespace Entity.Alike

variable {e e' : Entity}

theorem state_eq (h : e.Alike e') : e'.state = e.state := by rw [← h.rest]

/-- A question that the look of an attribute answers has the same answer for both. -/
theorem bind_attribute? {β : Type} (h : e.Alike e') {ask : Attribute → Option β}
    (answer : Look → Option β) (hask : ∀ a, ask a = answer a.look) (key : String) :
    (e'.attribute? key).bind ask = (e.attribute? key).bind ask := by
  have hanswer (e : Entity) : (e.attribute? key).bind ask = (e.looks.get? key).bind answer := by
    rw [Entity.looks, Table.get?_map, Option.bind_map]
    exact congrArg _ (funext hask)
  rw [hanswer, hanswer, h.looks]

end Entity.Alike

namespace HomeKit

namespace LightAccessory

theorem update_congr {e e' : Entity} (h : e.Alike e') (l : LightAccessory) :
    l.update (some e') = l.update (some e) := by
  have hbrightness : Light.brightness? e' = Light.brightness? e :=
    h.bind_attribute? Look.number (fun _ => rfl) "brightness"
  have htemp : Light.colorTemp? e' = Light.colorTemp? e :=
    h.bind_attribute? Look.number (fun _ => rfl) "color_temp"
  have hmode : Light.colorMode? e' = Light.colorMode? e :=
    congrArg (Option.map ColorMode.ofText) (h.bind_attribute? Look.text (fun _ => rfl) "color_mode")
  have hcolor : Light.hueSaturation? e' = Light.hueSaturation? e :=
    h.bind_attribute? Look.pair (fun _ => rfl) "hs_color"
  simp only [update, onValues, brightnessValues, temperatureValues, colorValues, Option.any_some,
    Option.bind_some, h.state_eq, hbrightness, htemp, hmode, hcolor]

theorem setAll_entityId (l : LightAccessory) (values : List (Feature × Int)) :
    (l.setAll values).entityId = l.entityId := by
  induction values generalizing l with
  | nil => rfl
  | cons p r ih =>
    refine (ih (l.set p.1 p.2)).trans ?_
    unfold set
    split <;> rfl

theorem update_entityId (l : LightAccessory) (e : Option Entity) :
    (l.update e).entityId = l.entityId := by
  cases e <;> simp only [update, setAll_entityId]

theorem foldl_update_entityId (l : LightAccessory) (es : List (Option Entity)) :
    (es.foldl update l).entityId = l.entityId := by
  induction es generalizing l with
  | nil => rfl
  | cons e r ih => exact (ih (l.update e)).trans (l.update_entityId e)

end LightAccessory

namespace Bridge

variable {b : Bridge} {c : Change} {e : Event}

theorem exists_newState (hdata : e.data = c.data) (hnew : ∀ x ∈ c.new, x.Portable) :
    ∃ read, newState e = .ok read ∧ ∀ l : LightAccessory, l.update read = l.update c.new := by
  have hget : c.data.get? "new_state" = some (.ofOption Entity.toJson c.new) :=
    c.get?_data (by simp [Change.members])
  rw [newState, hdata, hget]
  cases hc : c.new with
  | none => exact ⟨none, rfl, fun _ => rfl⟩
  | some x =>
    obtain ⟨x', hdecode, halike⟩ := Entity.decode_toJson (hnew x hc)
    exact ⟨some x', congrArg (Except.mapError _) hdecode, LightAccessory.update_congr halike⟩

/-- The event of a change lets the lights of its entity show what it became. -/
theorem handle_change (b : Bridge) (htype : e.eventType = .stateChanged)
    (hid : e.entityId = some c.entityId) (hdata : e.data = c.data)
    (hnew : ∀ x ∈ c.new, x.Portable) :
    b.handle e = (.ok (), { b with lights := b.lights.map fun l =>
      if l.entityId = c.entityId then l.update c.new else l }) := by
  obtain ⟨read, hread, hupdate⟩ := exists_newState hdata hnew
  have hsubject : subject? e = some c.entityId := by rw [subject?, hid]; rfl
  simp only [handle, htype, hsubject, hread, hupdate, ne_eq, not_true_eq_false, ↓reduceIte]

theorem follow_append (b : Bridge) (es es' : List Event) :
    b.follow (es ++ es') = (b.follow es).follow es' := List.foldl_append

/-- A call's event lets the lights of the entity that it changes show what is stored afterwards. -/
theorem follow_event {w : Write} {h : Hub} (b : Bridge) (hw : w.Portable) (hs : h.states.Portable)
    (hnow : h.supply.now.Legible) :
    b.follow (w.event? h).toList = { b with
      lights := b.lights.map fun l => (w.stored l.entityId h).foldl LightAccessory.update l } := by
  rw [Write.event?]
  cases hc : w.change? h with
  | none =>
    simp only [Write.stored_of_no_change hc, List.foldl_nil, Table.map_id]
    rfl
  | some c =>
    have hshown (l : LightAccessory) : (w.stored l.entityId h).foldl LightAccessory.update l =
        if l.entityId = c.entityId then l.update c.new else l := by
      rw [Write.stored_of_change hc]
      split <;> rfl
    simp only [hshown]
    exact congrArg Prod.snd (b.handle_change rfl rfl rfl (Write.portable_of_change hc hw hs hnow))

theorem follow_events (b : Bridge) (ws : Writes) (h : Hub) (hs : h.states.Portable)
    (hws : ∀ call ∈ ws, call.1.Legible ∧ call.2.Portable) :
    b.follow (ws.events h) = { b with
      lights := b.lights.map fun l => (ws.stored l.entityId h).foldl LightAccessory.update l } := by
  induction ws generalizing b h with
  | nil => exact congrArg (fun lights => { b with lights }) (Table.map_id b.lights).symm
  | cons call r ih =>
    obtain ⟨now, w⟩ := call
    obtain ⟨⟨hnow, hw⟩, hr⟩ := List.forall_mem_cons.1 hws
    have hs' : (h.atTime now).states.Portable := hs
    rw [Writes.events, follow_append, follow_event b hw hs' hnow,
      ih _ _ (Write.portable_apply hw hs' hnow) hr, Table.map_map]
    simp only [Writes.stored, List.foldl_append, Function.comp_def, LightAccessory.foldl_update_entityId]

/-- After any calls the lights show what they would show had each been updated with every entity
stored under its id: the publisher is offered the events of the changes only, and following those makes
of the lights of an entity what updating them with its stored states does, and leaves the others. -/
theorem follow_writes (b : Bridge) (ws : Writes) (h : Hub) (hs : h.states.Portable)
    (hws : ∀ call ∈ ws, call.1.Legible ∧ call.2.Portable) :
    (ws.run h).publisher = (ws.events h).foldl (fun p e => (p.publish e).2) h.publisher ∧
    ((∀ n, h.publisher.refuses n = none) →
      (ws.run h).publisher.published = h.publisher.published ++ ws.events h) ∧
    b.follow (ws.events h) = { b with
      lights := b.lights.map fun l => (ws.stored l.entityId h).foldl LightAccessory.update l } := by
  refine ⟨ws.run_publisher h, fun haccepts => ?_, follow_events b ws h hs hws⟩
  rw [ws.run_publisher, Publisher.published_foldl haccepts]

/-- A lamp is switched on, with its brightness as a JSON attribute, and removed. -/
theorem follow_lamp_removed :
    let lamp : LightAccessory := .blank 2 "Lamp" "light.lamp" { modes := [.brightness] }
    let desk : LightAccessory := .blank 3 "Desk" "light.desk" {}
    let b : Bridge := {
      lights := .ofList [(2, lamp), (3, desk)]
      publisher := { bus := { capacity := 16 } }
      supply := ⟨0, ⟨0, 0⟩⟩ }
    let h : Hub := { supply := ⟨0, ⟨0, 0⟩⟩, publisher := { bus := { capacity := 16 } }, network := default }
    let ws : Writes := [
      (⟨60, 0⟩, .set "light.lamp" .on (.ofList [("brightness", .json (.int 255))])),
      (⟨90, 0⟩, .remove "light.lamp")]
    (ws.stored "light.lamp" h).map (·.map (·.state)) = [some .on, none] ∧
    (ws.run h).publisher.published = ws.events h ∧
    b.follow (ws.events h) = { b with
      lights := b.lights.map fun l => (ws.stored l.entityId h).foldl LightAccessory.update l } := by
  intro lamp desk b h ws
  have hs : h.states.Portable := nofun
  have hws : ∀ call ∈ ws, call.1.Legible ∧ call.2.Portable := by
    intro call hcall
    simp only [ws, List.mem_cons, List.not_mem_nil, or_false] at hcall
    rcases hcall with rfl | rfl
    · refine ⟨⟨by decide +kernel⟩, trivial, fun p hp => ?_⟩
      cases List.mem_singleton.1 (Pairs.mem_of_mem_ofList hp)
      trivial
    · exact ⟨⟨by decide +kernel⟩, trivial⟩
  obtain ⟨-, hpublished, hfollow⟩ := follow_writes b ws h hs hws
  exact ⟨by decide +kernel, hpublished fun _ => rfl, hfollow⟩

end Bridge

end HomeKit

end HomeHub
