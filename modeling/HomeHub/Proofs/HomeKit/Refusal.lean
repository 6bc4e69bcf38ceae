import HomeHub.Proofs.HomeKit.LastValues

/-!
# Requests that fail

The values of a request are stored in all lights before the first service call is made, and nothing takes
them back. So when a call or an event is refused, a light that the request has a call for holds what was
written to it, whether or not its call was accepted, and only the others hold what they held:
`Bridge.failed_put_keeps_rest`.
-/

namespace HomeHub.HomeKit

namespace LightAccessory

variable {l : LightAccessory} {writes : List (Nat × Int)}

theorem writeTo_of_fst_eq_nil {bulb : Bulb} (h : (l.writeTo bulb writes).1 = []) :
    (l.writeTo bulb writes).2 = l := by
  rw [writeTo_eq] at h ⊢
  split
  · rfl
  · next hne =>
    rw [if_neg hne] at h
    cases h

/-- Without a command nothing is stored. -/
theorem write_of_offers_eq_nil (h : l.offers writes = []) : (l.write writes).2 = l := by
  obtain ⟨hfirst, hsecond⟩ := List.append_eq_nil_iff.1 h
  have hprimary := writeTo_of_fst_eq_nil (List.map_eq_nil_iff.1 hfirst)
  have hsecondary := writeTo_of_fst_eq_nil (List.map_eq_nil_iff.1 hsecond)
  exact hsecondary.trans hprimary

end LightAccessory

namespace Bridge

variable {b : Bridge} {writes : List CharacteristicWrite}

theorem lights_setCharacteristics (b : Bridge) (writes : List CharacteristicWrite) :
    (b.setCharacteristics writes).2.lights = b.lights.map fun l => (l.write (numbersFor writes l.aid)).2 :=
  lights_dispatchAll ..

/-- A light for which there is no call stays as it is. -/
theorem get?_setCharacteristics_of_no_offer {aid : Nat} {l : LightAccessory}
    (hl : b.lights.get? aid = some l) (hnone : ∀ o ∈ b.offers writes, o.light.aid ≠ l.aid) :
    (b.setCharacteristics writes).2.lights.get? aid = some l := by
  have hoffers : l.offers (numbersFor writes l.aid) = [] := by
    refine List.eq_nil_iff_forall_not_mem.2 fun o ho => hnone o ?_ ?_
    · exact List.mem_flatMap.2 ⟨l, List.mem_map.2 ⟨_, Table.mem_pairs_iff.2 hl, rfl⟩, ho⟩
    · rw [LightAccessory.light_of_mem_offers ho]
  rw [lights_setCharacteristics, Table.get?_map, hl, Option.map_some,
    LightAccessory.write_of_offers_eq_nil hoffers]

/-- A request that fails changes nothing if it cannot be read. Otherwise the calls of its first commands
were accepted, and the lights hold what they hold after it when nothing is refused: those that it has a
call for what was written to them, and the others what they held before. -/
theorem failed_put_keeps_rest {body : List UInt8} {e : BridgeError} (h : (b.put body).1 = .error e) :
    (e = .malformed ∧ (b.put body).2 = b) ∨
    ∃ writes n, Json.decodeBytes writesShape.read body = .ok writes ∧
      (b.put body).2.caller.accepted =
        b.caller.accepted ++ ((b.offers writes).take n).map (·.command.call) ∧
      (b.put body).2.lights = b.lights.map (fun l => (l.write (numbersFor writes l.aid)).2) ∧
      ∀ aid l, b.lights.get? aid = some l → (∀ o ∈ b.offers writes, o.light.aid ≠ l.aid) →
        (b.put body).2.lights.get? aid = some l := by
  cases hbody : Json.decodeBytes writesShape.read body with
  | error fault =>
    have hput : b.put body = (.error .malformed, b) := by rw [put, hbody]
    rw [hput] at h ⊢
    cases h
    exact .inl ⟨rfl, rfl⟩
  | ok writes =>
    have hput : b.put body = b.setCharacteristics writes := by rw [put, hbody]
    obtain ⟨n, haccepted, -⟩ := b.accepted_setCharacteristics writes
    rw [hput]
    exact .inr ⟨writes, n, rfl, haccepted, b.lights_setCharacteristics writes,
      fun aid l hl hnone => get?_setCharacteristics_of_no_offer hl hnone⟩

/-- Of two lamps, a request sets the brightness of the first, whose call is refused. -/
theorem failed_put_keeps_rest_lamps :
    let lamp (aid : Nat) (entityId : String) : LightAccessory := .create aid "Lamp" entityId none
      (some (.record [("supported_color_modes", .arr [.str "brightness"])]))
    let b₀ : Bridge := {
      caller := { refuses := fun _ => some (.storage "call refused") }
      publisher := { bus := { capacity := 16 } }
      supply := ⟨0, ⟨0, 0⟩⟩ }
    let b := Call.run (Call.run b₀ (.add (lamp 2 "light.desk"))) (.add (lamp 3 "light.hall"))
    let body := "\x7b\"characteristics\":[\x7b\"aid\":2,\"iid\":9,\"value\":20\x7d]\x7d".toUTF8.toList
    (b.put body).1 = .error (.hub (.storage "call refused")) ∧
    (b.put body).2.lights.get? 3 = some (lamp 3 "light.hall") := by
  intro lamp b₀ b body
  have hfails : (b.put body).1 = .error (.hub (.storage "call refused")) := by decide +kernel
  obtain ⟨hmalformed, -⟩ | ⟨writes, n, hbody, -, -, hothers⟩ := failed_put_keeps_rest hfails
  · cases hmalformed
  have hnumbers : (Json.decodeBytes writesShape.read body).toOption.map numbers = some [((2, 9), 20)] := by
    decide +kernel
  rw [hbody] at hnumbers
  refine ⟨hfails, hothers 3 _ (by decide +kernel) fun o ho haid => ?_⟩
  obtain ⟨l, hl, ho⟩ := List.mem_flatMap.1 ho
  rw [LightAccessory.light_of_mem_offers ho] at haid
  have hwrites : numbersFor writes l.aid = [] := by
    rw [numbersFor_eq, Option.some.inj hnumbers, haid]
    rfl
  rw [hwrites] at ho
  cases ho

/-- A lamp whose call is refused keeps the brightness that was written to it. -/
theorem not_always_unchanged : ¬ ∀ (b : Bridge) (body : List UInt8) (writes : List CharacteristicWrite)
    (n : Nat) (e : BridgeError), Json.decodeBytes writesShape.read body = .ok writes →
    (b.put body).1 = .error e →
    (b.put body).2.caller.accepted = b.caller.accepted ++ ((b.offers writes).take n).map (·.command.call) →
    ∀ aid l, b.lights.get? aid = some l → (∀ o ∈ (b.offers writes).take n, o.light.aid ≠ aid) →
      (b.put body).2.lights.get? aid = some l := by
  intro h
  let lamp : LightAccessory := .create 2 "Lamp" "light.desk" none
    (some (.record [("supported_color_modes", .arr [.str "brightness"])]))
  let b : Bridge := Call.run {
    caller := { refuses := fun _ => some (.storage "call refused") }
    publisher := { bus := { capacity := 16 } }
    supply := ⟨0, ⟨0, 0⟩⟩ } (.add lamp)
  let body := "\x7b\"characteristics\":[\x7b\"aid\":2,\"iid\":9,\"value\":20\x7d]\x7d".toUTF8.toList
  have hread : (Json.decodeBytes writesShape.read body).isOk = true := by decide +kernel
  cases hbody : Json.decodeBytes writesShape.read body with
  | error _ =>
    rw [hbody] at hread
    cases hread
  | ok writes =>
    have hnone : (b.put body).2.caller.accepted.isEmpty = true := by decide +kernel
    have hkept := h b body writes 0 (.hub (.storage "call refused")) hbody (by decide +kernel)
      (List.isEmpty_iff.1 hnone) 2 lamp (by decide +kernel) nofun
    exact absurd hkept (by decide +kernel)

end Bridge

end HomeHub.HomeKit
