import HomeHub.Proofs.HomeKit.Steady

/-!
# Lights restored from the registry

The registry keeps the attributes of a light as JSON, its entity holds each sorted by its kind. What a light
can do is read off either alike, since an attribute is the number and the array that its value is
(`Attribute.float?_ofJson`, `Attribute.arr?_toJson_ofJson`). So a light that is made before its entity is
known has the layout that it will have, and showing it the entity makes of it what would have been made for
the entity at once (`create_restored`).
-/

namespace HomeHub

/-! ### Attributes made of JSON -/

theorem Json.Number.toFloat_of_toInt? {n : Json.Number} {i : Int} (h : n.toInt? = some i) :
    n.toFloat = Float.ofInt i := by
  cases n with
  | int m =>
    rw [toInt?] at h
    split at h <;> cases h
    rfl
  | float x => cases h

namespace Attribute

/-- A number beyond 64 bits becomes the float that it is read as anyway. -/
theorem float?_ofJson (j : Json) : (ofJson j).float? = j.float? := by
  cases j with
  | num n =>
    rw [ofJson]
    cases hn : n.toInt? with
    | some i => exact congrArg some (Json.Number.toFloat_of_toInt? hn).symm
    | none => rfl
  | _ => rfl

theorem arr?_toJson_ofJson (j : Json) : (ofJson j).toJson.arr? = j.arr? := by
  have hfloat (x : Float) : (Json.float x).arr? = none := by
    rw [Json.float]
    split <;> rfl
  cases j with
  | num n =>
    rw [ofJson]
    cases n.toInt? with
    | some i => rfl
    | none => exact hfloat n.toFloat
  | _ => rfl

end Attribute

namespace Light.Capabilities

/-- Of the modes only the items of an array are asked for. -/
theorem ofParts_congr {modes modes' : Option Json} (h : modes'.bind Json.arr? = modes.bind Json.arr?)
    (least most : Option Float) : ofParts modes' least most = ofParts modes least most := by
  rw [ofParts, h, ofParts]

/-- Attributes and the JSON that they are made of tell the same capabilities. -/
theorem ofAttributes_map_ofJson (t : Table String Json) :
    ofAttributes (t.map Attribute.ofJson) = ofJson (.obj t.pairs) := by
  have hnumber (key : String) : ((t.map Attribute.ofJson).get? key).bind Attribute.float? =
      (t.get? key).bind Json.float? := by
    rw [Table.get?_map, Option.bind_map]
    exact congrArg _ (funext Attribute.float?_ofJson)
  rw [ofAttributes, hnumber, hnumber]
  refine ofParts_congr ?_ ..
  rw [Table.get?_map, Option.map_map, Option.bind_map]
  exact congrArg _ (funext Attribute.arr?_toJson_ofJson)

end Light.Capabilities

namespace HomeKit.LightAccessory

/-- A light that is restored from the registry has the layout of the one that is made for its entity, and
becomes that light once it is shown the entity. -/
theorem create_restored (t : Table String Json) (e : Entity) (aid : Nat) (name entityId : String)
    (registry : Option Json) :
    let e' := { e with attributes := t.map Attribute.ofJson }
    let restored := create aid name entityId none (some (.obj t.pairs))
    let live := create aid name entityId (some e') registry
    Light.Capabilities.ofJson (.obj t.pairs) = .ofEntity e' ∧ live.outline = restored.outline ∧
      restored.update (some e') = live := by
  intro e' restored live
  have hcapabilities : Light.Capabilities.ofJson (.obj t.pairs) = .ofEntity e' :=
    (Light.Capabilities.ofAttributes_map_ofJson t).symm
  have hupdate : restored.update (some e') = live :=
    congrArg (fun c => (blank aid name entityId c).update (some e')) hcapabilities
  refine ⟨hcapabilities, ?_, hupdate⟩
  rw [← hupdate]
  exact (Steady.update (sound_blank ..) (some e')).outline

end HomeKit.LightAccessory

end HomeHub
