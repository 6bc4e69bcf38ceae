import HomeHub.Proofs.Entity.Reading
import HomeHub.Proofs.Lists
import HomeHub.Proofs.Table

/-!
# Entities of scalar attributes, written and read

Written and read again, an entity whose attributes are scalars is what `Entity.reread` says: a reading
that is a reserved name has become the state of that name, and a float that is no number that JSON can
write has become null. Everything else is as it was, so the entity is the same exactly if its state is
plain and its floats are finite.
-/

namespace HomeHub

open Json (Reader Shape)

namespace Attribute

/-- A flag, a text, a float or an integer of 64 signed bits. -/
def Scalar : Attribute → Prop
  | .int n => Json.minInt ≤ n ∧ n ≤ Json.maxInt
  | .json _ => False
  | _ => True

/-- What comes of a scalar that is written and read. -/
def reread : Attribute → Attribute
  | .float x => if Binary64.isFinite x = true then .float x else .json .null
  | a => a

theorem reader_toNode_of_scalar {a : Attribute} (ha : a.Scalar) {d : Nat} :
    reader d a.toJson.toNode = .ok a.reread := by
  cases a with
  | bool b => rfl
  | text s => rfl
  | json j => cases ha
  | int n =>
    have hn : (Json.Number.int n).toInt? = some n := if_pos ha
    have hread : firstReading (.num (.int n)) = some (.int n) := by
      simp [firstReading, attempts, Json.bool?, Json.int?, hn]
    exact Reader.andThen_ok rfl hread
  | float x =>
    rw [toJson, Json.float, reread]
    split
    · exact Reader.andThen_ok (x := Json.num (.float x)) rfl rfl
    · rfl

theorem reread_eq_self_iff {a : Attribute} : a.reread = a ↔ a.Finite := by
  cases a with
  | float x =>
    rw [reread, Finite]
    by_cases hx : Binary64.isFinite x = true
    · simp [hx]
    · simp [hx]
  | _ => exact iff_of_true rfl trivial

/-- A table of scalars is read back value by value. -/
theorem table_toNode_of_scalar {attributes : Attributes}
    (hscalar : ∀ p ∈ attributes.pairs, p.2.Scalar) {d : Nat} :
    Reader.table reader (d + 1) (Json.obj (attributes.map toJson).pairs).toNode =
      .ok (attributes.map reread) := by
  have hread : ∀ m ∈ (attributes.map toJson).pairs,
      ∃ a, reader d m.2.toNode = .ok a ∧ reader d m.2.toNode = .ok a := by
    intro m hm
    obtain ⟨p, hp, rfl⟩ := List.mem_map.1 hm
    exact ⟨_, reader_toNode_of_scalar (hscalar p hp), reader_toNode_of_scalar (hscalar p hp)⟩
  obtain ⟨found, hfound, hall⟩ :=
    Reader.table_toNode reader (fun j a => reader d j.toNode = .ok a) hread
  rw [hfound]
  refine congrArg Except.ok (Table.eq_of_pairs ?_)
  refine eq_map_of_forall₂ (List.forall₂_map_left_iff.1 hall) fun p hp q hq => ?_
  obtain ⟨hkey, hread⟩ := hq
  rw [reader_toNode_of_scalar (hscalar p hp)] at hread
  exact Prod.ext hkey.symm (Except.ok.inj hread).symm

end Attribute

theorem EntityState.ofText_text_iff {s : EntityState} : ofText s.text = s ↔ s.Plain :=
  ⟨fun h => h ▸ plain_ofText s.text, ofText_text⟩

namespace Entity

/-- What comes of an entity of scalar attributes that is written and read. -/
def reread (e : Entity) : Entity :=
  { e with state := .ofText e.state.text, attributes := e.attributes.map Attribute.reread }

theorem reread_eq_self_iff {e : Entity} :
    e.reread = e ↔ e.state.Plain ∧ ∀ p ∈ e.attributes.pairs, p.2.Finite := by
  have hattributes : e.attributes.map Attribute.reread = e.attributes ↔
      ∀ p ∈ e.attributes.pairs, p.2.Finite :=
    Table.map_eq_self_iff.trans (forall₂_congr fun _ _ => Attribute.reread_eq_self_iff)
  rw [← EntityState.ofText_text_iff, ← hattributes]
  constructor
  · exact fun h => ⟨congrArg state h, congrArg attributes h⟩
  · rintro ⟨hstate, hattributes⟩
    rw [reread, hstate, hattributes]

/-- An entity of scalar attributes is always read back, as what comes of it. -/
theorem decode_toJson_of_scalar {e : Entity} (hscalar : ∀ p ∈ e.attributes.pairs, p.2.Scalar)
    (changed : e.lastChanged.Legible) (updated : e.lastUpdated.Legible) :
    Json.decode shape.read e.toJson = .ok e.reread := by
  obtain ⟨d, hd⟩ : ∃ d, e.toJson.depth = d + 1 := ⟨_, rfl⟩
  rw [Json.decode, hd]
  exact Shape.read_record e.members_once
    (accepts_members changed updated (Attribute.table_toNode_of_scalar hscalar))

end Entity

end HomeHub
