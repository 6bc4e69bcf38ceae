import Mathlib.Tactic.Common

/-!
# Results of steps in sequence

A sequence of steps that may fail gives a result only if each of its steps does.
-/

namespace HomeHub

variable {ε α β : Type}

theorem exists_of_bind {x : Except ε α} {f : α → Except ε β} {y : β} (h : x >>= f = .ok y) :
    ∃ a, x = .ok a ∧ f a = .ok y := by
  cases x with
  | error err => cases h
  | ok a => exact ⟨a, rfl, h⟩

theorem exists_of_map {x : Except ε α} {f : α → β} {y : β} (h : x.map f = .ok y) :
    ∃ a, x = .ok a ∧ f a = y := by
  cases x with
  | error err => cases h
  | ok a => exact ⟨a, rfl, Except.ok.inj h⟩

theorem eq_ok_of_mapError {ε' : Type} {x : Except ε α} {f : ε → ε'} {y : α} (h : x.mapError f = .ok y) :
    x = .ok y := by
  cases x with
  | error err => cases h
  | ok a => exact congrArg Except.ok (Except.ok.inj h)

theorem toOption_eq_some_iff {x : Except ε α} {y : α} : x.toOption = some y ↔ x = .ok y := by
  cases x with
  | error err => exact iff_of_false nofun nofun
  | ok a => exact ⟨fun h => congrArg Except.ok (Option.some.inj h), fun h => congrArg some (Except.ok.inj h)⟩

end HomeHub
