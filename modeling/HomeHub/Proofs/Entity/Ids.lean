import HomeHub.Entity.Basic
import HomeHub.Proofs.Text.Slug

/-!
# Entity ids made of slugs

Small letters, digits and underscores make a part of an entity id, and slugs are made of these. An id
is split into the two parts that it was put together from.
-/

namespace HomeHub

theorem isIdPart_of_letters {part : List Char} (hne : part ≠ [])
    (hletters : ∀ c ∈ part, isSlugLetter c = true ∨ c = '_') : isIdPart part = true := by
  rw [isIdPart, Bool.and_eq_true, Bool.not_eq_true', List.isEmpty_eq_false_iff, List.all_eq_true]
  refine ⟨hne, fun c hc => ?_⟩
  rcases hletters c hc with hc | rfl
  · rw [isSlugLetter] at hc
    rw [hc, Bool.true_or]
  · rfl

theorem splitEntityId?_append {domain object : String} (hdomain : isIdPart domain.toList = true)
    (hobject : isIdPart object.toList = true) :
    splitEntityId? (domain ++ "." ++ object) = some (domain, object) := by
  have htext : (domain ++ "." ++ object).toList = domain.toList ++ '.' :: object.toList := by simp
  have hpoint : ∀ c ∈ domain.toList, (c != '.') = true := by
    intro c hc
    rw [isIdPart, Bool.and_eq_true, List.all_eq_true] at hdomain
    rw [bne_iff_ne]
    rintro rfl
    exact absurd (hdomain.2 '.' hc) (by decide)
  rw [splitEntityId?, htext, List.takeWhile_append_of_pos hpoint, List.dropWhile_append_of_pos hpoint]
  simp [hdomain, hobject]

end HomeHub
