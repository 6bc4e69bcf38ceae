import Mathlib.Data.List.Forall2

/-!
# Lists

Lists with a member added at the end, lists whose members answer each other, and lists that are put
together from a part for each key.
-/

namespace HomeHub

variable {α β γ κ : Type} {R : α → β → Prop} {l : List α} {m : List β}

/-- A split of the list is at the new member or one of what was there. -/
theorem append_singleton_eq_append_cons_iff {before since : List α} {x y : α} :
    l ++ [x] = before ++ y :: since ↔
      (l = before ∧ x = y ∧ since = []) ∨ ∃ since', since = since' ++ [x] ∧ l = before ++ y :: since' := by
  constructor
  · intro h
    rcases List.eq_nil_or_concat since with rfl | ⟨since', z, rfl⟩
    · obtain ⟨hl, hx⟩ := List.append_inj' h rfl
      exact .inl ⟨hl, (List.cons.inj hx).1, rfl⟩
    · have hsplit : l ++ [x] = (before ++ y :: since') ++ [z] := by simpa using h
      obtain ⟨hl, hx⟩ := List.append_inj' hsplit rfl
      cases hx
      exact .inr ⟨since', List.concat_eq_append, hl⟩
  · rintro (⟨rfl, rfl, rfl⟩ | ⟨since', rfl, rfl⟩)
    · rfl
    · simp

theorem map_eq_of_forall₂ {f : α → γ} {g : β → γ} (h : List.Forall₂ R l m) (hR : ∀ a b, R a b → g b = f a) :
    m.map g = l.map f := by
  induction h with
  | nil => rfl
  | cons hab _ ih => rw [List.map_cons, List.map_cons, hR _ _ hab, ih]

/-- What answers each member in only one way is made of it. -/
theorem eq_map_of_forall₂ {f : α → β} (h : List.Forall₂ R l m) (hR : ∀ a ∈ l, ∀ b, R a b → b = f a) :
    m = l.map f := by
  induction h with
  | nil => rfl
  | cons hab _ ih =>
    rw [List.map_cons, hR _ List.mem_cons_self _ hab, ih fun a ha => hR a (List.mem_cons_of_mem _ ha)]

theorem exists_mem_of_forall₂ (h : List.Forall₂ R l m) {b : β} (hb : b ∈ m) : ∃ a ∈ l, R a b := by
  induction h with
  | nil => cases hb
  | cons hab _ ih =>
    rcases List.mem_cons.1 hb with rfl | hb
    · exact ⟨_, List.mem_cons_self, hab⟩
    · obtain ⟨a, ha, hab⟩ := ih hb
      exact ⟨a, List.mem_cons_of_mem _ ha, hab⟩

/-- What stands for different keys is apart if what stands for one key is. -/
theorem pairwise_flatMap_of_key {S : β → β → Prop} {f : κ × α → List β} (key : β → κ)
    (hkey : ∀ p, ∀ x ∈ f p, key x = p.1) (hS : ∀ x y, key x ≠ key y → S x y) {l : List (κ × α)}
    (once : (l.map Prod.fst).Nodup) (hf : ∀ p ∈ l, (f p).Pairwise S) : (l.flatMap f).Pairwise S := by
  refine List.pairwise_flatMap.2 ⟨hf, (List.pairwise_map.1 once).imp fun {p q} hne x hx y hy => hS x y ?_⟩
  rwa [hkey p x hx, hkey q y hy]

end HomeHub
