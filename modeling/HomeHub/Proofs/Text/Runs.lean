import HomeHub.Proofs.Text.Slug
import Mathlib.Data.List.DropRight

/-!
# What a slug is

The ids of sensor values and of nodes are made of slugs. A slug joins the longest runs of letters and
digits of a text, of which none can be made longer on either side: `Runs` tells them, and `runs` finds
them (`runs_iff`). A slug can also be built from left to right, by a look at what was built so far: an
underscore goes behind it only if it is not empty and does not end in one, and one that is left at the end
is taken off. That makes the same slug (`buildSlug_eq`). The texts that are their own slugs are words with
single underscores between them (`slug_eq_self_iff`), and all slugs are such texts.
-/

namespace HomeHub

variable {c : Char} {cs w part : List Char} {ws : List (List Char)}

/-! ### Runs -/

/-- The longest runs of letters and digits of a text, in order. All else is skipped. A run ends where no
letter or digit follows, so that something else stands between each two. -/
inductive Runs : List Char → List (List Char) → Prop where
  | nil : Runs [] []
  | skip {c : Char} {cs : List Char} {ws : List (List Char)} :
      isAsciiAlphanumeric c = false → Runs cs ws → Runs (c :: cs) ws
  | run {w cs : List Char} {ws : List (List Char)} :
      w ≠ [] → (∀ c ∈ w, isAsciiAlphanumeric c = true) →
      (∀ c ∈ cs.head?, isAsciiAlphanumeric c = false) → Runs cs ws → Runs (w ++ cs) (w :: ws)

theorem runs_skip (hc : isAsciiAlphanumeric c = false) (cs : List Char) : runs (c :: cs) = runs cs :=
  runs_append hc [] cs

theorem Runs.eq_runs (h : Runs cs ws) : ws = runs cs := by
  induction h with
  | nil => rfl
  | skip hc _ ih => rw [runs_skip hc, ih]
  | @run w cs ws hne hw hnext _ ih =>
    cases cs with
    | nil => rw [List.append_nil, runs_word hne hw, ih]; rfl
    | cons d ds =>
      have hd := hnext d rfl
      rw [runs_append hd, runs_word hne hw, ih, runs_skip hd]
      rfl

theorem exists_runs (cs : List Char) : ∃ ws, Runs cs ws := by
  induction cs with
  | nil => exact ⟨[], .nil⟩
  | cons c cs ih =>
    obtain ⟨ws, h⟩ := ih
    by_cases hc : isAsciiAlphanumeric c = true
    · have hone : ∀ d ∈ [c], isAsciiAlphanumeric d = true := by simpa using hc
      cases h with
      | nil => exact ⟨[[c]], .run (w := [c]) (by simp) hone nofun .nil⟩
      | skip hd h => exact ⟨[c] :: _, .run (by simp) hone (by simpa using hd) (.skip hd h)⟩
      | run _ hw hnext h =>
        exact ⟨(c :: _) :: _, .run (by simp) (List.forall_mem_cons.2 ⟨hc, hw⟩) hnext h⟩
    · exact ⟨ws, .skip (Bool.eq_false_iff.2 hc) h⟩

theorem runs_iff : Runs cs ws ↔ ws = runs cs := by
  refine ⟨Runs.eq_runs, ?_⟩
  rintro rfl
  obtain ⟨ws, h⟩ := exists_runs cs
  exact h.eq_runs ▸ h

/-! ### Slugs built from left to right -/

/-- Goes on with a slug: a letter or a digit in small letters, and for anything else an underscore behind
what does not end in one. -/
def extendSlug (built : List Char) (c : Char) : List Char :=
  if isAsciiAlphanumeric c then built ++ [lowerAscii c]
  else if !built.isEmpty && built.getLast? != some '_' then built ++ ['_']
  else built

def buildSlug (cs : List Char) : List Char := (cs.foldl extendSlug []).rdropWhile (· == '_')

theorem lowerAscii_ne_underscore (hc : isAsciiAlphanumeric c = true) : lowerAscii c ≠ '_' := fun h =>
  absurd (h ▸ isSlugLetter_lowerAscii hc) (by decide)

/-- A part of a slug, with an underscore behind it if something was left out since. -/
def openSlug (part : List Char) (gap : Bool) : List Char :=
  part ++ if !part.isEmpty && gap then ['_'] else []

theorem rdropWhile_openSlug (hlast : part.getLast? ≠ some '_') (gap : Bool) :
    (openSlug part gap).rdropWhile (· == '_') = part := by
  have hpart : part.rdropWhile (· == '_') = part := by
    refine List.rdropWhile_eq_self_iff.2 fun hne h => hlast ?_
    rw [List.getLast?_eq_some_getLast hne, beq_iff_eq.1 h]
  unfold openSlug
  split
  · rw [List.rdropWhile_concat_pos _ _ _ rfl, hpart]
  · rw [List.append_nil, hpart]

theorem extendSlug_letter (gap : Bool) (hc : isAsciiAlphanumeric c = true) :
    extendSlug (openSlug part gap) c = openSlug (openSlug part gap ++ [lowerAscii c]) false := by
  simp [extendSlug, hc, openSlug]

theorem extendSlug_other (hlast : part.getLast? ≠ some '_') (gap : Bool)
    (hc : isAsciiAlphanumeric c = false) : extendSlug (openSlug part gap) c = openSlug part true := by
  by_cases hpart : part = []
  · simp [extendSlug, openSlug, hc, hpart]
  · cases gap with
    | false => simp [extendSlug, openSlug, hc, hpart, hlast]
    | true => simp [extendSlug, openSlug, hc, hpart]

/-- What `slugFrom` is told by its flags is read off what was built. -/
theorem foldl_extendSlug (hlast : part.getLast? ≠ some '_') (gap : Bool) (cs : List Char) :
    (cs.foldl extendSlug (openSlug part gap)).rdropWhile (· == '_') =
      part ++ slugFrom (!part.isEmpty) gap cs := by
  induction cs generalizing part gap with
  | nil => rw [List.foldl_nil, rdropWhile_openSlug hlast, slugFrom, List.append_nil]
  | cons c cs ih =>
    by_cases hc : isAsciiAlphanumeric c = true
    · have hletter : (openSlug part gap ++ [lowerAscii c]).getLast? ≠ some '_' := by
        rw [List.getLast?_concat]
        exact fun h => lowerAscii_ne_underscore hc (Option.some.inj h)
      have hkept : (!(openSlug part gap ++ [lowerAscii c]).isEmpty) = true := by simp
      rw [List.foldl_cons, extendSlug_letter gap hc, ih hletter, hkept, slugFrom, if_pos hc, openSlug]
      split_ifs with hgap
      · rw [List.append_assoc, List.append_assoc]
        rfl
      · rw [List.append_nil, List.append_assoc]
    · rw [List.foldl_cons, extendSlug_other hlast gap (Bool.eq_false_iff.2 hc), ih hlast, slugFrom,
        if_neg hc]

theorem buildSlug_eq (s : String) : buildSlug s.toList = (slug s).toList := by
  rw [slug, String.toList_ofList]
  have hempty : ([] : List Char).getLast? ≠ some '_' := by simp
  exact foldl_extendSlug hempty false s.toList

/-! ### Texts that are their own slugs -/

/-- A word of a slug: small letters and digits. -/
def IsWord (w : List Char) : Prop := w ≠ [] ∧ ∀ c ∈ w, isSlugLetter c = true

/-- Nothing, or words with single underscores between them. -/
def IsSlug (cs : List Char) : Prop := cs = [] ∨ ∃ w ws, (∀ v ∈ w :: ws, IsWord v) ∧ cs = w ++ underscored ws

theorem isAsciiAlphanumeric_of_isSlugLetter (hc : isSlugLetter c = true) : isAsciiAlphanumeric c = true := by
  rw [isAsciiAlphanumeric, Bool.or_right_comm]
  exact Bool.or_eq_true_iff.2 (.inl hc)

theorem lowerAscii_of_isSlugLetter (hc : isSlugLetter c = true) : lowerAscii c = c := by
  refine if_neg fun hcapital => ?_
  simp only [isSlugLetter, Bool.or_eq_true, Bool.and_eq_true, decide_eq_true_eq, Char.le_def,
    UInt32.le_iff_toNat_le] at hc hcapital
  have hbounds : 'a'.val.toNat = 97 ∧ '9'.val.toNat = 57 ∧ 'A'.val.toNat = 65 ∧ 'Z'.val.toNat = 90 := by
    decide
  omega

theorem IsWord.slugWords_eq (hw : IsWord w) : slugWords w = [w] := by
  rw [slugWords_word hw.1 fun c hc => isAsciiAlphanumeric_of_isSlugLetter (hw.2 c hc)]
  have hsmall : w.map lowerAscii = w.map id :=
    List.map_congr_left fun c hc => lowerAscii_of_isSlugLetter (hw.2 c hc)
  rw [hsmall, List.map_id]

theorem slugWords_append_underscored (hws : ∀ v ∈ ws, IsWord v) (cs : List Char) :
    slugWords (cs ++ underscored ws) = slugWords cs ++ ws := by
  induction ws generalizing cs with
  | nil => rw [underscored, List.flatMap_nil, List.append_nil, List.append_nil]
  | cons v vs ih =>
    obtain ⟨hv, hvs⟩ := List.forall_mem_cons.1 hws
    have htext : cs ++ underscored (v :: vs) = cs ++ '_' :: (v ++ underscored vs) := rfl
    rw [htext, slugWords_append (by decide), ih hvs, hv.slugWords_eq]
    rfl

theorem isSlug_slug (s : String) : IsSlug (slug s).toList := by
  rw [toList_slug]
  cases hwords : slugWords s.toList with
  | nil => exact .inl rfl
  | cons w ws => exact .inr ⟨w, ws, fun v hv => of_mem_slugWords (hwords ▸ hv), intercalate_cons w ws⟩

theorem slug_eq_self {t : String} (h : IsSlug t.toList) : slug t = t := by
  rw [← String.toList_inj, toList_slug]
  obtain h | ⟨w, ws, hws, h⟩ := h
  · rw [h]
    rfl
  · obtain ⟨hw, hrest⟩ := List.forall_mem_cons.1 hws
    rw [h, slugWords_append_underscored hrest, hw.slugWords_eq, List.singleton_append, intercalate_cons]

theorem slug_eq_self_iff {t : String} : slug t = t ↔ IsSlug t.toList :=
  ⟨fun h => h ▸ isSlug_slug t, slug_eq_self⟩

/-! ### Slugs of texts put together -/

theorem slug_eq_empty_iff {s : String} : slug s = "" ↔ slugWords s.toList = [] := by
  rw [← String.toList_inj, toList_slug]
  refine ⟨intercalate_slugWords_eq_nil, fun h => ?_⟩
  rw [h]
  rfl

theorem slugWords_between {sep : List Char} (hne : sep ≠ [])
    (hsep : ∀ c ∈ sep, isAsciiAlphanumeric c = false) (cs ds : List Char) :
    slugWords (cs ++ sep ++ ds) = slugWords cs ++ slugWords ds := by
  induction sep generalizing cs with
  | nil => exact absurd rfl hne
  | cons c r ih =>
    obtain ⟨hc, hr⟩ := List.forall_mem_cons.1 hsep
    rw [List.append_assoc, List.cons_append, slugWords_append hc]
    by_cases hlast : r = []
    · rw [hlast, List.nil_append]
    · exact congrArg (slugWords cs ++ ·) (ih hlast hr [])

theorem slug_between {sep : String} (hne : sep ≠ "")
    (hsep : ∀ c ∈ sep.toList, isAsciiAlphanumeric c = false) (a b : String) :
    slug (a ++ sep ++ b) =
      if slug a = "" then slug b else if slug b = "" then slug a else slug a ++ "_" ++ slug b := by
  have hwords := slugWords_between (mt String.toList_eq_nil_iff.1 hne) hsep a.toList b.toList
  simp only [slug_eq_empty_iff]
  rw [← String.toList_inj, toList_slug, String.toList_append, String.toList_append, hwords]
  split_ifs with ha hb
  · rw [ha, List.nil_append, toList_slug]
  · rw [hb, List.append_nil, toList_slug]
  · rw [intercalate_append ha hb, String.toList_append, String.toList_append, toList_slug, toList_slug,
      List.append_assoc]
    rfl

/-- The slug of a text, which is what is built from left to right, has the longest runs of letters and
digits of the text in order, in small letters and with single underscores between them. It is empty or
words with single underscores between them, and its own slug, as all such texts are. Of two texts with
anything but letters and digits between them, the slugs are joined by an underscore, unless one is empty. -/
theorem slug_joins_runs :
    (∀ s : String, buildSlug s.toList = (slug s).toList ∧
      ∃ ws, (∀ vs, Runs s.toList vs ↔ vs = ws) ∧
        (slug s).toList = ['_'].intercalate (ws.map (·.map lowerAscii))) ∧
    (∀ s : String, IsSlug (slug s).toList ∧ slug (slug s) = slug s) ∧
    (∀ t : String, slug t = t ↔ IsSlug t.toList) ∧
    ∀ a sep b : String, sep ≠ "" → (∀ c ∈ sep.toList, isAsciiAlphanumeric c = false) →
      slug (a ++ sep ++ b) =
        if slug a = "" then slug b else if slug b = "" then slug a else slug a ++ "_" ++ slug b := by
  refine ⟨fun s => ⟨buildSlug_eq s, runs s.toList, fun vs => runs_iff, ?_⟩, fun s => ?_,
    fun t => slug_eq_self_iff, fun a sep b hne hsep => slug_between hne hsep a b⟩
  · rw [toList_slug, slugWords_eq]
  · exact ⟨isSlug_slug s, slug_eq_self (isSlug_slug s)⟩

theorem slug_joins_runs_kitchen :
    " -- " ≠ "" ∧ (∀ c ∈ " -- ".toList, isAsciiAlphanumeric c = false) ∧
      slug ("  Küche" ++ " -- " ++ "Lamp 2!") = "k_che_lamp_2" := by
  have hne : " -- " ≠ "" := by decide
  have hall : " -- ".toList.all (fun c => !isAsciiAlphanumeric c) = true := by decide +kernel
  have hsep : ∀ c ∈ " -- ".toList, isAsciiAlphanumeric c = false := by simpa using hall
  refine ⟨hne, hsep, ?_⟩
  rw [slug_joins_runs.2.2.2 "  Küche" " -- " "Lamp 2!" hne hsep]
  decide +kernel

end HomeHub
