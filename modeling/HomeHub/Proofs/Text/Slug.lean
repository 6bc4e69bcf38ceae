import HomeHub.Text.Slug
import Mathlib.Tactic.Common

/-!
# The words of a slug

A slug is its words with underscores between them: the longest runs of ASCII letters and digits of the
name, in small letters (`toList_slug`). A word holds no underscore, so a slug that is not empty is taken
apart into its words again, and names of equal slugs have the same words (`slugWords_eq_of_slug_eq`).
What stands on either side of anything but a letter or a digit has words of its own
(`slugWords_append`).
-/

namespace HomeHub

/-- The longest runs of letters and digits, in order. -/
def runs (cs : List Char) : List (List Char) :=
  (cs.splitOnP fun c => !isAsciiAlphanumeric c).filter fun w => !w.isEmpty

/-- The longest runs of letters and digits, in small letters. -/
def slugWords (cs : List Char) : List (List Char) :=
  ((cs.splitOnP fun c => !isAsciiAlphanumeric c).filter fun w => !w.isEmpty).map (·.map lowerAscii)

theorem slugWords_eq (cs : List Char) : slugWords cs = (runs cs).map (·.map lowerAscii) := rfl

/-- Words with an underscore before each of them. -/
def underscored (ws : List (List Char)) : List Char := ws.flatMap ('_' :: ·)

theorem intercalate_cons (w : List Char) (ws : List (List Char)) :
    ['_'].intercalate (w :: ws) = w ++ underscored ws := by
  induction ws generalizing w with
  | nil => simp [List.intercalate, underscored]
  | cons v vs ih =>
    rw [List.intercalate_cons_cons, ih]
    simp [underscored]

theorem intercalate_append {ws vs : List (List Char)} (hws : ws ≠ []) (hvs : vs ≠ []) :
    ['_'].intercalate (ws ++ vs) = ['_'].intercalate ws ++ '_' :: ['_'].intercalate vs := by
  obtain ⟨w, ws, rfl⟩ := List.exists_cons_of_ne_nil hws
  obtain ⟨v, vs, rfl⟩ := List.exists_cons_of_ne_nil hvs
  simp [intercalate_cons, underscored]

variable {c : Char} {cs ds w : List Char}

/-! ### Words of texts put together -/

theorem runs_append (hc : isAsciiAlphanumeric c = false) (cs ds : List Char) :
    runs (cs ++ c :: ds) = runs cs ++ runs ds := by
  rw [runs, List.splitOnP_append_cons cs ds (by rw [hc]; rfl), List.filter_append]
  rfl

theorem runs_word (hne : cs ≠ []) (hcs : ∀ c ∈ cs, isAsciiAlphanumeric c = true) : runs cs = [cs] := by
  have hone : cs.splitOnP (fun c => !isAsciiAlphanumeric c) = [cs] :=
    List.splitOnP_eq_singleton fun c hc => by rw [hcs c hc]; rfl
  simp [runs, hone, hne]

theorem slugWords_append (hc : isAsciiAlphanumeric c = false) (cs ds : List Char) :
    slugWords (cs ++ c :: ds) = slugWords cs ++ slugWords ds := by
  simp only [slugWords_eq, runs_append hc, List.map_append]

theorem slugWords_word (hne : cs ≠ []) (hcs : ∀ c ∈ cs, isAsciiAlphanumeric c = true) :
    slugWords cs = [cs.map lowerAscii] := by
  rw [slugWords_eq, runs_word hne hcs]
  rfl

/-! ### What a word holds -/

/-- A small letter or a digit. -/
def isSlugLetter (c : Char) : Bool := ('a' ≤ c && c ≤ 'z') || ('0' ≤ c && c ≤ '9')

theorem isSlugLetter_lowerAscii (hc : isAsciiAlphanumeric c = true) : isSlugLetter (lowerAscii c) = true := by
  unfold lowerAscii
  split
  · next hcapital =>
    have hbounds : 65 ≤ c.toNat ∧ c.toNat ≤ 90 := by
      simpa [Char.le_def, UInt32.le_iff_toNat_le] using hcapital
    have hall : ∀ n ∈ List.range' 65 26, isSlugLetter (Char.ofNat (n + 32)) = true := by decide
    exact hall c.toNat (List.mem_range'_1.2 (by omega))
  · next hcapital =>
    rw [isAsciiAlphanumeric, Bool.eq_false_iff.2 hcapital, Bool.or_false] at hc
    exact hc

theorem forall_mem_of_mem_splitOnP {p : Char → Bool} (hw : w ∈ cs.splitOnP p) : ∀ c ∈ w, p c = false := by
  induction cs generalizing w with
  | nil =>
    rw [List.splitOnP_nil, List.mem_singleton] at hw
    subst hw
    nofun
  | cons d cs ih =>
    rw [List.splitOnP_cons_eq_if_modifyHead] at hw
    split at hw
    · rcases List.mem_cons.1 hw with rfl | hw
      · nofun
      · exact ih hw
    · next hd =>
      obtain ⟨v, vs, hvs⟩ := List.exists_cons_of_ne_nil (List.splitOnP_ne_nil p cs)
      rw [hvs] at hw ih
      rcases List.mem_cons.1 hw with rfl | hw
      · exact List.forall_mem_cons.2 ⟨Bool.eq_false_iff.2 hd, ih List.mem_cons_self⟩
      · exact ih (List.mem_cons_of_mem v hw)

theorem of_mem_slugWords (hw : w ∈ slugWords cs) : w ≠ [] ∧ ∀ c ∈ w, isSlugLetter c = true := by
  obtain ⟨v, hv, rfl⟩ := List.mem_map.1 hw
  obtain ⟨hmem, hne⟩ := List.mem_filter.1 hv
  refine ⟨by simpa using hne, fun c hc => ?_⟩
  obtain ⟨d, hd, rfl⟩ := List.mem_map.1 hc
  exact isSlugLetter_lowerAscii (by simpa using forall_mem_of_mem_splitOnP hmem d hd)

/-! ### Slugs -/

/-- What is left to be added to a slug: at its beginning the words, within a word the rest of it and an
underscore before each further word, and behind a word that ended the same without that rest. -/
theorem slugFrom_eq (cs : List Char) :
    (∀ gap, slugFrom false gap cs = ['_'].intercalate (slugWords cs)) ∧
    slugFrom true true cs = underscored (slugWords cs) ∧
    ∀ w ws, cs.splitOnP (fun c => !isAsciiAlphanumeric c) = w :: ws →
      slugFrom true false cs = w.map lowerAscii ++
        underscored ((ws.filter fun w => !w.isEmpty).map (·.map lowerAscii)) := by
  induction cs with
  | nil =>
    refine ⟨fun _ => rfl, rfl, fun w ws h => ?_⟩
    cases h
    rfl
  | cons c cs ih =>
    obtain ⟨hstart, hgap, hword⟩ := ih
    obtain ⟨v, vs, hvs⟩ := List.exists_cons_of_ne_nil
      (List.splitOnP_ne_nil (fun c => !isAsciiAlphanumeric c) cs)
    have hrest := hword v vs hvs
    by_cases hc : isAsciiAlphanumeric c = true
    · have hsplit : (c :: cs).splitOnP (fun c => !isAsciiAlphanumeric c) = (c :: v) :: vs := by
        rw [List.splitOnP_cons_eq_if_modifyHead, if_neg (by simp [hc]), hvs]
        rfl
      have hwords : slugWords (c :: cs) = (lowerAscii c :: v.map lowerAscii) ::
          (vs.filter fun w => !w.isEmpty).map (·.map lowerAscii) := by
        rw [slugWords, hsplit]
        rfl
      refine ⟨fun gap => ?_, ?_, fun w ws h => ?_⟩
      · rw [hwords, intercalate_cons, slugFrom, if_pos hc, hrest]
        rfl
      · rw [hwords, slugFrom, if_pos hc, hrest]
        rfl
      · cases hsplit.symm.trans h
        rw [slugFrom, if_pos hc, hrest]
        rfl
    · have hsplit : (c :: cs).splitOnP (fun c => !isAsciiAlphanumeric c) = [] :: v :: vs := by
        rw [List.splitOnP_cons_eq_if_modifyHead, if_pos (by simp [hc]), hvs]
      have hwords : slugWords (c :: cs) = slugWords cs :=
        slugWords_append (Bool.eq_false_iff.2 hc) [] cs
      refine ⟨fun gap => ?_, ?_, fun w ws h => ?_⟩
      · rw [slugFrom, if_neg hc, hstart, hwords]
      · rw [slugFrom, if_neg hc, hgap, hwords]
      · cases hsplit.symm.trans h
        rw [slugFrom, if_neg hc, hgap, slugWords, hvs]
        rfl

theorem toList_slug (s : String) : (slug s).toList = ['_'].intercalate (slugWords s.toList) := by
  rw [slug, String.toList_ofList]
  exact (slugFrom_eq s.toList).1 false

theorem notMem_of_mem_slugWords (hw : w ∈ slugWords cs) : '_' ∉ w := fun h =>
  absurd ((of_mem_slugWords hw).2 '_' h) (by decide)

theorem intercalate_slugWords_eq_nil (h : ['_'].intercalate (slugWords cs) = []) : slugWords cs = [] := by
  cases hwords : slugWords cs with
  | nil => rfl
  | cons w ws =>
    rw [hwords, intercalate_cons] at h
    exact absurd (List.append_eq_nil_iff.1 h).1 (of_mem_slugWords (hwords ▸ List.mem_cons_self)).1

/-- A slug is made of small letters, digits and underscores. -/
theorem of_mem_slug {s : String} (hc : c ∈ (slug s).toList) : isSlugLetter c = true ∨ c = '_' := by
  rw [toList_slug] at hc
  cases hw : slugWords s.toList with
  | nil =>
    rw [hw] at hc
    cases hc
  | cons w ws =>
    have hletters : ∀ v ∈ w :: ws, ∀ c ∈ v, isSlugLetter c = true := fun v hv =>
      (of_mem_slugWords (hw ▸ hv)).2
    rw [hw, intercalate_cons] at hc
    rcases List.mem_append.1 hc with hc | hc
    · exact .inl (hletters w List.mem_cons_self c hc)
    · obtain ⟨v, hv, hc⟩ := List.mem_flatMap.1 hc
      rcases List.mem_cons.1 hc with rfl | hc
      · exact .inr rfl
      · exact .inl (hletters v (List.mem_cons_of_mem w hv) c hc)

/-- The slug of a text that has words is not empty. -/
theorem slug_ne_nil {s : String} (hwords : slugWords s.toList ≠ []) : (slug s).toList ≠ [] := by
  rw [toList_slug]
  exact mt intercalate_slugWords_eq_nil hwords

/-- Two texts that have words, with anything but a letter or a digit between them. -/
theorem toList_slug_append {s t u : String} (hs : s.toList = t.toList ++ c :: u.toList)
    (hc : isAsciiAlphanumeric c = false) (ht : slugWords t.toList ≠ []) (hu : slugWords u.toList ≠ []) :
    (slug s).toList = (slug t).toList ++ '_' :: (slug u).toList := by
  rw [toList_slug, toList_slug, toList_slug, hs, slugWords_append hc, intercalate_append ht hu]

theorem slugWords_eq_of_slug_eq {s t : String} (h : slug s = slug t) :
    slugWords s.toList = slugWords t.toList := by
  have hlist := congrArg String.toList h
  rw [toList_slug, toList_slug] at hlist
  by_cases hs : slugWords s.toList = []
  · rw [hs] at hlist ⊢
    exact (intercalate_slugWords_eq_nil hlist.symm).symm
  · by_cases ht : slugWords t.toList = []
    · rw [ht] at hlist
      exact absurd (intercalate_slugWords_eq_nil hlist) hs
    · rw [← List.splitOn_intercalate '_' (fun _ => notMem_of_mem_slugWords) hs, hlist,
        List.splitOn_intercalate '_' (fun _ => notMem_of_mem_slugWords) ht]

end HomeHub
