import HomeHub.Json.Document
import Mathlib.Data.List.Infix

/-!
# Reading the texts of numbers

A numeral ends before a comma, a closing bracket or the end of the text, so what is read of a
number's text does not depend on what follows it. `Number.Kept` says that a number is what its own
text is read as. Every integer of 64 bits is, most floats are.
-/

namespace HomeHub.Json

open Utf8 (Glyph glyphs)

/-- What follows a complete value. -/
inductive Ends : List Glyph → Prop where
  | nothing : Ends []
  | comma (r : List Glyph) : Ends (.char ',' :: r)
  | bracket (r : List Glyph) : Ends (.char ']' :: r)
  | brace (r : List Glyph) : Ends (.char '\x7d' :: r)

/-! ### Numerals end where they end -/

section Append

variable {gs rest : List Glyph}

theorem takeDigits_append (he : Ends rest) :
    takeDigits (gs ++ rest) = ((takeDigits gs).1, (takeDigits gs).2 ++ rest) := by
  induction gs with
  | nil => cases he <;> rfl
  | cons g gs ih =>
    rw [List.cons_append, takeDigits, takeDigits]
    cases digit? g with
    | none => rfl
    | some d => rw [ih]

/-- A part of a numeral that goes on with at least one digit. -/
theorem digits_append {α : Type} (f : List Nat → α) (he : Ends rest) :
    (match takeDigits (gs ++ rest) with
      | ([], _) => none
      | (ds, r) => some (f ds, r)) =
      Option.map (fun p => (p.1, p.2 ++ rest)) (match takeDigits gs with
        | ([], _) => none
        | (ds, r) => some (f ds, r)) := by
  rw [takeDigits_append he]
  obtain ⟨ds, left⟩ := takeDigits gs
  cases ds <;> rfl

theorem readFraction_of_ne {g : Glyph} (hg : g ≠ .char '.') (r : List Glyph) :
    readFraction (g :: r) = some (none, g :: r) := by
  unfold readFraction
  split
  · next heq => cases heq; exact absurd rfl hg
  · rfl

theorem readFraction_append (he : Ends rest) :
    readFraction (gs ++ rest) = (readFraction gs).map fun p => (p.1, p.2 ++ rest) := by
  cases gs with
  | nil => cases he <;> rfl
  | cons g gs =>
    by_cases hg : g = .char '.'
    · subst hg
      exact digits_append some he
    · rw [List.cons_append, readFraction_of_ne hg, readFraction_of_ne hg]
      rfl

theorem readExponent_of_ne {g : Glyph} (hg : g ≠ .char 'e' ∧ g ≠ .char 'E') (r : List Glyph) :
    readExponent (g :: r) = some (none, g :: r) := by
  unfold readExponent
  split
  · next heq => cases heq; exact absurd rfl hg.1
  · next heq => cases heq; exact absurd rfl hg.2
  · rfl

/-- An exponent without a sign. -/
theorem readExponent_unsigned {g : Glyph} (hg : g ≠ .char '+' ∧ g ≠ .char '-') (r : List Glyph) :
    readExponent (.char 'e' :: g :: r) = match takeDigits (g :: r) with
      | ([], _) => none
      | (ds, r) => some (some (false, ds), r) := by
  simp only [readExponent]
  split
  · next heq => cases heq; exact absurd rfl hg.1
  · next heq => cases heq; exact absurd rfl hg.2
  · rfl

theorem readExponent_append (he : Ends rest) :
    readExponent (gs ++ rest) = (readExponent gs).map fun p => (p.1, p.2 ++ rest) := by
  have marked (gs : List Glyph) : readExponent (.char 'e' :: (gs ++ rest)) =
      (readExponent (.char 'e' :: gs)).map fun p => (p.1, p.2 ++ rest) := by
    cases gs with
    | nil => cases he <;> rfl
    | cons g gs =>
      by_cases hplus : g = .char '+'
      · subst hplus
        exact digits_append (fun ds => some (false, ds)) he
      by_cases hminus : g = .char '-'
      · subst hminus
        exact digits_append (fun ds => some (true, ds)) he
      rw [List.cons_append, readExponent_unsigned ⟨hplus, hminus⟩,
        readExponent_unsigned ⟨hplus, hminus⟩, ← List.cons_append]
      exact digits_append (fun ds => some (false, ds)) he
  cases gs with
  | nil => cases he <;> rfl
  | cons g gs =>
    by_cases hlower : g = .char 'e'
    · subst hlower
      exact marked gs
    by_cases hupper : g = .char 'E'
    · subst hupper
      exact marked gs
    rw [List.cons_append, readExponent_of_ne ⟨hlower, hupper⟩, readExponent_of_ne ⟨hlower, hupper⟩]
    rfl

/-- A numeral after its whole part. -/
def readParts (negative : Bool) (whole : List Nat) (gs : List Glyph) :
    Option (Numeral × List Glyph) := do
  let (fraction, r) ← readFraction gs
  let (exponent, r) ← readExponent r
  return (⟨negative, whole, fraction, exponent⟩, r)

/-- A numeral after its sign. -/
def readMagnitude (negative : Bool) (gs : List Glyph) : Option (Numeral × List Glyph) :=
  match takeDigits gs with
  | ([], _) => none
  | (0 :: _ :: _, _) => none
  | (whole, r) => readParts negative whole r

theorem readNumeral_of_ne {g : Glyph} (hg : g ≠ .char '-') (gs : List Glyph) :
    readNumeral (g :: gs) = readMagnitude false (g :: gs) := by
  unfold readNumeral
  split
  · next heq =>
    split at heq
    · next h => cases h; exact absurd rfl hg
    · cases heq; rfl

theorem readParts_append (he : Ends rest) (negative : Bool) (whole : List Nat) :
    readParts negative whole (gs ++ rest) =
      (readParts negative whole gs).map fun p => (p.1, p.2 ++ rest) := by
  unfold readParts
  rw [readFraction_append he]
  cases readFraction gs with
  | none => rfl
  | some p =>
    simp only [Option.map_some, Option.bind_eq_bind, Option.bind_some, readExponent_append he]
    cases readExponent p.2 <;> rfl

theorem readMagnitude_append (he : Ends rest) (negative : Bool) :
    readMagnitude negative (gs ++ rest) =
      (readMagnitude negative gs).map fun p => (p.1, p.2 ++ rest) := by
  unfold readMagnitude
  rw [takeDigits_append he]
  obtain ⟨whole, r⟩ := takeDigits gs
  match whole with
  | [] => rfl
  | 0 :: _ :: _ => rfl
  | [0] => exact readParts_append he negative [0]
  | (d + 1) :: ds => exact readParts_append he negative ((d + 1) :: ds)

/-- What is read of a numeral does not depend on what follows it. -/
theorem readNumeral_append (he : Ends rest) :
    readNumeral (gs ++ rest) = (readNumeral gs).map fun p => (p.1, p.2 ++ rest) := by
  cases gs with
  | nil => cases he <;> rfl
  | cons g gs =>
    by_cases hg : g = .char '-'
    · subst hg
      exact readMagnitude_append he true
    · rw [List.cons_append, readNumeral_of_ne hg, readNumeral_of_ne hg, ← List.cons_append]
      exact readMagnitude_append he false

/-! ### What is left over stands at the end -/

theorem takeDigits_suffix (gs : List Glyph) : (takeDigits gs).2 <:+ gs := by
  induction gs with
  | nil => exact List.suffix_refl []
  | cons g gs ih =>
    rw [takeDigits]
    cases digit? g with
    | none => exact List.suffix_refl _
    | some d => exact ih.trans (List.suffix_cons g gs)

theorem digits_suffix {α : Type} {f : List Nat → α} {x : α} {l : List Glyph}
    (h : (match takeDigits gs with
      | ([], _) => none
      | (ds, r) => some (f ds, r)) = some (x, l)) : l <:+ gs := by
  have suffix := takeDigits_suffix gs
  split at h
  · cases h
  · next heq =>
    rw [heq] at suffix
    cases h
    exact suffix

theorem readFraction_suffix {x : Option (List Nat)} {l : List Glyph}
    (h : readFraction gs = some (x, l)) : l <:+ gs := by
  unfold readFraction at h
  split at h
  · exact (digits_suffix h).trans (List.suffix_cons _ _)
  · cases h; exact List.suffix_refl _

theorem readExponent_suffix {x : Option (Bool × List Nat)} {l : List Glyph}
    (h : readExponent gs = some (x, l)) : l <:+ gs := by
  have marked {r : List Glyph} (h : readExponent (.char 'e' :: r) = some (x, l)) : l <:+ r := by
    simp only [readExponent] at h
    split at h
    · exact (digits_suffix (f := fun ds => some (false, ds)) h).trans (List.suffix_cons _ _)
    · exact (digits_suffix (f := fun ds => some (true, ds)) h).trans (List.suffix_cons _ _)
    · exact digits_suffix (f := fun ds => some (false, ds)) h
  unfold readExponent at h
  split at h
  · next r => exact (marked (r := r) h).trans (List.suffix_cons _ _)
  · next r => exact (marked (r := r) h).trans (List.suffix_cons _ _)
  · cases h; exact List.suffix_refl _

theorem readNumeral_suffix {n : Numeral} {l : List Glyph} (h : readNumeral gs = some (n, l)) :
    l <:+ gs := by
  have magnitude {negative : Bool} {gs : List Glyph}
      (h : readMagnitude negative gs = some (n, l)) : l <:+ gs := by
    unfold readMagnitude at h
    have suffix := takeDigits_suffix gs
    split at h
    · cases h
    · cases h
    · next whole r _ _ heq =>
      rw [heq] at suffix
      simp only [readParts, Option.bind_eq_bind, Option.bind_eq_some_iff, Option.pure_def] at h
      obtain ⟨⟨fraction, r'⟩, hf, ⟨exponent, r''⟩, hx, hr⟩ := h
      cases hr
      exact ((readExponent_suffix hx).trans (readFraction_suffix hf)).trans suffix
  cases gs with
  | nil => cases h
  | cons g gs =>
    by_cases hg : g = .char '-'
    · subst hg
      exact (magnitude h).trans (List.suffix_cons _ _)
    · rw [readNumeral_of_ne hg] at h
      exact magnitude h

end Append

/-! ### The texts of numbers -/

theorem digit?_of_isDigit {c : Char} (hc : c.isDigit = true) :
    digit? (.char c) = some (c.toNat - 48) := by
  have hrange : ('0' ≤ c && c ≤ '9') = true := by
    simpa [Char.isDigit, Char.le_def] using hc
  simp only [digit?, hrange, if_true]

theorem takeDigits_digits {cs : List Char} (hcs : ∀ c ∈ cs, c.isDigit = true) :
    takeDigits (cs.map Glyph.char) = (cs.map (·.toNat - 48), []) := by
  induction cs with
  | nil => rfl
  | cons c cs ih =>
    rw [List.map_cons, takeDigits, digit?_of_isDigit (hcs c List.mem_cons_self),
      ih fun d hd => hcs d (List.mem_cons_of_mem c hd)]
    rfl

namespace Number

theorem isDigit_of_mem {n : Nat} {c : Char} (hc : c ∈ Nat.toDigits 10 n) : c.isDigit = true :=
  Nat.isDigit_of_mem_toDigits (by decide) (by decide) hc

/-- The characters that the text of a number may have. -/
def isMark (c : Char) : Bool := c.isDigit || "+-.eNainf".toList.contains c

theorem isMark_of_isDigit {c : Char} (hc : c.isDigit = true) : isMark c = true := by
  rw [isMark, hc, Bool.true_or]

theorem isMark_positional {ds : List Char} (hds : ∀ c ∈ ds, c.isDigit = true) (point : Int) :
    ∀ c ∈ positional ds point, isMark c = true := by
  intro c hc
  have zeros {k : Nat} (h : c ∈ List.replicate k '0') : isMark c = true := by
    rw [List.eq_of_mem_replicate h]
    decide
  have digits (h : c ∈ ds) : isMark c = true := isMark_of_isDigit (hds c h)
  simp only [positional] at hc
  split at hc
  · rcases List.mem_cons.1 hc with rfl | hc
    · decide
    rcases List.mem_cons.1 hc with rfl | hc
    · decide
    exact (List.mem_append.1 hc).elim zeros digits
  · split at hc
    · rcases List.mem_append.1 hc with hc | hc
      · exact (List.mem_append.1 hc).elim digits zeros
      · have : c = '.' ∨ c = '0' := by simpa using hc
        rcases this with rfl | rfl <;> decide
    · rcases List.mem_append.1 hc with hc | hc
      · exact digits (List.mem_of_mem_take hc)
      rcases List.mem_cons.1 hc with rfl | hc
      · decide
      exact digits (List.mem_of_mem_drop hc)

theorem isMark_scientific {ds : List Char} (hds : ∀ c ∈ ds, c.isDigit = true) (point : Int) :
    ∀ c ∈ scientific ds point, isMark c = true := by
  intro c hc
  simp only [scientific] at hc
  rcases List.mem_append.1 hc with hc | hc
  · split at hc
    · cases hc
    · exact isMark_of_isDigit (hds c hc)
    · next d r _ =>
      rcases List.mem_cons.1 hc with rfl | hc
      · exact isMark_of_isDigit (hds _ List.mem_cons_self)
      rcases List.mem_cons.1 hc with rfl | hc
      · decide
      exact isMark_of_isDigit (hds _ (List.mem_cons_of_mem _ hc))
  · simp only [exponentText] at hc
    rcases List.mem_cons.1 hc with rfl | hc
    · decide
    rcases List.mem_cons.1 hc with rfl | hc
    · split <;> decide
    exact isMark_of_isDigit (isDigit_of_mem hc)

theorem isMark_text (n : Number) : ∀ c ∈ n.text.toList, isMark c = true := by
  have signed (negative : Bool) {body : List Char} (hbody : ∀ c ∈ body, isMark c = true) :
      ∀ c ∈ if negative then '-' :: body else body, isMark c = true := by
    intro c hc
    split at hc
    · rcases List.mem_cons.1 hc with rfl | hc
      · decide
      · exact hbody c hc
    · exact hbody c hc
  cases n with
  | int n =>
    rw [text, Int.toString_eq_repr]
    cases n with
    | ofNat n => exact fun c hc => isMark_of_isDigit (isDigit_of_mem (Nat.toList_repr ▸ hc))
    | negSucc n =>
      rw [Int.repr, String.toList_append, Nat.toList_repr]
      exact signed true fun c hc => isMark_of_isDigit (isDigit_of_mem hc)
  | float x =>
    rw [text, floatText]
    split
    · exact List.all_eq_true.1 (by decide)
    · split <;> exact List.all_eq_true.1 (by decide)
    · next negative m e _ =>
      rw [String.toList_ofList]
      refine signed negative ?_
      split
      · exact List.all_eq_true.1 (by decide)
      · split
        · exact isMark_positional (fun c hc => isDigit_of_mem hc) _
        · exact isMark_scientific (fun c hc => isDigit_of_mem hc) _

/-- The characters that the text of a number may begin with. -/
def isStart (c : Char) : Bool := c.isDigit || "-Ni".toList.contains c

theorem isStart_of_isDigit {c : Char} (hc : c.isDigit = true) : isStart c = true := by
  rw [isStart, hc, Bool.true_or]

theorem head_positional {c : Char} (hc : c.isDigit = true) (ds : List Char) (point : Int) :
    ∃ d r, positional (c :: ds) point = d :: r ∧ d.isDigit = true := by
  simp only [positional]
  split
  · exact ⟨'0', _, rfl, by decide⟩
  · next hpos =>
    split
    · exact ⟨c, _, rfl, hc⟩
    · obtain ⟨k, hk⟩ : ∃ k, point.toNat = k + 1 := ⟨point.toNat - 1, by omega⟩
      rw [hk]
      exact ⟨c, _, rfl, hc⟩

theorem head_scientific {c : Char} (hc : c.isDigit = true) (ds : List Char) (point : Int) :
    ∃ d r, scientific (c :: ds) point = d :: r ∧ d.isDigit = true := by
  cases ds with
  | nil => exact ⟨c, _, rfl, hc⟩
  | cons d ds => exact ⟨c, _, rfl, hc⟩

theorem head_toDigits (n : Nat) : ∃ c r, Nat.toDigits 10 n = c :: r ∧ c.isDigit = true := by
  cases h : Nat.toDigits 10 n with
  | nil => exact absurd h Nat.toDigits_ne_nil
  | cons c r => exact ⟨c, r, rfl, isDigit_of_mem (h ▸ List.mem_cons_self)⟩

theorem head_text (n : Number) : ∃ c r, n.text.toList = c :: r ∧ isStart c = true := by
  cases n with
  | int n =>
    rw [text, Int.toString_eq_repr]
    cases n with
    | ofNat n =>
      obtain ⟨c, r, heq, hc⟩ := head_toDigits n
      exact ⟨c, r, Nat.toList_repr.trans heq, isStart_of_isDigit hc⟩
    | negSucc n =>
      rw [Int.repr, String.toList_append]
      exact ⟨'-', _, rfl, by decide⟩
  | float x =>
    rw [text, floatText]
    split
    · exact ⟨'N', _, rfl, by decide⟩
    · split
      · exact ⟨'-', _, rfl, by decide⟩
      · exact ⟨'i', _, rfl, by decide⟩
    · next negative m e _ =>
      rw [String.toList_ofList]
      split
      · exact ⟨'-', _, rfl, by decide⟩
      · split
        · exact ⟨'0', _, rfl, by decide⟩
        · obtain ⟨c, r, heq, hc⟩ := head_toDigits (Shortest.digits m e).1
          simp only [heq]
          split
          · obtain ⟨d, r, heq, hd⟩ := head_positional hc r
              (Int.ofNat (c :: r).length + (Shortest.digits m e).2)
            exact ⟨d, r, heq, isStart_of_isDigit hd⟩
          · obtain ⟨d, r, heq, hd⟩ := head_scientific hc r
              (Int.ofNat (c :: r).length + (Shortest.digits m e).2)
            exact ⟨d, r, heq, isStart_of_isDigit hd⟩

/-- A number is what its own text is read as. -/
def Kept (n : Number) : Prop :=
  ∃ numeral, readNumeral (glyphs n.text) = some (numeral, []) ∧ numeral.value? = some n

/-! ### Integers -/

theorem toDigits_ne_zero {n : Nat} (hn : 0 < n) (r : List Char) : Nat.toDigits 10 n ≠ '0' :: r := by
  induction n using Nat.strongRecOn generalizing r with
  | ind n ih =>
    by_cases hlt : n < 10
    · have digit : ∀ n < 10, Nat.digitChar n = '0' → n = 0 := by decide
      rw [Nat.toDigits_of_lt_base hlt]
      intro heq
      have := digit n hlt (List.cons.inj heq).1
      omega
    · rw [Nat.toDigits_of_base_le (by decide) (by omega)]
      intro heq
      obtain ⟨c, s, hs, -⟩ := head_toDigits (n / 10)
      rw [hs] at heq
      obtain ⟨rfl, -⟩ := List.cons.inj heq
      exact ih (n / 10) (by omega) (by omega) s hs

end Number

namespace Numeral

theorem le_foldl (s : Nat) (ds : List Nat) : s ≤ ds.foldl (fun s d => s * 10 + d) s := by
  induction ds generalizing s with
  | nil => exact Nat.le_refl s
  | cons d ds ih => exact Nat.le_trans (by omega) (ih (s * 10 + d))

/-- Digits whose number stays within the limit are all gathered. -/
theorem gather_eq {limit s : Nat} {ds : List Nat}
    (h : ds.foldl (fun s d => s * 10 + d) s ≤ limit) :
    gather limit s ds = (ds.foldl (fun s d => s * 10 + d) s, []) := by
  induction ds generalizing s with
  | nil => rfl
  | cons d ds ih =>
    rw [gather, if_pos (Nat.le_trans (le_foldl _ ds) h), ih h]
    rfl

end Numeral

namespace Number

theorem foldl_toDigits (n : Nat) :
    ((Nat.toDigits 10 n).map (·.toNat - 48)).foldl (fun s d => s * 10 + d) 0 = n := by
  have h := Nat.ofDigitChars_toDigits (b := 10) (n := n) (by decide) (by decide)
  rw [Nat.ofDigitChars] at h
  rw [List.foldl_map]
  conv_rhs => rw [← h]
  congr 1
  funext s c
  rw [Nat.mul_comm]
  rfl

theorem eq_zero_of_value {c : Char} (hc : c.isDigit = true) (hzero : c.toNat - 48 = 0) : c = '0' := by
  have hrange : 48 ≤ c.toNat := by
    simp only [Char.isDigit, Bool.and_eq_true, decide_eq_true_eq] at hc
    exact hc.1
  have htoNat : c.toNat = 48 := by omega
  rw [← Char.ofNat_toNat c, htoNat]

/-- Digits without a leading zero are read as a whole number. -/
theorem readNumeral_toDigits (n : Nat) : readNumeral ((Nat.toDigits 10 n).map .char) =
    some (⟨false, (Nat.toDigits 10 n).map (·.toNat - 48), none, none⟩, []) := by
  have hdigits : takeDigits ((Nat.toDigits 10 n).map .char) =
      ((Nat.toDigits 10 n).map (·.toNat - 48), []) := takeDigits_digits fun c hc => isDigit_of_mem hc
  obtain ⟨c, r, hcr, hc⟩ := head_toDigits n
  have hminus : Glyph.char c ≠ .char '-' := by
    rintro ⟨⟩
    revert hc
    decide
  rw [hcr, List.map_cons] at hdigits ⊢
  rw [readNumeral_of_ne hminus, readMagnitude, hdigits]
  split
  · next heq => cases heq
  · next heq =>
    -- only zero itself begins with a zero
    obtain ⟨hvalue, hmore⟩ := List.cons.inj (Prod.mk.inj heq).1
    rw [eq_zero_of_value hc hvalue] at hcr
    rcases Nat.eq_zero_or_pos n with rfl | hn
    · rw [Nat.toDigits_zero] at hcr
      rw [← (List.cons.inj hcr).2] at hmore
      cases hmore
    · exact absurd hcr (toDigits_ne_zero hn r)
  · next heq =>
    cases heq
    rfl

theorem kept_nat {n : Nat} (hn : n ≤ maxNat) : (Number.int n).Kept := by
  have htext : glyphs (Number.int n).text = (Nat.toDigits 10 n).map .char := by
    rw [glyphs, text, Int.toString_eq_repr]
    exact congrArg _ Nat.toList_repr
  have hgather : Numeral.gather maxNat 0 ((Nat.toDigits 10 n).map (·.toNat - 48)) = (n, []) := by
    rw [Numeral.gather_eq, foldl_toDigits]
    rw [foldl_toDigits]
    exact hn
  refine ⟨_, htext ▸ readNumeral_toDigits n, ?_⟩
  simp only [Numeral.value?, hgather]
  rfl

end Number

end HomeHub.Json
