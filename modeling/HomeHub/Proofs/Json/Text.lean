import HomeHub.Json.Printer
import HomeHub.Json.Reader
import HomeHub.Proofs.Json.Numeral
import HomeHub.Proofs.Uuid

/-!
# Reading the texts of values

What the text of a value is taken apart into. If every number in the value is written as a numeral
the text is its `echo`, a node that mirrors the value; if not, the text never ends where a value
should: `read_text`. Both are shown of every value in front of whatever may follow one.
-/

namespace HomeHub.Json

open Utf8 (Glyph glyphs)

/-! ### Strings -/

theorem readPieces_escaped {n : Nat} {gs rest : List Glyph} (fuel : Nat)
    (h : readEscape gs = some (n, rest)) : readPieces (fuel + 1) (.char '\\' :: gs) =
      (readPieces fuel rest).map fun p => (.point n true :: p.1, p.2) := by
  rw [readPieces, if_neg (by decide), if_pos rfl, h]
  simp only [Option.bind_eq_bind, Option.bind_some]
  cases readPieces fuel rest <;> rfl

theorem readPieces_plain {c : Char} (hquote : c ≠ '"') (hback : c ≠ '\\') (hprint : ¬ c.toNat < 32)
    (fuel : Nat) (rest : List Glyph) : readPieces (fuel + 1) (.char c :: rest) =
      (readPieces fuel rest).map fun p => (.point c.toNat false :: p.1, p.2) := by
  rw [readPieces, if_neg hquote, if_neg hback, if_neg hprint]
  simp only [Option.bind_eq_bind]
  cases readPieces fuel rest <;> rfl

theorem readEscape_fixed {n : Nat} (hn : n < 32) (rest : List Glyph) :
    readEscape (.char 'u' :: ((Hex.fixed 4 n).map .char ++ rest)) = some (n, rest) := by
  have hnum : Hex.number? (Hex.fixed 4 n) = some n := Hex.number?_fixed (by decide) (by omega)
  revert hnum
  simp only [Hex.fixed, List.nil_append, List.cons_append, List.map_cons, List.map_nil, readEscape]
  intro hnum
  rw [hnum]
  rfl

/-- What a character of a string is read as. -/
def piece (c : Char) : Piece := .point c.toNat (escape c != [c])

theorem readPieces_escape (c : Char) (fuel : Nat) (rest : List Glyph) :
    readPieces (fuel + 1) ((escape c).map .char ++ rest) =
      (readPieces fuel rest).map fun p => (piece c :: p.1, p.2) := by
  unfold piece escape
  split
  · next h => subst h; exact readPieces_escaped fuel rfl
  split
  · next h => subst h; exact readPieces_escaped fuel rfl
  split
  · next h => subst h; exact readPieces_escaped fuel rfl
  split
  · next h => subst h; exact readPieces_escaped fuel rfl
  split
  · next h => subst h; exact readPieces_escaped fuel rfl
  split
  · next hquote hback _ _ _ h =>
    rw [h]
    have : (['\\', 'b'] != [c]) = true := by simp
    rw [this]
    exact readPieces_escaped fuel rfl
  split
  · next h =>
    rw [h]
    have : (['\\', 'f'] != [c]) = true := by simp
    rw [this]
    exact readPieces_escaped fuel rfl
  split
  · next h =>
    have : ('\\' :: 'u' :: Hex.fixed 4 c.toNat != [c]) = true := by simp
    rw [this]
    exact readPieces_escaped fuel (readEscape_fixed h rest)
  · next hquote hback _ _ _ _ _ hprint =>
    have : ([c] != [c]) = false := by simp
    rw [this]
    exact readPieces_plain hquote hback hprint fuel rest

theorem readPieces_quoted (cs : List Char) {fuel : Nat} (hf : cs.length < fuel)
    (rest : List Glyph) : readPieces fuel ((cs.flatMap escape).map .char ++ .char '"' :: rest) =
      some (cs.map piece, rest) := by
  induction cs generalizing fuel with
  | nil =>
    obtain ⟨fuel, rfl⟩ : ∃ k, fuel = k + 1 := ⟨fuel - 1, by simp at hf; omega⟩
    rfl
  | cons c cs ih =>
    obtain ⟨fuel, rfl⟩ : ∃ k, fuel = k + 1 := ⟨fuel - 1, by simp at hf; omega⟩
    rw [List.flatMap_cons, List.map_append, List.append_assoc, readPieces_escape,
      ih (by simpa using hf)]
    rfl

theorem assemble_pieces (cs : List Char) : assemble (cs.map piece) = some cs := by
  induction cs with
  | nil => rfl
  | cons c cs ih =>
    have valid : (c.toNat < 0xD800 || 0xDFFF < c.toNat) = true := by
      have := c.valid
      simp only [UInt32.isValidChar, Nat.isValidChar] at this
      simp only [Bool.or_eq_true, decide_eq_true_eq]
      exact this.imp_right And.left
    rw [List.map_cons, piece]
    unfold assemble
    rw [if_pos valid, ih, Option.map_some, Char.ofNat_toNat]

/-- The key that a quoted text is read as. -/
def quotedKey (s : String) : Key := ⟨some s, (s.toList.map piece).any Piece.isEscaped⟩

theorem glyphs_append (s t : String) : glyphs (s ++ t) = glyphs s ++ glyphs t := by
  rw [glyphs, String.toList_append, List.map_append]
  rfl

theorem glyphs_quoted (s : String) (rest : List Glyph) : glyphs (quoted s) ++ rest =
    .char '"' :: ((s.toList.flatMap escape).map .char ++ .char '"' :: rest) := by
  simp [glyphs, quoted]

theorem length_le_flatMap_escape (cs : List Char) : cs.length ≤ (cs.flatMap escape).length := by
  induction cs with
  | nil => exact Nat.le_refl 0
  | cons c cs ih =>
    have : 1 ≤ (escape c).length := by
      unfold escape
      repeat' split
      all_goals simp
    simp only [List.flatMap_cons, List.length_append, List.length_cons]
    omega

theorem readString_quoted (s : String) (rest : List Glyph) :
    readString ((s.toList.flatMap escape).map .char ++ .char '"' :: rest) =
      some (quotedKey s, rest) := by
  have hlen := length_le_flatMap_escape s.toList
  have hfuel : s.toList.length <
      ((s.toList.flatMap escape).map Glyph.char ++ .char '"' :: rest).length + 1 := by
    rw [List.length_append, List.length_map]
    omega
  rw [readString, readPieces_quoted s.toList hfuel]
  simp only [Option.map_some, assemble_pieces, String.ofList_toList]
  rfl

/-! ### Values by their parts -/

/-- What holds of every array and object whose parts it holds of, and of every other value, holds of
all values. -/
@[elab_as_elim]
theorem induction {P : Json → Prop} (null : P .null) (bool : ∀ b, P (.bool b))
    (num : ∀ n, P (.num n)) (str : ∀ s, P (.str s))
    (arr : ∀ items, (∀ j ∈ items, P j) → P (.arr items))
    (obj : ∀ members, (∀ m ∈ members, P m.2) → P (.obj members)) : ∀ j, P j
  | .null => null
  | .bool b => bool b
  | .num n => num n
  | .str s => str s
  | .arr items => arr items fun j _ => induction null bool num str arr obj j
  | .obj members => obj members fun m _ => induction null bool num str arr obj m.2
termination_by j => sizeOf j
decreasing_by
  · have := List.sizeOf_lt_of_mem ‹_ ∈ items›
    simp only [Json.arr.sizeOf_spec]
    omega
  · have := List.sizeOf_lt_of_mem ‹_ ∈ members›
    obtain ⟨key, j⟩ := m
    simp only [Json.obj.sizeOf_spec, Prod.mk.sizeOf_spec] at this ⊢
    omega

/-- What a number is read as, if its text is a numeral. -/
def Number.reread (n : Number) : Option Number :=
  match readNumeral (glyphs n.text) with
  | some (numeral, []) => numeral.value?
  | _ => none

/-- Every number in the value is written as a numeral. -/
inductive Legible : Json → Prop where
  | null : Legible .null
  | bool (b : Bool) : Legible (.bool b)
  | num {n : Number} {numeral : Numeral} :
      readNumeral (glyphs n.text) = some (numeral, []) → Legible (.num n)
  | str (s : String) : Legible (.str s)
  | arr {items : List Json} : (∀ j ∈ items, Legible j) → Legible (.arr items)
  | obj {members : List (String × Json)} : (∀ m ∈ members, Legible m.2) → Legible (.obj members)

mutual

/-- The node that the text of a value is read as. -/
def echo : Json → Node
  | .null => .null
  | .bool b => .bool b
  | .num n => .num n.reread
  | .str s => .str (some s)
  | .arr items => .arr (echoes items) true
  | .obj members => .obj (memberEchoes members) true

def echoes : List Json → List Node
  | [] => []
  | j :: r => j.echo :: echoes r

def memberEchoes : List (String × Json) → List (Key × Node)
  | [] => []
  | m :: r => memberEcho m :: memberEchoes r

def memberEcho : String × Json → Key × Node
  | (key, j) => (quotedKey key, j.echo)

end

/-! ### Where a value begins and ends -/

/-- The characters that the text of a value may begin with. -/
def isOpening (c : Char) : Bool := Number.isStart c || ['n', 't', 'f', '"', '[', '\x7b'].contains c

theorem head_text (j : Json) : ∃ c r, j.text.toList = c :: r ∧ isOpening c = true := by
  cases j with
  | null => exact ⟨'n', _, rfl, by decide⟩
  | bool b => cases b <;> exact ⟨_, _, rfl, by decide⟩
  | num n =>
    obtain ⟨c, r, heq, hc⟩ := n.head_text
    exact ⟨c, r, heq, by rw [isOpening, hc, Bool.true_or]⟩
  | str s => exact ⟨'"', _, String.toList_ofList, by decide⟩
  | arr items =>
    rw [text, String.toList_append, String.toList_append]
    exact ⟨'[', _, rfl, by decide⟩
  | obj members =>
    rw [text, String.toList_append, String.toList_append]
    exact ⟨'\x7b', _, rfl, by decide⟩

theorem skipGaps_of_not_gap {g : Glyph} (hg : isGap g = false) (r : List Glyph) :
    skipGaps (g :: r) = g :: r := by
  rw [skipGaps, List.dropWhile_cons_of_neg (by simp [hg])]

theorem not_gap_of_opening {c : Char} (hc : isOpening c = true) : isGap (.char c) = false := by
  have other {d : Char} (hd : isOpening d = false) : c ≠ d := by
    rintro rfl
    rw [hd] at hc
    cases hc
  simp [isGap, other (d := ' ') (by decide), other (d := '\t') (by decide),
    other (d := '\r') (by decide), other (d := '\n') (by decide)]

/-- The glyphs of a value, its first one apart. -/
theorem glyphs_text (j : Json) : ∃ c r, glyphs j.text = .char c :: r ∧ isOpening c = true := by
  obtain ⟨c, r, heq, hc⟩ := j.head_text
  exact ⟨c, r.map .char, by rw [glyphs, heq, List.map_cons], hc⟩

theorem one_le_length (j : Json) : 1 ≤ (glyphs j.text).length := by
  obtain ⟨c, r, heq, -⟩ := j.glyphs_text
  rw [heq]
  exact Nat.le_add_left 1 _

theorem glyphs_join_singleton (s : String) : glyphs (join [s]) = glyphs s := by
  simp [join, glyphs]

theorem glyphs_join_cons (s t : String) (r : List String) :
    glyphs (join (s :: t :: r)) = glyphs s ++ .char ',' :: glyphs (join (t :: r)) := by
  have : (join (s :: t :: r)).toList = s.toList ++ ',' :: (join (t :: r)).toList := by
    simp [join, String.toList_intercalate]
  simp only [glyphs, this, List.map_append, List.map_cons]

/-- The glyphs of items, the first one apart. -/
theorem glyphs_join_texts (j : Json) (items : List Json) (rest : List Glyph) :
    ∃ c r, glyphs (join (texts (j :: items))) ++ rest = .char c :: r ∧ isOpening c = true := by
  obtain ⟨c, r, heq, hc⟩ := j.glyphs_text
  cases items with
  | nil => exact ⟨c, _, by simp only [texts, glyphs_join_singleton, heq]; rfl, hc⟩
  | cons _ _ => exact ⟨c, _, by simp only [texts, glyphs_join_cons, heq]; rfl, hc⟩

/-! ### Reading what was written -/

/-- What is left of a text that was not read as a whole: neither more of it nor an end follows. -/
def Lost (read : Option (List Glyph)) : Prop := ∀ r, read = some r → ¬ Ends (skipGaps r)

theorem not_ends_of_mark {c : Char} (hc : Number.isMark c = true) (r : List Glyph) :
    ¬ Ends (skipGaps (.char c :: r)) := by
  have other {d : Char} (hd : Number.isMark d = false) : c ≠ d := by
    rintro rfl
    rw [hd] at hc
    cases hc
  have hgap : isGap (.char c) = false := by
    simp [isGap, other (d := ' ') (by decide), other (d := '\t') (by decide),
      other (d := '\r') (by decide), other (d := '\n') (by decide)]
  rw [skipGaps_of_not_gap hgap]
  intro he
  cases he with
  | comma => exact other (d := ',') (by decide) rfl
  | bracket => exact other (d := ']') (by decide) rfl
  | brace => exact other (d := '\x7d') (by decide) rfl

theorem readNode_number {c : Char} (hc : Number.isStart c = true) (fuel : Nat) (r : List Glyph) :
    readNode (fuel + 1) (.char c :: r) = match readNumeral (.char c :: r) with
      | some (n, r) => (.num n.value?, some r)
      | none => (.broken, none) := by
  have other {d : Char} (hd : Number.isStart d = false) : c ≠ d := by
    rintro rfl
    rw [hd] at hc
    cases hc
  have hgap : isGap (.char c) = false :=
    not_gap_of_opening (by rw [isOpening, hc, Bool.true_or])
  rw [readNode, skipGaps_of_not_gap hgap]
  split
  · next heq => cases heq; exact absurd rfl (other (d := 'n') (by decide))
  · next heq => cases heq; exact absurd rfl (other (d := 't') (by decide))
  · next heq => cases heq; exact absurd rfl (other (d := 'f') (by decide))
  · next heq => cases heq; exact absurd rfl (other (d := '"') (by decide))
  · next heq => cases heq; exact absurd rfl (other (d := '[') (by decide))
  · next heq => cases heq; exact absurd rfl (other (d := '\x7b') (by decide))
  · rfl

/-- Whether a value is legible decides what becomes of its text. -/
structure Reads (j : Json) (fuel : Nat) (rest : List Glyph) : Prop where
  legible : j.Legible → readNode fuel (glyphs j.text ++ rest) = (j.echo, some rest)
  lost : ¬ j.Legible → Lost (readNode fuel (glyphs j.text ++ rest)).2

theorem Reads.num (n : Number) {fuel : Nat} {rest : List Glyph} (he : Ends rest) :
    Reads (.num n) (fuel + 1) rest := by
  obtain ⟨c, r, heq, hc⟩ := n.head_text
  have htext : glyphs (Json.num n).text = .char c :: r.map .char := by
    rw [text, glyphs, heq, List.map_cons]
  have hread : readNode (fuel + 1) (glyphs (Json.num n).text ++ rest) =
      match (readNumeral (glyphs n.text)).map fun p => (p.1, p.2 ++ rest) with
        | some (n, r) => (.num n.value?, some r)
        | none => (.broken, none) := by
    rw [← readNumeral_append he, htext, List.cons_append, readNode_number hc]
    rw [text] at htext
    rw [htext, List.cons_append]
  constructor
  · intro hj
    cases hj with
    | num h =>
      rw [hread, h, echo, Number.reread, h]
      rfl
  · intro hill r hr
    rw [hread] at hr
    cases hnum : readNumeral (glyphs n.text) with
    | none => rw [hnum] at hr; cases hr
    | some p =>
      obtain ⟨numeral, left⟩ := p
      rw [hnum] at hr
      cases hr
      -- the rest of the number's own text is left over
      cases left with
      | nil => exact absurd (.num hnum) hill
      | cons g left =>
        have hmem : g ∈ glyphs n.text := (readNumeral_suffix hnum).subset List.mem_cons_self
        obtain ⟨c, hc, rfl⟩ := List.mem_map.1 hmem
        exact not_ends_of_mark (n.isMark_text c hc) _

theorem readItems_of_lost {fuel : Nat} {gs : List Glyph} (h : Lost (readNode fuel gs).2) :
    (readItems (fuel + 1) gs).2 = none := by
  rw [readItems]
  split
  · rfl
  · next node r heq =>
    rw [heq] at h
    split
    · next hr => exact absurd (hr ▸ .bracket _) (h r rfl)
    · next hr => exact absurd (hr ▸ .comma _) (h r rfl)
    · rfl

theorem readMembers_of_lost {fuel : Nat} {key : String} {gs : List Glyph}
    (h : Lost (readNode fuel gs).2) :
    (readMembers (fuel + 1) (glyphs (quoted key) ++ .char ':' :: gs)).2 = none := by
  rw [readMembers, glyphs_quoted, skipGaps_of_not_gap (by decide)]
  simp only [readString_quoted]
  rw [skipGaps_of_not_gap (by decide)]
  simp only
  split
  · rfl
  · next node r heq =>
    rw [heq] at h
    split
    · next hr => exact absurd (hr ▸ .brace _) (h r rfl)
    · next hr => exact absurd (hr ▸ .comma _) (h r rfl)
    · rfl

/-- A value whose text is read from any amount of fuel that is enough for its length. -/
def Readable (j : Json) : Prop :=
  ∀ fuel rest, Ends rest → 2 * (glyphs j.text).length ≤ fuel → Reads j fuel rest

theorem readItems_last {j : Json} {fuel : Nat} {rest : List Glyph}
    (h : Reads j fuel (.char ']' :: rest)) (hj : j.Legible) :
    readItems (fuel + 1) (glyphs j.text ++ .char ']' :: rest) = ([j.echo], some rest) := by
  rw [readItems, h.legible hj]
  simp only
  rw [skipGaps_of_not_gap (by decide)]
  rfl

theorem readItems_more {j : Json} {fuel : Nat} {gs : List Glyph}
    (h : Reads j fuel (.char ',' :: gs)) (hj : j.Legible) {c : Char} {r : List Glyph}
    (hgs : gs = .char c :: r) (hc : isOpening c = true) :
    readItems (fuel + 1) (glyphs j.text ++ .char ',' :: gs) =
      (j.echo :: (readItems fuel gs).1, (readItems fuel gs).2) := by
  have hbracket : c ≠ ']' := by
    rintro rfl
    cases hc
  rw [readItems, h.legible hj]
  simp only
  rw [skipGaps_of_not_gap (by decide)]
  simp only
  rw [hgs, skipGaps_of_not_gap (not_gap_of_opening hc)]
  split
  · next heq => cases heq; exact absurd rfl hbracket
  · rfl

/-- Items are read up to the bracket, unless one of them is lost. -/
theorem readItems_join (j : Json) (items : List Json) (h : ∀ x ∈ j :: items, Readable x) {fuel : Nat}
    (hf : 2 * (glyphs (join (texts (j :: items)))).length + 1 ≤ fuel) (rest : List Glyph) :
    ((∀ x ∈ j :: items, x.Legible) →
      readItems fuel (glyphs (join (texts (j :: items))) ++ .char ']' :: rest) =
        (echoes (j :: items), some rest)) ∧
    (¬ (∀ x ∈ j :: items, x.Legible) →
      (readItems fuel (glyphs (join (texts (j :: items))) ++ .char ']' :: rest)).2 = none) := by
  obtain ⟨fuel, rfl⟩ : ∃ k, fuel = k + 1 := ⟨fuel - 1, by omega⟩
  induction items generalizing j fuel with
  | nil =>
    simp only [texts, glyphs_join_singleton] at hf ⊢
    have hj : Reads j fuel (.char ']' :: rest) := h j List.mem_cons_self _ _ (.bracket _) (by omega)
    refine ⟨fun hall => readItems_last hj (hall j List.mem_cons_self), fun hill => ?_⟩
    exact readItems_of_lost (hj.lost fun hl => hill fun x hx => List.mem_singleton.1 hx ▸ hl)
  | cons j' items ih =>
    have htext : glyphs (join (texts (j :: j' :: items))) =
        glyphs j.text ++ .char ',' :: glyphs (join (texts (j' :: items))) := by
      simp only [texts, glyphs_join_cons]
    rw [htext, List.length_append, List.length_cons] at hf
    rw [htext, List.append_assoc, List.cons_append]
    have hj := h j List.mem_cons_self fuel
      (.char ',' :: (glyphs (join (texts (j' :: items))) ++ .char ']' :: rest)) (.comma _) (by omega)
    obtain ⟨fuel, rfl⟩ : ∃ k, fuel = k + 1 := ⟨fuel - 1, by omega⟩
    obtain ⟨hread, hlost⟩ := ih j' (fun x hx => h x (List.mem_cons_of_mem j hx)) fuel (by omega)
    by_cases hl : j.Legible
    · obtain ⟨c, r, hgs, hc⟩ := glyphs_join_texts j' items (.char ']' :: rest)
      rw [readItems_more hj hl hgs hc]
      refine ⟨fun hall => ?_, fun hill => ?_⟩
      · rw [hread fun x hx => hall x (List.mem_cons_of_mem j hx)]
        rfl
      · exact hlost fun hall => hill (List.forall_mem_cons.2 ⟨hl, hall⟩)
    · refine ⟨fun hall => absurd (hall j List.mem_cons_self) hl, fun _ => ?_⟩
      exact readItems_of_lost (hj.lost hl)

/-! ### Members -/

theorem glyphs_memberText (key : String) (j : Json) (rest : List Glyph) :
    glyphs (memberText (key, j)) ++ rest =
      glyphs (quoted key) ++ .char ':' :: (glyphs j.text ++ rest) := by
  rw [memberText, glyphs_append, glyphs_append, List.append_assoc, List.append_assoc]
  rfl

/-- The glyphs of members, the opening quote apart. -/
theorem glyphs_join_memberTexts (m : String × Json) (members : List (String × Json))
    (rest : List Glyph) :
    ∃ r, glyphs (join (memberTexts (m :: members))) ++ rest = .char '"' :: r := by
  obtain ⟨key, j⟩ := m
  cases members with
  | nil =>
    rw [memberTexts, memberTexts, glyphs_join_singleton, glyphs_memberText, glyphs_quoted]
    exact ⟨_, rfl⟩
  | cons m' members =>
    rw [memberTexts, memberTexts, glyphs_join_cons, List.append_assoc, glyphs_memberText,
      glyphs_quoted]
    exact ⟨_, rfl⟩

theorem length_memberText (key : String) (j : Json) :
    (glyphs j.text).length + 3 ≤ (glyphs (memberText (key, j))).length := by
  have h := congrArg List.length (glyphs_memberText key j [])
  rw [glyphs_quoted] at h
  simp only [List.append_nil, List.length_cons, List.length_append, List.length_map] at h
  omega

theorem readMembers_last {key : String} {j : Json} {fuel : Nat} {rest : List Glyph}
    (h : Reads j fuel (.char '\x7d' :: rest)) (hj : j.Legible) :
    readMembers (fuel + 1) (glyphs (memberText (key, j)) ++ .char '\x7d' :: rest) =
      ([memberEcho (key, j)], some rest) := by
  rw [glyphs_memberText, readMembers, glyphs_quoted, skipGaps_of_not_gap (by decide)]
  simp only [readString_quoted]
  rw [skipGaps_of_not_gap (by decide)]
  simp only [h.legible hj]
  rw [skipGaps_of_not_gap (by decide)]
  rfl

theorem readMembers_more {key : String} {j : Json} {fuel : Nat} {gs : List Glyph}
    (h : Reads j fuel (.char ',' :: gs)) (hj : j.Legible) :
    readMembers (fuel + 1) (glyphs (memberText (key, j)) ++ .char ',' :: gs) =
      (memberEcho (key, j) :: (readMembers fuel gs).1, (readMembers fuel gs).2) := by
  rw [glyphs_memberText, readMembers, glyphs_quoted, skipGaps_of_not_gap (by decide)]
  simp only [readString_quoted]
  rw [skipGaps_of_not_gap (by decide)]
  simp only [h.legible hj]
  rw [skipGaps_of_not_gap (by decide)]
  rfl

/-- Members are read up to the brace, unless the value of one of them is lost. -/
theorem readMembers_join (m : String × Json) (members : List (String × Json))
    (h : ∀ x ∈ m :: members, Readable x.2) {fuel : Nat}
    (hf : 2 * (glyphs (join (memberTexts (m :: members)))).length + 1 ≤ fuel) (rest : List Glyph) :
    ((∀ x ∈ m :: members, x.2.Legible) →
      readMembers fuel (glyphs (join (memberTexts (m :: members))) ++ .char '\x7d' :: rest) =
        (memberEchoes (m :: members), some rest)) ∧
    (¬ (∀ x ∈ m :: members, x.2.Legible) →
      (readMembers fuel (glyphs (join (memberTexts (m :: members))) ++ .char '\x7d' :: rest)).2 =
        none) := by
  obtain ⟨fuel, rfl⟩ : ∃ k, fuel = k + 1 := ⟨fuel - 1, by omega⟩
  induction members generalizing m fuel with
  | nil =>
    obtain ⟨key, j⟩ := m
    have hlen := length_memberText key j
    simp only [memberTexts, glyphs_join_singleton] at hf ⊢
    have hj : Reads j fuel (.char '\x7d' :: rest) :=
      h (key, j) List.mem_cons_self _ _ (.brace _) (by dsimp only; omega)
    refine ⟨fun hall => readMembers_last hj (hall (key, j) List.mem_cons_self), fun hill => ?_⟩
    rw [glyphs_memberText]
    exact readMembers_of_lost (hj.lost fun hl => hill fun x hx => List.mem_singleton.1 hx ▸ hl)
  | cons m' members ih =>
    obtain ⟨key, j⟩ := m
    have hlen := length_memberText key j
    have htext : glyphs (join (memberTexts ((key, j) :: m' :: members))) =
        glyphs (memberText (key, j)) ++ .char ',' :: glyphs (join (memberTexts (m' :: members))) := by
      simp only [memberTexts, glyphs_join_cons]
    rw [htext, List.length_append, List.length_cons] at hf
    rw [htext, List.append_assoc, List.cons_append]
    have hj : Reads j fuel (.char ',' ::
        (glyphs (join (memberTexts (m' :: members))) ++ .char '\x7d' :: rest)) :=
      h (key, j) List.mem_cons_self _ _ (.comma _) (by dsimp only; omega)
    obtain ⟨fuel, rfl⟩ : ∃ k, fuel = k + 1 := ⟨fuel - 1, by omega⟩
    obtain ⟨hread, hlost⟩ := ih m' (fun x hx => h x (List.mem_cons_of_mem _ hx)) fuel (by omega)
    by_cases hl : j.Legible
    · rw [readMembers_more hj hl]
      refine ⟨fun hall => ?_, fun hill => ?_⟩
      · rw [hread fun x hx => hall x (List.mem_cons_of_mem _ hx)]
        rfl
      · exact hlost fun hall => hill (List.forall_mem_cons.2 ⟨hl, hall⟩)
    · refine ⟨fun hall => absurd (hall (key, j) List.mem_cons_self) hl, fun _ => ?_⟩
      rw [glyphs_memberText]
      exact readMembers_of_lost (hj.lost hl)

/-! ### Values -/

theorem Lost.none : Lost none := fun _ h => nomatch h

theorem readNode_items {c : Char} (hc : isOpening c = true) (fuel : Nat) (r : List Glyph) :
    readNode (fuel + 1) (.char '[' :: .char c :: r) =
      (.arr (readItems fuel (.char c :: r)).1 (readItems fuel (.char c :: r)).2.isSome,
        (readItems fuel (.char c :: r)).2) := by
  have hbracket : c ≠ ']' := by
    rintro rfl
    cases hc
  rw [readNode, skipGaps_of_not_gap (by decide)]
  simp only
  rw [skipGaps_of_not_gap (not_gap_of_opening hc)]
  split
  · next heq => cases heq; exact absurd rfl hbracket
  · rfl

theorem Readable.arr {items : List Json} (h : ∀ j ∈ items, Readable j) : Readable (.arr items) := by
  intro fuel rest _ hf
  have htext : glyphs (Json.arr items).text =
      .char '[' :: (glyphs (join (texts items)) ++ [.char ']']) := by
    rw [text, glyphs_append, glyphs_append]
    rfl
  rw [htext, List.length_cons, List.length_append, List.length_singleton] at hf
  obtain ⟨fuel, rfl⟩ : ∃ k, fuel = k + 1 := ⟨fuel - 1, by omega⟩
  cases items with
  | nil => exact ⟨fun _ => rfl, fun hill => absurd (.arr nofun) hill⟩
  | cons j items =>
    have hfuel : 2 * (glyphs (join (texts (j :: items)))).length + 1 ≤ fuel := by omega
    have hitems := readItems_join j items h hfuel rest
    have hread : readNode (fuel + 1) (glyphs (Json.arr (j :: items)).text ++ rest) =
        (.arr (readItems fuel (glyphs (join (texts (j :: items))) ++ .char ']' :: rest)).1
          (readItems fuel (glyphs (join (texts (j :: items))) ++ .char ']' :: rest)).2.isSome,
          (readItems fuel (glyphs (join (texts (j :: items))) ++ .char ']' :: rest)).2) := by
      obtain ⟨c, r, heq, hc⟩ := glyphs_join_texts j items (.char ']' :: rest)
      rw [htext, List.cons_append, List.append_assoc, List.singleton_append, heq, readNode_items hc]
    constructor
    · intro hj
      cases hj with
      | arr hall => rw [hread, hitems.1 hall]; rfl
    · intro hill
      rw [hread, hitems.2 fun hall => hill (.arr hall)]
      exact .none

theorem readNode_members (fuel : Nat) (r : List Glyph) :
    readNode (fuel + 1) (.char '\x7b' :: .char '"' :: r) =
      (.obj (readMembers fuel (.char '"' :: r)).1 (readMembers fuel (.char '"' :: r)).2.isSome,
        (readMembers fuel (.char '"' :: r)).2) := by
  rw [readNode, skipGaps_of_not_gap (by decide)]
  simp only
  rw [skipGaps_of_not_gap (by decide)]
  rfl

theorem Readable.obj {members : List (String × Json)} (h : ∀ m ∈ members, Readable m.2) :
    Readable (.obj members) := by
  intro fuel rest _ hf
  have htext : glyphs (Json.obj members).text =
      .char '\x7b' :: (glyphs (join (memberTexts members)) ++ [.char '\x7d']) := by
    rw [text, glyphs_append, glyphs_append]
    rfl
  rw [htext, List.length_cons, List.length_append, List.length_singleton] at hf
  obtain ⟨fuel, rfl⟩ : ∃ k, fuel = k + 1 := ⟨fuel - 1, by omega⟩
  cases members with
  | nil => exact ⟨fun _ => rfl, fun hill => absurd (.obj nofun) hill⟩
  | cons m members =>
    have hfuel : 2 * (glyphs (join (memberTexts (m :: members)))).length + 1 ≤ fuel := by omega
    have hmembers := readMembers_join m members h hfuel rest
    have hread : readNode (fuel + 1) (glyphs (Json.obj (m :: members)).text ++ rest) =
        (.obj (readMembers fuel (glyphs (join (memberTexts (m :: members))) ++
            .char '\x7d' :: rest)).1
          (readMembers fuel (glyphs (join (memberTexts (m :: members))) ++
            .char '\x7d' :: rest)).2.isSome,
          (readMembers fuel (glyphs (join (memberTexts (m :: members))) ++
            .char '\x7d' :: rest)).2) := by
      obtain ⟨r, heq⟩ := glyphs_join_memberTexts m members (.char '\x7d' :: rest)
      rw [htext, List.cons_append, List.append_assoc, List.singleton_append, heq, readNode_members]
    constructor
    · intro hj
      cases hj with
      | obj hall => rw [hread, hmembers.1 hall]; rfl
    · intro hill
      rw [hread, hmembers.2 fun hall => hill (.obj hall)]
      exact .none

theorem readable (j : Json) : Readable j := by
  -- all values but arrays, objects and numbers are legible
  have plain {j : Json} (hj : j.Legible)
      (hread : ∀ fuel rest, readNode (fuel + 1) (glyphs j.text ++ rest) = (j.echo, some rest)) :
      Readable j := by
    intro fuel rest _ hf
    have hlen := j.one_le_length
    obtain ⟨fuel, rfl⟩ : ∃ k, fuel = k + 1 := ⟨fuel - 1, by omega⟩
    exact ⟨fun _ => hread fuel rest, fun hill => absurd hj hill⟩
  induction j using induction with
  | null => exact plain .null fun _ _ => rfl
  | bool b => exact plain (.bool b) fun _ _ => by cases b <;> rfl
  | str s =>
    refine plain (.str s) fun fuel rest => ?_
    rw [text, glyphs_quoted, readNode, skipGaps_of_not_gap (by decide)]
    simp only [readString_quoted]
    rfl
  | num n =>
    intro fuel rest he hf
    have hlen := (Json.num n).one_le_length
    obtain ⟨fuel, rfl⟩ : ∃ k, fuel = k + 1 := ⟨fuel - 1, by omega⟩
    exact .num n he
  | arr items ih => exact .arr ih
  | obj members ih => exact .obj ih

theorem read_text (j : Json) :
    (j.Legible → Document.ofText j.text = ⟨j.echo, true⟩) ∧
    (¬ j.Legible → (Document.ofText j.text).ended = false) := by
  have hj := j.readable (2 * (glyphs j.text).length + 2) [] .nothing (by omega)
  simp only [Document.ofText, Document.read]
  constructor
  · intro hl
    have hread := hj.legible hl
    rw [List.append_nil] at hread
    rw [hread]
    rfl
  · intro hill
    have hlost := hj.lost hill
    rw [List.append_nil] at hlost
    split
    · next root r heq =>
      rw [heq] at hlost
      have hends := hlost r rfl
      cases hr : skipGaps r with
      | nil => exact absurd (hr ▸ .nothing) hends
      | cons g gs => rfl
    · rfl

end HomeHub.Json
