/-!
# Blank characters

A character is blank when it has the Unicode property White_Space. `trim` removes blanks from both
ends of a text.
-/

namespace HomeHub

/-- The Unicode property White_Space. -/
def isBlank (c : Char) : Bool :=
  let n := c.toNat
  (9 ≤ n && n ≤ 13) || n == 32 || n == 0x85 || n == 0xA0 || n == 0x1680 ||
    (0x2000 ≤ n && n ≤ 0x200A) || n == 0x2028 || n == 0x2029 || n == 0x202F || n == 0x205F ||
    n == 0x3000

/-- Drops the leading and the trailing members of a list that satisfy `p`. -/
def stripEnds {α : Type} (p : α → Bool) (l : List α) : List α :=
  ((l.dropWhile p).reverse.dropWhile p).reverse

/-- The text without blanks at its ends. -/
def trim (s : String) : String := String.ofList (stripEnds isBlank s.toList)

/-- Whether a text holds blanks only. -/
def isAllBlank (s : String) : Bool := s.toList.all isBlank

end HomeHub
