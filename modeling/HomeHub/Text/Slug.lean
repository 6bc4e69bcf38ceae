/-!
# Slugs

A slug keeps the ASCII letters and digits of a name, in small letters, and puts one underscore
wherever anything else stood between two of them.
-/

namespace HomeHub

def isAsciiAlphanumeric (c : Char) : Bool :=
  ('a' ≤ c && c ≤ 'z') || ('A' ≤ c && c ≤ 'Z') || ('0' ≤ c && c ≤ '9')

def lowerAscii (c : Char) : Char := if 'A' ≤ c && c ≤ 'Z' then Char.ofNat (c.toNat + 32) else c

/-- The slug of what follows. `kept` says whether a character was kept before, `gap` whether
something was left out since. -/
def slugFrom (kept gap : Bool) : List Char → List Char
  | [] => []
  | c :: r =>
    if isAsciiAlphanumeric c then
      (if kept && gap then ['_', lowerAscii c] else [lowerAscii c]) ++ slugFrom true false r
    else slugFrom kept true r

def slug (s : String) : String := String.ofList (slugFrom false false s.toList)

end HomeHub
