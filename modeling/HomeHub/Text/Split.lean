/-!
# Splitting texts
-/

namespace HomeHub

/-- The pieces between the separators, one more than there are separators. -/
def pieces (separator : Char) (s : String) : List String :=
  (s.toList.splitOn separator).map String.ofList

/-- What stands before and after the first separator; nothing stands after one that is missing. -/
def cut (separator : Char) (s : String) : String × String :=
  let cs := s.toList
  (String.ofList (cs.takeWhile (· != separator)),
    String.ofList ((cs.dropWhile (· != separator)).drop 1))

end HomeHub
