import HomeHub.Json.Basic
import HomeHub.Text.Hex

/-!
# Writing JSON

`Json.text` writes a value on one line without spaces. In strings the quote, the backslash and the
control characters below the space are escaped, everything else stands as it is.
-/

namespace HomeHub.Json

/-- The escaped form of one character of a string. -/
def escape (c : Char) : List Char :=
  if c = '"' then ['\\', '"']
  else if c = '\\' then ['\\', '\\']
  else if c = '\n' then ['\\', 'n']
  else if c = '\r' then ['\\', 'r']
  else if c = '\t' then ['\\', 't']
  else if c.toNat = 8 then ['\\', 'b']
  else if c.toNat = 12 then ['\\', 'f']
  else if c.toNat < 32 then '\\' :: 'u' :: Hex.fixed 4 c.toNat
  else [c]

def quoted (s : String) : String :=
  String.ofList ('"' :: (s.toList.flatMap escape ++ ['"']))

def join (items : List String) : String := String.intercalate "," items

mutual

def text : Json → String
  | .null => "null"
  | .bool b => if b then "true" else "false"
  | .num n => n.text
  | .str s => quoted s
  | .arr items => "[" ++ join (texts items) ++ "]"
  | .obj members => "\x7b" ++ join (memberTexts members) ++ "\x7d"

def texts : List Json → List String
  | [] => []
  | j :: r => j.text :: texts r

def memberTexts : List (String × Json) → List String
  | [] => []
  | m :: r => memberText m :: memberTexts r

def memberText : String × Json → String
  | (key, j) => quoted key ++ ":" ++ j.text

end

end HomeHub.Json
