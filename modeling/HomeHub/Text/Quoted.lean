import HomeHub.Text.Hex
import HomeHub.Text.Unprintable

/-!
# Quoted text in messages

`quoted` puts a text between double quotes for an error message. The quote, the backslash, line
breaks, tabs and NUL have short escapes; a character without a visible form of its own is written
as its code point.
-/

namespace HomeHub

/-- How a character appears between the quotes. -/
def quoteChar (c : Char) : List Char :=
  if c = '"' then ['\\', '"']
  else if c = '\\' then ['\\', '\\']
  else if c = '\n' then ['\\', 'n']
  else if c = '\r' then ['\\', 'r']
  else if c = '\t' then ['\\', 't']
  else if c.toNat = 0 then ['\\', '0']
  else if isUnprintable c then '\\' :: 'u' :: '\x7b' :: (Hex.minimal c.toNat ++ ['\x7d'])
  else [c]

def quoted (s : String) : String :=
  String.ofList ('"' :: (s.toList.flatMap quoteChar ++ ['"']))

end HomeHub
