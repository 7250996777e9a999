import BlockFeed.Text.Hex
import BlockFeed.Text.Hidden

/-! Texts and characters in quotation marks, as messages show them: marks, backslashes and line
controls are escaped by a letter, hidden characters by their number. -/

namespace BlockFeed.Text

/-- A character between marks `mark`. -/
def quoteChar (mark c : Char) : List Char :=
  if c = '\x00' then ['\\', '0']
  else if c = '\t' then ['\\', 't']
  else if c = '\r' then ['\\', 'r']
  else if c = '\n' then ['\\', 'n']
  else if c = '\\' ∨ c = mark then ['\\', c]
  else if isHidden c then ['\\', 'u', '{'] ++ Hex.ofNat c.toNat ++ ['}']
  else [c]

def quoted (s : String) : String :=
  String.ofList ('"' :: s.toList.flatMap (quoteChar '"') ++ ['"'])

def quotedChar (c : Char) : String :=
  String.ofList ('\'' :: quoteChar '\'' c ++ ['\''])

end BlockFeed.Text
