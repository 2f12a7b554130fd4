import TableSnapshots.Text.Hidden

/-!
# Quoted text

How a message shows a text whose exact characters matter, such as a path: in double quotes, with a
backslash before a quote or a backslash, short forms for the usual control characters, and the code
point of every other character that would not show.
-/

namespace TableSnapshots.Text

/-- The escaped form of one character of a quoted text. -/
def escapeChar (c : Char) : List Char :=
  if c = '"' then ['\\', '"']
  else if c = '\\' then ['\\', '\\']
  else if c = '\n' then ['\\', 'n']
  else if c = '\r' then ['\\', 'r']
  else if c = '\t' then ['\\', 't']
  else if c = '\x00' then ['\\', '0']
  else if isHidden c then ['\\', 'u', '\x7b'] ++ Nat.toDigits 16 c.toNat ++ ['\x7d']
  else [c]

/-- The text in double quotes, as messages show it. -/
def quoted (s : String) : String :=
  "\"" ++ String.ofList (s.toList.flatMap escapeChar) ++ "\""

end TableSnapshots.Text
