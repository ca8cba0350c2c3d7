import ClientMetrics.Text.Hidden

/-!
# Quoted text in messages

A text between quotes, as messages show it: the quote and the backslash are escaped, the common
control characters have letters, and a character that does not show is given by its number in
hexadecimal digits between braces.
-/

namespace ClientMetrics

namespace Text

/-- A character given by its number. -/
def byNumber (c : Char) : List Char :=
  ['\\', 'u', '\x7b'] ++ Nat.toDigits 16 c.toNat ++ ['\x7d']

/-- A character inside a quoted text. -/
def spell (c : Char) : List Char :=
  if c = '"' then ['\\', '"']
  else if c = '\\' then ['\\', '\\']
  else if c = '\t' then ['\\', 't']
  else if c = '\n' then ['\\', 'n']
  else if c = '\r' then ['\\', 'r']
  else if c.toNat = 0 then ['\\', '0']
  else if isHidden c then byNumber c
  else [c]

/-- A text between quotes. -/
def quoted (s : String) : String :=
  String.ofList ('"' :: s.toList.flatMap spell ++ ['"'])

end Text

end ClientMetrics
