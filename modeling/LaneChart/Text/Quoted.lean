import LaneChart.Text.Invisible

/-!
# Text in quotes

How a text is shown in a message so that every character of it can be told: between double quotes,
the quote and the backslash behind a backslash, the common controls by letter, and characters that
do not show by themselves by their code point in hexadecimal.
-/

namespace LaneChart.Text

/-- How one character is shown between quotes. -/
def quotedChar (c : Char) : List Char :=
  if c = '\x00' then ['\\', '0']
  else if c = '\t' then ['\\', 't']
  else if c = '\r' then ['\\', 'r']
  else if c = '\n' then ['\\', 'n']
  else if c = '\\' then ['\\', '\\']
  else if c = '"' then ['\\', '"']
  else if isInvisible c then
    ['\\', 'u', '\x7b'] ++ Nat.toDigits 16 c.toNat ++ ['\x7d']
  else [c]

/-- A text between quotes. -/
def quoted (s : String) : String :=
  String.ofList ('"' :: (s.toList.flatMap quotedChar ++ ['"']))

example : quoted "é\"\\\x07" = "\"é\\\"\\\\\\u\x7b7\x7d\"" := by decide +kernel

end LaneChart.Text
