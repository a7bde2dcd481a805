import PegKit.Text.Combining
import PegKit.Text.Invisible

/-! Text between double quotes. A quote, a backslash and the usual controls are written with a
backslash, and a character that a reader could not see or could take for part of its neighbour is
written by its number in hexadecimal. -/

namespace PegKit.Text

/-- A character by its number: a backslash, the letter u and hexadecimal digits in braces. -/
def numbered (c : Char) : List Char :=
  ['\\', 'u', '\x7b'] ++ Nat.toDigits 16 c.toNat ++ ['\x7d']

def escaped (c : Char) : List Char :=
  if c = '\x00' then ['\\', '0']
  else if c = '\t' then ['\\', 't']
  else if c = '\r' then ['\\', 'r']
  else if c = '\n' then ['\\', 'n']
  else if c = '"' then ['\\', '"']
  else if c = '\\' then ['\\', '\\']
  else if isCombining c || isInvisible c then numbered c
  else [c]

def quoted (s : String) : String :=
  "\"" ++ String.ofList (s.toList.flatMap escaped) ++ "\""

end PegKit.Text
