/-
Text shown between double quotes, as messages show names and values: quotes, backslashes and line breaks are
escaped, and characters that do not show are written by number.
-/
import MachineGateway.Text.Hex
import MachineGateway.Text.Hidden

namespace MachineGateway.Text

/-- one character as it stands between the quotes -/
def shownChar (c : Char) : List Char :=
  if c == '\x00' then ['\\', '0']
  else if c == '\t' then ['\\', 't']
  else if c == '\r' then ['\\', 'r']
  else if c == '\n' then ['\\', 'n']
  else if c == '"' || c == '\\' then ['\\', c]
  else if isHidden c then ['\\', 'u', '\x7b'] ++ hexDigits c.toNat ++ ['\x7d']
  else [c]

/-- the text between double quotes -/
def shown (s : String) : String := String.ofList ('"' :: s.toList.flatMap shownChar ++ ['"'])

end MachineGateway.Text
