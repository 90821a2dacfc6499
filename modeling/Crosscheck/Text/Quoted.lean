import Crosscheck.Text.Basic
import Crosscheck.Text.Printable
/-!
# Quoted text

How a text is shown inside a report: between double quotes, with the quote and the backslash
escaped, short escapes for the usual controls, and every joining or unprintable character by its
code point.
-/

namespace Crosscheck.Text

/-- One character as it stands between the quotes. -/
def quotedChar (c : Char) : Text :=
  if c = '"' then ['\\', '"']
  else if c = '\\' then ['\\', '\\']
  else if c = '\n' then ['\\', 'n']
  else if c = '\r' then ['\\', 'r']
  else if c = '\t' then ['\\', 't']
  else if c = '\x00' then ['\\', '0']
  else if isJoining c || !isPrintable c then ['\\', 'u', '\x7b'] ++ hex c.toNat ++ ['\x7d']
  else [c]

/-- The text between double quotes. -/
def quoted (s : Text) : Text := '"' :: s.flatMap quotedChar ++ ['"']

end Crosscheck.Text
