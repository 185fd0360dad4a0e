import Phrasebook.Text.Printable

/-!
# Text/Quoted — texts inside of messages

A text is quoted so that its end and all its characters can be seen: quotes, backslashes and the
usual controls are escaped by a backslash, and other characters that are not printable are shown
by their code in hexadecimal.
-/

namespace Phrasebook.Text

/-- A character inside of quotes. -/
def quoteChar (c : Char) : List Char :=
  if c = '\x00' then ['\\', '0']
  else if c = '\t' then ['\\', 't']
  else if c = '\r' then ['\\', 'r']
  else if c = '\n' then ['\\', 'n']
  else if c = '"' ∨ c = '\\' then ['\\', c]
  else if isPrintable c then [c]
  else ['\\', 'u', '\x7b'] ++ Nat.toDigits 16 c.toNat ++ ['\x7d']

/-- A text in quotes. -/
def quoted (text : String) : String :=
  "\"" ++ String.ofList (text.toList.flatMap quoteChar) ++ "\""

end Phrasebook.Text
