import Phrasebook.Json.Value

/-!
# Json/Writer — writing a JSON value

`compact` writes no blanks.  `pretty` writes one item or field a line, two blanks deeper than what
holds it, and nothing inside of empty brackets.  In strings only quotes, backslashes and control
characters are escaped.
-/

namespace Phrasebook.Json

/-- A hexadecimal digit in lower case. -/
def hexDigit (n : Nat) : Char := Nat.digitChar n

/-- A character as it stands inside of a string. -/
def escapeChar (c : Char) : List Char :=
  if c = '"' then ['\\', '"']
  else if c = '\\' then ['\\', '\\']
  else if c = '\x08' then ['\\', 'b']
  else if c = '\x0c' then ['\\', 'f']
  else if c = '\n' then ['\\', 'n']
  else if c = '\r' then ['\\', 'r']
  else if c = '\t' then ['\\', 't']
  else if c.toNat < 0x20 then
    ['\\', 'u', '0', '0', hexDigit (c.toNat / 16), hexDigit (c.toNat % 16)]
  else [c]

/-- A text as a JSON string. -/
def quote (text : String) : String :=
  "\"" ++ String.ofList (text.toList.flatMap escapeChar) ++ "\""

mutual

/-- A value without blanks. -/
def compact : Json → String
  | null => "null"
  | bool true => "true"
  | bool false => "false"
  | number n => n.text
  | string text => quote text
  | array items => "[" ++ compactItems items ++ "]"
  | object fields => "\x7b" ++ compactFields fields ++ "\x7d"

/-- The items of a list without blanks. -/
def compactItems : List Json → String
  | [] => ""
  | [item] => compact item
  | item :: next :: rest => compact item ++ "," ++ compactItems (next :: rest)

/-- The fields of an object without blanks. -/
def compactFields : List (String × Json) → String
  | [] => ""
  | [(name, item)] => quote name ++ ":" ++ compact item
  | (name, item) :: next :: rest =>
    quote name ++ ":" ++ compact item ++ "," ++ compactFields (next :: rest)

end

/-- A line break and the blanks of this depth. -/
def newline (depth : Nat) : String := "\n" ++ String.ofList (List.replicate (2 * depth) ' ')

mutual

/-- A value over several lines, where it starts at the given depth. -/
def prettyAt (depth : Nat) : Json → String
  | null => "null"
  | bool true => "true"
  | bool false => "false"
  | number n => n.text
  | string text => quote text
  | array [] => "[]"
  | array (item :: rest) =>
    "[" ++ prettyItems (depth + 1) (item :: rest) ++ newline depth ++ "]"
  | object [] => "\x7b\x7d"
  | object (field :: rest) =>
    "\x7b" ++ prettyFields (depth + 1) (field :: rest) ++ newline depth ++ "\x7d"

/-- The items of a list, one a line. -/
def prettyItems (depth : Nat) : List Json → String
  | [] => ""
  | [item] => newline depth ++ prettyAt depth item
  | item :: next :: rest =>
    newline depth ++ prettyAt depth item ++ "," ++ prettyItems depth (next :: rest)

/-- The fields of an object, one a line. -/
def prettyFields (depth : Nat) : List (String × Json) → String
  | [] => ""
  | [(name, item)] => newline depth ++ quote name ++ ": " ++ prettyAt depth item
  | (name, item) :: next :: rest =>
    newline depth ++ quote name ++ ": " ++ prettyAt depth item ++ "," ++
      prettyFields depth (next :: rest)

end

/-- A value over several lines. -/
def pretty (value : Json) : String := prettyAt 0 value

end Phrasebook.Json
