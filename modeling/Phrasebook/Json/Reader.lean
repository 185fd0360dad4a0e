import Phrasebook.Json.Scan
import Phrasebook.Json.Value

/-!
# Json/Reader — reading a JSON text

`Json.parse` reads exactly one value.  A field that is written twice keeps its first place and its
last value.  Lists and objects nest at most 127 deep.
-/

namespace Phrasebook.Json

namespace Scan

/-- How deep lists and objects may nest, plus one. -/
def depthLimit : Nat := 128

mutual

/-- One value, inside of `depth` remaining levels.  The fuel bounds the pieces read, and the
length of the text is enough. -/
def value (fuel depth : Nat) (text : List Char) : Scanned Json :=
  match fuel with
  | 0 => .error (faultAt .tooDeep text)
  | fuel + 1 =>
    match skipBlanks text with
    | [] => .error (faultAt .endInValue [])
    | 'n' :: rest => (word ['u', 'l', 'l'] rest).change fun _ => .null
    | 't' :: rest => (word ['r', 'u', 'e'] rest).change fun _ => .bool true
    | 'f' :: rest => (word ['a', 'l', 's', 'e'] rest).change fun _ => .bool false
    | '-' :: rest => (number true rest).change .number
    | '"' :: rest => (string rest).change fun chars => .string (String.ofList chars)
    | '[' :: rest =>
      if depth ≤ 1 then .error (faultAfter .tooDeep ('[' :: rest))
      else (items fuel (depth - 1) true rest).change .array
    | '\x7b' :: rest =>
      if depth ≤ 1 then .error (faultAfter .tooDeep ('\x7b' :: rest))
      else (fields fuel (depth - 1) true [] rest).change .object
    | c :: rest =>
      if c.isDigit then (number false (c :: rest)).change .number
      else .error (faultAfter .expectedValue (c :: rest))

/-- The values of a list up to its closing bracket; `first` says that none was read yet. -/
def items (fuel depth : Nat) (first : Bool) (text : List Char) : Scanned (List Json) :=
  match fuel with
  | 0 => .error (faultAt .tooDeep text)
  | fuel + 1 =>
    match skipBlanks text with
    | [] => .error (faultAt .endInList [])
    | ']' :: rest => .ok ([], rest)
    | c :: rest =>
      if first then item fuel depth (c :: rest)
      else if c = ',' then
        match skipBlanks rest with
        | [] => .error (faultAt .endInValue [])
        | ']' :: rest => .error (faultAfter .trailingComma (']' :: rest))
        | rest => item fuel depth rest
      else .error (faultAfter .expectedCommaOrBracket (c :: rest))

/-- One value of a list and those behind it. -/
def item (fuel depth : Nat) (text : List Char) : Scanned (List Json) :=
  match fuel with
  | 0 => .error (faultAt .tooDeep text)
  | fuel + 1 =>
    (value fuel depth text).andThen fun head rest =>
      (items fuel depth false rest).change (head :: ·)

/-- The fields of an object up to its closing brace, added to those read before. -/
def fields (fuel depth : Nat) (first : Bool) (read : List (String × Json)) (text : List Char) :
    Scanned (List (String × Json)) :=
  match fuel with
  | 0 => .error (faultAt .tooDeep text)
  | fuel + 1 =>
    match skipBlanks text with
    | [] => .error (faultAt .endInObject [])
    | '\x7d' :: rest => .ok (read, rest)
    | c :: rest =>
      if first then
        if c = '"' then field fuel depth read rest
        else .error (faultAfter .keyMustBeString (c :: rest))
      else if c = ',' then
        match skipBlanks rest with
        | [] => .error (faultAt .endInValue [])
        | '"' :: rest => field fuel depth read rest
        | '\x7d' :: rest => .error (faultAfter .trailingComma ('\x7d' :: rest))
        | rest => .error (faultAfter .keyMustBeString rest)
      else .error (faultAfter .expectedCommaOrBrace (c :: rest))

/-- One field behind its opening quote, and those behind it. -/
def field (fuel depth : Nat) (read : List (String × Json)) (text : List Char) :
    Scanned (List (String × Json)) :=
  match fuel with
  | 0 => .error (faultAt .tooDeep text)
  | fuel + 1 =>
    (string text).andThen fun name rest =>
      match skipBlanks rest with
      | [] => .error (faultAt .endInObject [])
      | ':' :: rest =>
        (value fuel depth rest).andThen fun v rest =>
          fields fuel depth false (Fields.put (String.ofList name) v read) rest
      | rest => .error (faultAfter .expectedColon rest)

end

/-- Nothing but blanks may follow the value. -/
def finish {α : Type} : Scanned α → Except Fault α
  | .error fault => .error fault
  | .ok (result, rest) =>
    match skipBlanks rest with
    | [] => .ok result
    | rest => .error (faultAfter .trailingCharacters rest)

end Scan

/-- The value that a text holds. -/
def parse (text : String) : Except ReadError Json :=
  let chars := text.toList
  match Scan.finish (Scan.value (4 * chars.length + 4) Scan.depthLimit chars) with
  | .ok result => .ok result
  | .error fault => .error (fault.locate chars)

end Phrasebook.Json
