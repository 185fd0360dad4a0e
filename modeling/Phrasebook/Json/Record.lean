import Phrasebook.Json.Skip
import Phrasebook.Text.Quoted

/-!
# Json/Record — reading a text straight into a record

A record is read from an object, whose unknown fields are read over, or from a list with its
fields by position.  A field that is left out keeps its default.  The first value of a wrong type
stops the reading, and so does a field that is given twice.
-/

namespace Phrasebook.Json.Scan

/-- The fault of a value of a wrong type, which is read as far as its kind shows. -/
def wrongType (expected : String) (text : List Char) : Fault :=
  let after {α : Type} (scanned : Scanned α) (found : α → String) : Fault :=
    match scanned with
    | .ok (result, rest) => faultAt (.wrongType (found result) expected) rest
    | .error fault => fault
  let ofNumber (n : Number) : String :=
    match n with
    | .whole _ => "integer `" ++ n.text ++ "`"
    | .double _ => "floating point `" ++ n.text ++ "`"
  match text with
  | 'n' :: rest => after (word ['u', 'l', 'l'] rest) fun _ => "null"
  | 't' :: rest => after (word ['r', 'u', 'e'] rest) fun _ => "boolean `true`"
  | 'f' :: rest => after (word ['a', 'l', 's', 'e'] rest) fun _ => "boolean `false`"
  | '-' :: rest => after (number true rest) ofNumber
  | '"' :: rest => after (string rest) fun chars => "string " ++ Text.quoted (String.ofList chars)
  | '[' :: rest => faultAt (.wrongType "sequence" expected) ('[' :: rest)
  | '\x7b' :: rest => faultAt (.wrongType "map" expected) ('\x7b' :: rest)
  | [] => faultAt .expectedValue []
  | c :: rest =>
    if c.isDigit then after (number false (c :: rest)) ofNumber
    else faultAfter .expectedValue (c :: rest)

/-- A text. -/
def readText (text : List Char) : Scanned String :=
  match skipBlanks text with
  | [] => .error (faultAt .endInValue [])
  | '"' :: rest => (string rest).change String.ofList
  | rest => .error (wrongType "a string" rest)

/-- A text or `null`. -/
def readOptionalText (text : List Char) : Scanned (Option String) :=
  match skipBlanks text with
  | 'n' :: rest => (word ['u', 'l', 'l'] rest).change fun _ => none
  | rest => (readText rest).change some

/-- A truth value. -/
def readBool (text : List Char) : Scanned Bool :=
  match skipBlanks text with
  | [] => .error (faultAt .endInValue [])
  | 't' :: rest => (word ['r', 'u', 'e'] rest).change fun _ => true
  | 'f' :: rest => (word ['a', 'l', 's', 'e'] rest).change fun _ => false
  | rest => .error (wrongType "a boolean" rest)

/-- Whether a list goes on, with the text of its next value; `first` says that none was read yet. -/
def nextItem (first : Bool) (text : List Char) : Except Fault (Option (List Char)) :=
  match skipBlanks text with
  | [] => .error (faultAt .endInList [])
  | ']' :: _ => .ok none
  | c :: rest =>
    if first then .ok (some (c :: rest))
    else if c = ',' then
      match skipBlanks rest with
      | [] => .error (faultAt .endInValue [])
      | ']' :: rest => .error (faultAfter .trailingComma (']' :: rest))
      | rest => .ok (some rest)
    else .error (faultAfter .expectedCommaOrBracket (c :: rest))

/-- The end of a list. -/
def closeList (text : List Char) : Scanned Unit :=
  match skipBlanks text with
  | [] => .error (faultAt .endInList [])
  | ']' :: rest => .ok ((), rest)
  | ',' :: rest =>
    match skipBlanks rest with
    | ']' :: rest => .error (faultAfter .trailingComma (']' :: rest))
    | rest => .error (faultAfter .trailingCharacters rest)
  | rest => .error (faultAfter .trailingCharacters rest)

/-- The texts of a list up to its closing bracket. -/
def readTextItems (fuel : Nat) (first : Bool) (text : List Char) : Scanned (List String) :=
  match fuel with
  | 0 => .error (faultAt .tooDeep text)
  | fuel + 1 =>
    match nextItem first text with
    | .error fault => .error fault
    | .ok none => (closeList text).change fun _ => []
    | .ok (some rest) =>
      (readText rest).andThen fun item rest =>
        (readTextItems fuel false rest).change (item :: ·)

/-- A list of texts. -/
def readTexts (text : List Char) : Scanned (List String) :=
  match skipBlanks text with
  | [] => .error (faultAt .endInValue [])
  | '[' :: rest => readTextItems (rest.length + 1) true rest
  | rest => .error (wrongType "a sequence" rest)

/-- A field of a record: its name, other names for it, and how its value is read into the record. -/
structure Field (σ : Type) where
  name : String
  aliases : List String := []
  read : σ → List Char → Scanned σ

/-- A kind of record: its name, its fields in order and the values they have when left out. -/
structure Record (σ : Type) where
  name : String
  fields : List (Field σ)
  default : σ

namespace Record

variable {σ : Type}

/-- The field that a name denotes. -/
def field? (record : Record σ) (name : String) : Option (Field σ) :=
  record.fields.find? fun field => field.name == name || field.aliases.contains name

/-- The fields of a list, by position. -/
def readByPosition (value : σ) (first : Bool) (text : List Char) : List (Field σ) → Scanned σ
  | [] => (closeList text).change fun _ => value
  | field :: rest =>
    match nextItem first text with
    | .error fault => .error fault
    | .ok none => (closeList text).change fun _ => value
    | .ok (some item) =>
      (field.read value item).andThen fun value text => readByPosition value false text rest

/-- The fault of a field that is given twice: it stands behind the name, and behind the closing
brace if the object ends there. -/
def duplicate (name : String) (text : List Char) : Fault :=
  match skipBlanks text with
  | '\x7d' :: rest => faultAt (.duplicateField name) rest
  | rest => faultAt (.duplicateField name) rest

/-- The value behind the name of a field. -/
def readValue (read : σ → List Char → Scanned σ) (value : σ) (text : List Char) : Scanned σ :=
  match skipBlanks text with
  | [] => .error (faultAt .endInObject [])
  | ':' :: rest => read value rest
  | rest => .error (faultAfter .expectedColon rest)

/-- The fields of an object up to its closing brace; `seen` are the names of those read before. -/
def readByName (record : Record σ) (fuel : Nat) (value : σ) (first : Bool) (seen : List String)
    (text : List Char) : Scanned σ :=
  match fuel with
  | 0 => .error (faultAt .tooDeep text)
  | fuel + 1 =>
    let named (rest : List Char) : Scanned σ :=
      (string rest).andThen fun name rest =>
        match record.field? (String.ofList name) with
        | some field =>
          if seen.contains field.name then .error (duplicate field.name rest)
          else
            (readValue field.read value rest).andThen fun value rest =>
              record.readByName fuel value false (field.name :: seen) rest
        | none =>
          (readValue (fun value text => (skipValue (2 * text.length + 2) text).change fun _ => value)
            value rest).andThen fun value rest => record.readByName fuel value false seen rest
    match skipBlanks text with
    | [] => .error (faultAt .endInObject [])
    | '\x7d' :: rest => .ok (value, rest)
    | c :: rest =>
      if first then
        if c = '"' then named rest else .error (faultAfter .keyMustBeString (c :: rest))
      else if c = ',' then
        match skipBlanks rest with
        | [] => .error (faultAt .endInValue [])
        | '"' :: rest => named rest
        | '\x7d' :: rest => .error (faultAfter .trailingComma ('\x7d' :: rest))
        | rest => .error (faultAfter .keyMustBeString rest)
      else .error (faultAfter .expectedCommaOrBrace (c :: rest))

/-- A record. -/
def read (record : Record σ) (text : List Char) : Scanned σ :=
  match skipBlanks text with
  | [] => .error (faultAt .endInValue [])
  | '[' :: rest => readByPosition record.default true rest record.fields
  | '\x7b' :: rest => record.readByName (rest.length + 1) record.default true [] rest
  | rest => .error (wrongType ("struct " ++ record.name) rest)

end Record

end Phrasebook.Json.Scan
