import Phrasebook.Json.Scan

/-!
# Json/Skip — reading over a value that nobody asked for

The value of an unknown field must be JSON, but numbers may have any size and lists may nest to any
depth.
-/

namespace Phrasebook.Json.Scan

mutual

/-- Reads over one value.  The fuel bounds the pieces, and twice the length of the text is enough.
-/
def skipValue (fuel : Nat) (text : List Char) : Scanned Unit :=
  match fuel with
  | 0 => .error (faultAt .tooDeep text)
  | fuel + 1 =>
    match skipBlanks text with
    | [] => .error (faultAt .endInValue [])
    | 'n' :: rest => word ['u', 'l', 'l'] rest
    | 't' :: rest => word ['r', 'u', 'e'] rest
    | 'f' :: rest => word ['a', 'l', 's', 'e'] rest
    | '-' :: rest => skipNumber rest
    | '"' :: rest => skipString rest
    | '[' :: rest => skipItems fuel true rest
    | '\x7b' :: rest => skipFields fuel true rest
    | c :: rest =>
      if c.isDigit then skipNumber (c :: rest) else .error (faultAfter .expectedValue (c :: rest))

/-- Reads over the rest of a list; `first` says that no value was read yet. -/
def skipItems (fuel : Nat) (first : Bool) (text : List Char) : Scanned Unit :=
  match fuel with
  | 0 => .error (faultAt .tooDeep text)
  | fuel + 1 =>
    match skipBlanks text with
    | [] => .error (faultAt .endInList [])
    | ']' :: rest => .ok ((), rest)
    | c :: rest =>
      if first then (skipValue fuel (c :: rest)).andThen fun _ rest => skipItems fuel false rest
      else if c = ',' then (skipValue fuel rest).andThen fun _ rest => skipItems fuel false rest
      else .error (faultAfter .expectedCommaOrBracket (c :: rest))

/-- Reads over the rest of an object; `first` says that no field was read yet. -/
def skipFields (fuel : Nat) (first : Bool) (text : List Char) : Scanned Unit :=
  match fuel with
  | 0 => .error (faultAt .tooDeep text)
  | fuel + 1 =>
    match skipBlanks text with
    | [] => .error (faultAt .endInObject [])
    | '\x7d' :: rest => .ok ((), rest)
    | c :: rest =>
      if first = false ∧ c ≠ ',' then .error (faultAfter .expectedCommaOrBrace (c :: rest))
      else
        match skipBlanks (if first then c :: rest else rest) with
        | [] => .error (faultAt .endInObject [])
        | '"' :: rest =>
          (skipString rest).andThen fun _ rest =>
            match skipBlanks rest with
            | [] => .error (faultAt .endInObject [])
            | ':' :: rest =>
              (skipValue fuel rest).andThen fun _ rest => skipFields fuel false rest
            | rest => .error (faultAfter .expectedColon rest)
        | rest => .error (faultAfter .keyMustBeString rest)

end

end Phrasebook.Json.Scan
