import Phrasebook.Text.Decimal

/-!
# Interpolation — filling the slot markers of a translated text

A slot marker is `\x7b`, one or more decimal digits, `\x7d`.  One pass from left to right replaces
each marker whose number names an argument, counted from one; a marker that names none stays as it
is, and so does all other text.  What an argument brings in is not read again.
-/

namespace Phrasebook.Interpolation

/-- What a marker with these digits becomes: the argument it names, or itself. -/
def fill (arguments : List String) (digits : List Char) : List Char :=
  match Decimal.toNat digits with
  | 0 => '{' :: digits ++ ['}']
  | n + 1 =>
    match arguments[n]? with
    | some value => value.toList
    | none => '{' :: digits ++ ['}']

/-- The pass over the text.  `opened` holds the digits read since a brace that may open a marker,
the last one first, and is `none` outside of such a brace. -/
def scan (arguments : List String) (opened : Option (List Char)) : List Char → List Char
  | [] =>
    match opened with
    | none => []
    | some digits => '{' :: digits.reverse
  | c :: rest =>
    match opened with
    | none => if c = '{' then scan arguments (some []) rest else c :: scan arguments none rest
    | some digits =>
      if c.isDigit then scan arguments (some (c :: digits)) rest
      else if c = '}' ∧ digits ≠ [] then
        fill arguments digits.reverse ++ scan arguments none rest
      else if c = '{' then '{' :: digits.reverse ++ scan arguments (some []) rest
      else '{' :: digits.reverse ++ c :: scan arguments none rest

/-- The text with every slot marker that names an argument replaced by that argument. -/
def interpolate (text : String) (arguments : List String) : String :=
  String.ofList (scan arguments none text.toList)

end Phrasebook.Interpolation
