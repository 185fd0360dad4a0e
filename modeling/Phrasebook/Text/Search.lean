/-!
# Text/Search — cutting, finding and replacing inside a text

Texts are searched as lists of characters.  `before` keeps what stands in front of a mark,
`occurs` asks whether a mark stands anywhere, and `replaceFirst` puts a text in the place of the
first occurrence of one character.
-/

namespace Phrasebook.Text

/-- What stands before the first occurrence of `mark`; all of the text if there is none. -/
def before (mark : List Char) : List Char → List Char
  | [] => []
  | c :: rest => if mark.isPrefixOf (c :: rest) then [] else c :: before mark rest

/-- Whether `mark` stands somewhere in the text. -/
def occurs (mark : List Char) : List Char → Bool
  | [] => mark.isEmpty
  | c :: rest => mark.isPrefixOf (c :: rest) || occurs mark rest

/-- The text with `new` in the place of the first `old`. -/
def replaceFirst (old : Char) (new : List Char) : List Char → List Char
  | [] => []
  | c :: rest => if c = old then new ++ rest else c :: replaceFirst old new rest

/-- The number of bytes that the characters take in UTF-8. -/
def byteCount : List Char → Nat
  | [] => 0
  | c :: rest => c.utf8Size + byteCount rest

end Phrasebook.Text
