import Phrasebook.Text.Search

/-!
# Markers — the names that mark templates in source code

The tag of a scalar usage is one name, and the tag of a plural one is a call of another.  A text
that shows neither can be left unread: `Markers.mayOccurIn` looks for the spellings that usages
have when nothing stands between their parts.
-/

namespace Phrasebook

/-- The names that mark templates in source code. -/
structure Markers where
  /-- The tag of scalar usages. -/
  scalar : String := "__"
  /-- The function whose call is the tag of plural usages. -/
  plural : String := "__p"
  deriving DecidableEq

/-- The name of the library that markers come from; a text that mentions it is always read. -/
def libraryName : String := "i18n"

/-- Whether a source text is worth reading. -/
def Markers.mayOccurIn (markers : Markers) (code : String) : Bool :=
  let text := code.toList
  Text.occurs libraryName.toList text ||
    Text.occurs (markers.scalar.toList ++ ['\x60']) text ||
    Text.occurs (markers.plural.toList ++ ['(']) text

end Phrasebook
