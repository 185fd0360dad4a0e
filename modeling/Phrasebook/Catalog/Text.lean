import Phrasebook.Catalog.Basic
import Phrasebook.Error

/-!
# Catalog/Text — catalogs as files hold them

A catalog file is one JSON object.  It is written over several lines and ends in a line break, so
that equal catalogs have equal files.
-/

namespace Phrasebook.Catalog

/-- Reads a catalog; the root must be an object. -/
def parse (text : String) : Except Error Catalog :=
  match Json.parse text with
  | .ok (.object fields) => .ok (ofFields fields)
  | .ok _ => .error (.catalogRoot "")
  | .error error => .error (.json error)

/-- Reads a catalog that stands at a path, which an error about the root names. -/
def parseAt (path text : String) : Except Error Catalog :=
  match parse text with
  | .error (.catalogRoot _) => .error (.catalogRoot path)
  | result => result

/-- Writes a catalog. -/
def render (catalog : Catalog) : String := (Json.object catalog.toFields).pretty ++ "\n"

end Phrasebook.Catalog
