import Phrasebook.Project.Path

/-!
# Source/Dialect — which language a source file is written in

The extension of a file says whether its text may hold types and whether it may hold markup.  Where
types are allowed without markup, `<T>x` is a type assertion.
-/

namespace Phrasebook.Source

/-- What the text of a source file may hold. -/
structure Dialect where
  typed : Bool
  markup : Bool
  deriving DecidableEq

/-- The dialect of a file, by its extension. -/
def Dialect.ofPath (path : String) : Dialect :=
  let extension := (Path.extension? path).getD ""
  if ["ts", "mts", "cts"].contains extension then { typed := true, markup := false }
  else if ["js", "jsx", "mjs", "cjs"].contains extension then { typed := false, markup := true }
  else { typed := true, markup := true }

end Phrasebook.Source
