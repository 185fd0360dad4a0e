/-!
# Project/Path — paths as texts

A path is a text whose pieces are separated by slashes.  Its **components** leave out empty pieces
and single dots, except for a dot in front; comparing, finding the name and climbing go by
components, so `a//b/.` names what `a/b` names.  Joining and climbing keep the text of the path as
it was written.
-/

namespace Phrasebook.Path

/-- One step of a path. -/
inductive Component where
  | root
  | here
  | up
  | name (text : String)
  deriving DecidableEq

/-- The pieces between the slashes of a text. -/
def splitChars : List Char → List (List Char)
  | [] => [[]]
  | c :: rest =>
    match splitChars rest with
    | [] => [[c]]
    | piece :: pieces => if c = '/' then [] :: piece :: pieces else (c :: piece) :: pieces

/-- The pieces between the slashes of a path. -/
def pieces (path : String) : List String := (splitChars path.toList).map String.ofList

/-- Whether the path starts at the root of the file system. -/
def isAbsolute (path : String) : Bool := path.toList.head? == some '/'

/-- The component of a piece that is not the first one. -/
def ofPiece (piece : String) : Option Component :=
  if piece = "" ∨ piece = "." then none
  else if piece = ".." then some .up
  else some (.name piece)

/-- The components of a path. -/
def components (path : String) : List Component :=
  match pieces path with
  | [] => []
  | first :: rest =>
    let head :=
      if first = "." then some Component.here
      else if first = "" then (if isAbsolute path then some .root else none)
      else ofPiece first
    head.toList ++ rest.filterMap ofPiece

/-- A path inside of another one; an absolute path stays what it is. -/
def join (base path : String) : String :=
  if isAbsolute path then path
  else if base = "" ∨ base.toList.getLast? = some '/' then base ++ path
  else base ++ "/" ++ path

/-- Whether a path lies at or below another one. -/
def startsWith (path base : String) : Bool := (components base).isPrefixOf (components path)

/-- The last component, if it is a name. -/
def fileName? (path : String) : Option String :=
  match (components path).getLast? with
  | some (.name text) => some text
  | _ => none

/-- A file name before and behind its last dot; a name whose only dot stands in front has none. -/
def splitName (name : String) : String × Option String :=
  let reversed := name.toList.reverse
  match reversed.dropWhile (· ≠ '.') with
  | [] => (name, none)
  | [_] => (name, none)
  | _ :: stem => (String.ofList stem.reverse, String.ofList (reversed.takeWhile (· ≠ '.')).reverse)

/-- What stands behind the last dot of the file name. -/
def extension? (path : String) : Option String :=
  (fileName? path).bind fun name => (splitName name).2

/-- What stands before the last dot of the file name. -/
def stem? (path : String) : Option String := (fileName? path).map fun name => (splitName name).1

/-- Drops pieces that are no component from the end, the first piece excepted. -/
def trimEnd : List String → List String
  | [] => []
  | [first] => [first]
  | last :: before => if last = "" ∨ last = "." then trimEnd before else last :: before

/-- The path above this one: the text without its last component. -/
def parent? (path : String) : Option String :=
  match trimEnd (pieces path).reverse with
  | [] => none
  | [first] => if first = "" then none else some ""
  | _ :: before =>
    match (trimEnd before).reverse with
    | [""] => some "/"
    | above => some (String.intercalate "/" above)

/-- The rank of a kind of component in the order of paths. -/
def Component.rank : Component → Nat
  | root => 0
  | here => 1
  | up => 2
  | name _ => 3

/-- Whether a component comes before another one. -/
def Component.lt : Component → Component → Bool
  | name a, name b => a < b
  | a, b => a.rank < b.rank

/-- Whether a list of components comes before another one or is the same. -/
def leComponents : List Component → List Component → Bool
  | [], _ => true
  | _ :: _, [] => false
  | a :: as, b :: bs => a.lt b || (a == b && leComponents as bs)

/-- Whether a path comes before another one or has the same components. -/
def le (a b : String) : Bool := leComponents (components a) (components b)

end Phrasebook.Path
