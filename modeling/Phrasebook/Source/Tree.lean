import Phrasebook.Markers
import Phrasebook.Usage

/-!
# Source/Tree — the shape of source code, as far as usages need it

A tree keeps the constructs that usages are recognised by: names, accessed members, calls and tagged
templates.  Every other construct is a node with its parts, so that a template is found wherever it
stands.  `Tree.usages` lists the usages of a tree, each node before its parts.
-/

namespace Phrasebook

namespace Source

/-- A construct of source code. -/
inductive Tree where
  /-- A name. -/
  | name (text : String)
  /-- A member that is accessed by its name, as in `a.b`. -/
  | member (object : Tree) (property : String)
  /-- A call. -/
  | call (callee : Tree) (arguments : List Tree)
  /-- A tagged template: the types its tag is applied to, the text of each chunk, if it has one, and
  the slots between the chunks. -/
  | tagged (tag : Tree) (types : List Tree) (chunks : List (Option String)) (slots : List Tree)
  /-- Any other construct. -/
  | other (parts : List Tree)
  deriving Inhabited

namespace Tree

/-- The name by which a construct can be a marker: its own, or that of the accessed member. -/
def markerName? : Tree → Option String
  | name text => some text
  | member _ property => some property
  | _ => none

/-- The operation that a tag marks. -/
def kind? (markers : Markers) (tag : Tree) : Option Kind :=
  if tag.markerName? = some markers.scalar then some .scalar
  else
    match tag with
    | call callee _ => if callee.markerName? = some markers.plural then some .plural else none
    | _ => none

/-- The texts of all chunks, if each has one. -/
def segments? : List (Option String) → Option (List String)
  | [] => some []
  | none :: _ => none
  | some text :: rest => (segments? rest).map (text :: ·)

/-- The usage that a tagged template is, if its tag is a marker and its chunks have texts. -/
def usage? (markers : Markers) (tag : Tree) (chunks : List (Option String)) : Option Usage :=
  match kind? markers tag, segments? chunks with
  | some kind, some segments => some ⟨kind, segments⟩
  | _, _ => none

mutual

/-- The usages of a construct: its own, if it is one, and then those of its parts. -/
def usages (markers : Markers) : Tree → List Usage
  | name _ => []
  | member object _ => usages markers object
  | call callee arguments => usages markers callee ++ usagesOfAll markers arguments
  | tagged tag types chunks slots =>
    (usage? markers tag chunks).toList
      ++ (usages markers tag ++ (usagesOfAll markers types ++ usagesOfAll markers slots))
  | other parts => usagesOfAll markers parts

/-- The usages of a list of constructs. -/
def usagesOfAll (markers : Markers) : List Tree → List Usage
  | [] => []
  | tree :: rest => usages markers tree ++ usagesOfAll markers rest

end

end Tree

end Source

end Phrasebook
