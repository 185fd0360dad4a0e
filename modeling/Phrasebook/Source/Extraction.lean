import Phrasebook.Source.Grammar

/-!
# Source/Extraction — the keys that a source file uses

A file is parsed in the dialect of its name, its usages are listed, and their keys are collected.  A
text that markers cannot occur in may be left unread; then it need not even be well-formed.
-/

namespace Phrasebook

/-- Why a source file gives no keys. -/
inductive SourceFault where
  | unreadable (path : String)
  | malformed (path : String)
  deriving DecidableEq

/-- The wording of the fault. -/
def SourceFault.message : SourceFault → String
  | unreadable path => "Failed to read file: " ++ path
  | malformed path => "Failed to parse " ++ path ++ ": <parser error>"

namespace Source

/-- The usages of a source text, each before those that stand inside of it. -/
def usages (markers : Markers) (path code : String) : Except SourceFault (List Usage) :=
  match Tree.parse? (Dialect.ofPath path) code with
  | some tree => .ok (tree.usages markers)
  | none => .error (.malformed path)

/-- The keys of a source text; with the filter on, one that markers cannot occur in has none. -/
def keyUsages (markers : Markers) (filter : Bool) (path code : String) :
    Except SourceFault KeyUsages :=
  if filter && !markers.mayOccurIn code then .ok .empty
  else (usages markers path code).map .ofList

end Source

end Phrasebook
