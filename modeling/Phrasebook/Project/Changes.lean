import Phrasebook.Project.Tree

/-!
# Project/Changes — what was written to a project

Two states of a project are compared file by file; what changed is listed with its new text.
-/

namespace Phrasebook

namespace Node

mutual

/-- The text files at or below a node, by their paths below `path`. -/
def texts (path : String) : Node → List (String × String)
  | text content => [(path, content)]
  | binary _ => []
  | folder children => textsOfAll path children

/-- The text files at or below the nodes of a folder. -/
def textsOfAll (folder : String) : List (String × Node) → List (String × String)
  | [] => []
  | (name, node) :: rest =>
    texts (Path.join folder name) node ++ textsOfAll folder rest

end

end Node

namespace Project

/-- The text files of a project. -/
def texts (project : Project) : List (String × String) := project.top.texts ""

/-- The text files of a later state that are new or differ. -/
def changes (before after : Project) : List (String × String) :=
  after.texts.filter fun (path, content) =>
    match before.top.descend (Path.pieces path) with
    | some (.text old) => old != content
    | _ => true

end Project

end Phrasebook
