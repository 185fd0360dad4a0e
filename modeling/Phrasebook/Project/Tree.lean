import Phrasebook.Fields
import Phrasebook.Error
import Phrasebook.Project.Path

/-!
# Project/Tree — the files of a project

A project is a tree of folders and files; a file holds a text, or bytes that are none.  Paths are
relative to the top folder and are followed piece by piece: each piece must be in a folder, a dot
stays and two dots climb.

The top folder is the working directory, and what lies outside of it is no part of a project.  A
path *leads out of the project* if it is absolute or climbs above the top folder; such a path names
nothing, and nothing is written or made there.
-/

namespace Phrasebook

/-- A file or a folder. -/
inductive Node where
  | text (content : String)
  | binary (bytes : List UInt8)
  | folder (children : List (String × Node))
  deriving Inhabited

namespace Node

/-- Whether the node is a folder. -/
def isFolder : Node → Bool
  | folder _ => true
  | _ => false

/-- The nodes inside of a folder. -/
def children : Node → List (String × Node)
  | folder children => children
  | _ => []

/-- The node that a list of names leads to. -/
def descend (node : Node) : List String → Option Node
  | [] => some node
  | name :: rest =>
    match Fields.get? name node.children with
    | some child => child.descend rest
    | none => none

/-- The tree with a node put at a list of names; folders on the way are made. -/
def put (node : Node) (new : Node) : List String → Node
  | [] => new
  | name :: rest =>
    let child := (Fields.get? name node.children).getD (folder [])
    folder (Fields.put name (child.put new rest) node.children)

/-- The tree without the node at a list of names. -/
def remove (node : Node) : List String → Node
  | [] => node
  | [name] => folder (Fields.without name node.children)
  | name :: rest =>
    match Fields.get? name node.children with
    | some child => folder (Fields.put name (child.remove rest) node.children)
    | none => node

end Node

/-- The files of a project below its top folder. -/
structure Project where
  top : Node := .folder []
  deriving Inhabited

namespace Project

/-- Follows pieces of a path from the folder with these names, the innermost first. -/
def follow (project : Project) : List String → List String → Except FileFault (List String)
  | names, [] => .ok names
  | names, piece :: rest =>
    match project.top.descend names.reverse with
    | none => .error .notFound
    | some (.folder children) =>
      if piece = "" ∨ piece = "." then project.follow names rest
      else if piece = ".." then
        match names with
        | [] => .error .notFound
        | _ :: names => project.follow names rest
      else if (Fields.get? piece children).isSome then project.follow (piece :: names) rest
      else .error .notFound
    | some _ => .error .notADirectory

/-- The names that lead to what a path names, unless it leads out of the project. -/
def resolve (project : Project) (path : String) : Except FileFault (List String) :=
  if path = "" ∨ Path.isAbsolute path then .error .notFound
  else (project.follow [] (Path.pieces path)).map List.reverse

/-- What a path names. -/
def find (project : Project) (path : String) : Except FileFault Node :=
  match project.resolve path with
  | .ok names =>
    match project.top.descend names with
    | some node => .ok node
    | none => .error .notFound
  | .error fault => .error fault

/-- Whether the path names something. -/
def exists? (project : Project) (path : String) : Bool := (project.find path).isOk

/-- Whether the path names a folder. -/
def isFolder (project : Project) (path : String) : Bool :=
  match project.find path with
  | .ok node => node.isFolder
  | .error _ => false

/-- The text of a file. -/
def read (project : Project) (path : String) : Except FileFault String :=
  match project.find path with
  | .ok (.text content) => .ok content
  | .ok (.binary _) => .error .notText
  | .ok (.folder _) => .error .isADirectory
  | .error fault => .error fault

/-- Splits the pieces of a path into those of its folder and the last one. -/
def splitLast : List String → List String × String
  | [] => ([], "")
  | [last] => ([], last)
  | piece :: next :: rest =>
    let (folder, last) := splitLast (next :: rest)
    (piece :: folder, last)

/-- Writes a file of the project whose folder exists. -/
def write (project : Project) (path content : String) : Except FileFault Project :=
  if path = "" ∨ Path.isAbsolute path then .error .notFound
  else
    let (folder, last) := splitLast (Path.pieces path)
    match project.follow [] folder with
    | .error fault => .error fault
    | .ok reversed =>
      let names := reversed.reverse
      match project.top.descend names with
      | some (.folder children) =>
        if last = "" ∨ last = "." ∨ last = ".." then .error .isADirectory
        else
          match Fields.get? last children with
          | some (.folder _) => .error .isADirectory
          | _ => .ok { top := project.top.put (.text content) (names ++ [last]) }
      | some _ => .error .notADirectory
      | none => .error .notFound

/-- Makes the folders on the way along pieces of a path, from the folder with these names. -/
def makeAlong (project : Project) : List String → List String → Except FileFault Project
  | _, [] => .ok project
  | names, piece :: rest =>
    if piece = "" ∨ piece = "." then project.makeAlong names rest
    else if piece = ".." then
      match names with
      | [] => .error .notFound
      | _ :: names => project.makeAlong names rest
    else
      match project.top.descend (piece :: names).reverse with
      | some (.folder _) => project.makeAlong (piece :: names) rest
      | some _ => .error (if rest.isEmpty then .exists else .notADirectory)
      | none =>
        let made : Project := { top := project.top.put (.folder []) (piece :: names).reverse }
        made.makeAlong (piece :: names) rest

/-- Makes a folder of the project and those above it, as far as they are not there. -/
def makeFolders (project : Project) (path : String) : Except FileFault Project :=
  if Path.isAbsolute path then .error .notFound else project.makeAlong [] (Path.pieces path)

end Project

end Phrasebook
