import Phrasebook.Project.Glob
import Phrasebook.Project.Tree

/-!
# Project/Scan — finding the files that matter

A scan walks a folder and lists the files with a wanted extension.  Folders named `node_modules`
or `.git` are never entered, and neither is anything that an ignore pattern names: a pattern
without wildcards is a path inside of the scanned folder, one with wildcards is tested against the
path as it was walked.
-/

namespace Phrasebook

/-- The ignore patterns of a scan: paths, and patterns with wildcards. -/
structure Ignores where
  paths : List String := []
  globs : List (List Glob.Part) := []
  /-- The patterns that are dropped because they are malformed. -/
  malformed : List String := []

namespace Ignores

/-- Whether an ignore pattern has wildcards. -/
def hasWildcard (pattern : String) : Bool := pattern.toList.any fun c => c = '*' || c = '?'

/-- Adds one ignore pattern of a scan of `base`. -/
def add (base : String) (ignores : Ignores) (pattern : String) : Ignores :=
  if hasWildcard pattern then
    match Glob.parse pattern with
    | .ok glob => { ignores with globs := ignores.globs ++ [glob] }
    | .error _ => { ignores with malformed := ignores.malformed ++ [pattern] }
  else { ignores with paths := ignores.paths ++ [Path.join base pattern] }

/-- The ignore patterns of a scan of `base`. -/
def ofPatterns (base : String) (patterns : List String) : Ignores := patterns.foldl (add base) {}

/-- Whether a path is ignored. -/
def ignores (ignores : Ignores) (path : String) : Bool :=
  ignores.paths.any (Path.startsWith path ·) ||
    ignores.globs.any (Glob.matchesText · path.toList)

end Ignores

namespace Project

/-- The folders that are never entered. -/
def skippedFolders : List String := ["node_modules", ".git"]

mutual

/-- The paths of the files at or below a node, none of them below a path that is not kept. -/
def walk (keep : String → Node → Bool) (path : String) (node : Node) : List String :=
  match node with
  | .folder children =>
    if keep path (.folder children) then walkAll keep path children else []
  | .text content => if keep path (.text content) then [path] else []
  | .binary bytes => if keep path (.binary bytes) then [path] else []

/-- The paths of the files at or below the nodes inside of a folder. -/
def walkAll (keep : String → Node → Bool) (folder : String) :
    List (String × Node) → List String
  | [] => []
  | (name, node) :: rest =>
    walk keep (Path.join folder name) node ++ walkAll keep folder rest

end

/-- Whether a node is a folder that is never entered. -/
def isSkipped (path : String) (node : Node) : Bool :=
  node.isFolder && skippedFolders.contains ((Path.fileName? path).getD path)

/-- Whether a path has one of these extensions. -/
def hasExtension (extensions : List String) (path : String) : Bool :=
  match Path.extension? path with
  | some extension => extensions.contains extension
  | none => false

/-- What a scan of source files found. -/
structure SourceScan where
  files : List String
  /-- The number of paths that could not be read. -/
  skipped : Nat
  /-- The ignore patterns that were dropped. -/
  malformed : List String

/-- The source files at or below a path, sorted. -/
def scanSources (project : Project) (base : String) (extensions patterns : List String) :
    SourceScan :=
  let ignores := Ignores.ofPatterns base patterns
  let keep := fun path node => !isSkipped path node && !ignores.ignores path
  match project.find base with
  | .ok node =>
    let files := (walk keep base node).filter (hasExtension extensions)
    { files := files.mergeSort (· ≤ ·), skipped := 0, malformed := ignores.malformed }
  | .error _ => { files := [], skipped := 1, malformed := ignores.malformed }

/-- A catalog file with its locale. -/
structure CatalogFile where
  locale : String
  path : String
  deriving DecidableEq

/-- The folder for catalogs is not there. -/
structure MissingFolder where
  path : String
  deriving DecidableEq

/-- The wording of the fault. -/
def MissingFolder.message (fault : MissingFolder) : String :=
  "Catalog directory not found: " ++ fault.path

/-- Whether a catalog file comes before another one: by locale, then by path. -/
def CatalogFile.le (a b : CatalogFile) : Bool :=
  a.locale < b.locale || (a.locale == b.locale && Path.le a.path b.path)

/-- The locale of a catalog file is its name without the extension. -/
def localeOf? (path : String) : Option String := Path.stem? path

/-- The catalog files at or below a path, sorted by locale and path. -/
def findCatalogs (project : Project) (base : String) : List CatalogFile :=
  match project.find base with
  | .ok node =>
    let files := (walk (fun path node => !isSkipped path node) base node).filter
      (hasExtension ["json"])
    let catalogs := files.filterMap fun path => (localeOf? path).map fun locale => ⟨locale, path⟩
    catalogs.mergeSort CatalogFile.le
  | .error _ => []

/-- The catalog files at or below a folder, which must be there. -/
def catalogsOf (project : Project) (folder : String) : Except MissingFolder (List CatalogFile) :=
  if project.isFolder folder then .ok (project.findCatalogs folder) else .error ⟨folder⟩

end Project

end Phrasebook
