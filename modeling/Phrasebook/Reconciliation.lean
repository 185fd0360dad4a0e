import Phrasebook.Drift
import Phrasebook.Catalog.Text
import Phrasebook.Project.Scan
import Phrasebook.Registry

/-!
# Reconciliation — catalogs of a project against the keys that its source uses

Each catalog file is read, compared with the used keys and, in fix mode, patched and written back if
its text changes.  A file that cannot be read, parsed or written is reported and does not stop the
others.
-/

namespace Phrasebook

/-- Whether catalogs are only compared or also patched. -/
inductive Mode where
  | report
  | fix
  deriving DecidableEq

/-- What happened to one catalog file. -/
structure CatalogReport where
  locale : String
  path : String
  isDefault : Bool := false
  diff : CatalogDiff := {}
  /-- What fix mode did. -/
  outcome : Option FixOutcome := none
  /-- Whether fix mode wrote the file. -/
  written : Bool := false
  /-- Why the file could not be read, parsed or written. -/
  error : Option String := none
  deriving DecidableEq

namespace CatalogReport

/-- The name of the file, for display. -/
def fileName (report : CatalogReport) : String := (Path.fileName? report.path).getD report.path

/-- Whether the catalog makes the whole check fail. -/
def isFailure (report : CatalogReport) : Bool :=
  report.error.isSome || report.diff.hasInvalidEntries ||
    match report.outcome with
    | none => report.diff.hasDrift
    | some outcome => outcome == .hasMissingTranslations

/-- Whether a report comes before another one or with it: by locale, then by the text of the path.
-/
def le (a b : CatalogReport) : Bool :=
  a.locale < b.locale || (a.locale == b.locale && a.path ≤ b.path)

end CatalogReport

namespace Project

/-- The catalog in a file, or why there is none. -/
def loadCatalog (project : Project) (path : String) : Except Error Catalog :=
  match project.read path with
  | .ok text => Catalog.parseAt path text
  | .error fault => .error (.file path fault)

/-- Writes a catalog to a file; the folders above it are made. -/
def saveCatalog (project : Project) (path : String) (catalog : Catalog) : Except Error Project :=
  let folder := (Path.parent? path).getD ""
  match (if folder = "" then .ok project else project.makeFolders folder) with
  | .error fault => .error (.file folder fault)
  | .ok project =>
    match project.write path catalog.render with
    | .ok project => .ok project
    | .error fault => .error (.file path fault)

/-- The catalogs at or below a folder, by locale.  Of two files of one locale the last one counts,
and the first file that is no catalog stops the loading. -/
def loadRegistry (project : Project) (folder : String) : Except Error Registry :=
  match project.find folder with
  | .error fault => .error (.file folder fault)
  | .ok _ =>
    (project.findCatalogs folder).foldlM (fun registry file => do
      let catalog ← project.loadCatalog file.path
      return registry.insert file.locale catalog) Registry.empty

/-- The wording of a catalog that cannot be parsed, which names the file. -/
def parseFailure (path : String) : Error → String
  | .catalogRoot _ => Error.message (.catalogRoot path)
  | error => path ++ ": " ++ error.message

/-- Compares one catalog file with the used keys and, in fix mode, patches it. -/
def reconcileCatalog (project : Project) (file : CatalogFile) (usages : KeyUsages)
    (isDefault : Bool) (mode : Mode) : CatalogReport × Project :=
  let report : CatalogReport := { locale := file.locale, path := file.path, isDefault }
  match project.read file.path with
  | .error fault => ({ report with error := some (Error.file file.path fault).message }, project)
  | .ok text =>
    match Catalog.parse text with
    | .error error => ({ report with error := some (parseFailure file.path error) }, project)
    | .ok catalog =>
      let (diff, kept) := catalog.diff usages isDefault
      let report := { report with diff }
      match mode with
      | .report => (report, project)
      | .fix =>
        let (outcome, patched) := kept.fix diff usages
        let report := { report with outcome := some outcome }
        if outcome = .hasMissingTranslations ∨ patched.render = text then (report, project)
        else
          match project.write file.path patched.render with
          | .ok project => ({ report with written := true }, project)
          | .error fault =>
            ({ report with error := some (Error.file file.path fault).message }, project)

/-- Reconciles catalog files one after the other. -/
def reconcileEach (project : Project) (usages : KeyUsages) (defaultLocale : Option String)
    (mode : Mode) : List CatalogFile → List CatalogReport × Project
  | [] => ([], project)
  | file :: rest =>
    let isDefault := defaultLocale == some file.locale
    let (report, project) := project.reconcileCatalog file usages isDefault mode
    let (reports, project) := project.reconcileEach usages defaultLocale mode rest
    (report :: reports, project)

/-- Reconciles all catalog files; the reports are sorted by locale and path. -/
def reconcileAll (project : Project) (files : List CatalogFile) (usages : KeyUsages)
    (defaultLocale : Option String) (mode : Mode) : List CatalogReport × Project :=
  let (reports, project) := project.reconcileEach usages defaultLocale mode files
  (reports.mergeSort CatalogReport.le, project)

end Project

end Phrasebook
