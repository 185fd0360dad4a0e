import Phrasebook.CommandLine
import Phrasebook.Config.Search
import Phrasebook.Report
import Phrasebook.Source.Extraction

/-!
# Check — the catalogs of a project against its source

A check loads the configuration, collects the keys of all source files and reconciles every catalog
with them.  While a source file is unreadable its keys are unknown, and then nothing is fixed: its
translations would be removed as unused.
-/

namespace Phrasebook

/-- Why a check cannot be made. -/
inductive CheckError where
  | config (error : ConfigError)
  | catalogs (fault : Project.MissingFolder)
  | library (error : Error)
  deriving DecidableEq

/-- The wording of the failure. -/
def CheckError.message : CheckError → String
  | config error => error.message
  | catalogs fault => fault.message
  | library error => error.message

/-- A configuration with the options of a command line in the place of its settings. -/
def Config.override (config : Config) (options : CommandLine.CheckOptions) : Config :=
  { config with
    srcDir := options.srcDir.getD config.srcDir
    configDir := options.configDir.getD config.configDir
    defaultLocale := options.defaultLocale <|> config.defaultLocale }

/-- The keys of all source files, and what is wrong with those that could not be read or parsed. -/
structure Extraction where
  usages : KeyUsages
  issues : List Issue

namespace Extraction

/-- Nothing extracted yet. -/
def empty : Extraction := ⟨.empty, []⟩

/-- Adds what one file gives. -/
def add (extraction : Extraction) (path : String) :
    Except SourceFault KeyUsages → Extraction
  | .ok usages => { extraction with usages := extraction.usages.merge usages }
  | .error fault =>
    { extraction with issues := extraction.issues ++ [.brokenSource path fault.message] }

end Extraction

namespace Project

/-- The keys of one source file. -/
def extractFile (project : Project) (config : Config) (path : String) :
    Except SourceFault KeyUsages :=
  match project.read path with
  | .ok code => Source.keyUsages config.markers config.prefilter path code
  | .error _ => .error (.unreadable path)

/-- The keys of source files. -/
def extract (project : Project) (config : Config) (paths : List String) : Extraction :=
  paths.foldl (fun extraction path => extraction.add path (project.extractFile config path)) .empty

/-- The issues of keys that are used both ways. -/
def ambiguityIssues (config : Config) (usages : KeyUsages) : List Issue :=
  usages.ambiguousKeys.toList.map (.ambiguousKey config.srcDir)

/-- The configuration of a check. -/
def checkConfig (project : Project) (options : CommandLine.CheckOptions) :
    Except CheckError Config :=
  match project.loadConfig "." with
  | .ok loaded => .ok (loaded.config.override options)
  | .error error => .error (.config error)

/-- Checks the project, and fixes its catalogs if that is asked for. -/
def check (project : Project) (options : CommandLine.CheckOptions) :
    Except CheckError (CheckResult × Project) := do
  let config ← project.checkConfig options
  let scan := project.scanSources config.srcDir config.extensions config.ignores
  let files ← (project.catalogsOf config.configDir).mapError .catalogs
  let extraction := project.extract config scan.files
  if extraction.usages.isEmpty then throw (.library (.noUsages config.srcDir))
  let fixSkipped := options.fix && !extraction.issues.isEmpty
  let mode := if options.fix && !fixSkipped then Mode.fix else .report
  let (catalogs, project) :=
    project.reconcileAll files extraction.usages config.defaultLocale mode
  let issues := ambiguityIssues config extraction.usages ++
    catalogs.flatMap CatalogReport.issues ++ extraction.issues
  return ({ catalogs, sourceFiles := scan.files.length, skipped := scan.skipped, fixSkipped,
            issues }, project)

end Project

end Phrasebook
