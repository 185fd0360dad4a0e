import Phrasebook.Json.Reader
import Phrasebook.Json.Record
import Phrasebook.Json.Writer
import Phrasebook.Markers
import Phrasebook.Project.Scan

/-!
# Config — the settings of a project

A project is configured by one JSON file; every setting has a default.  `Config.parse` reads a text,
`Config.validate` says what is wrong with the values, and `Config.render` writes them.
-/

namespace Phrasebook

/-- The settings of a project. -/
structure Config where
  /-- Where source files are looked for. -/
  srcDir : String := "./src"
  /-- Where catalogs are looked for. -/
  configDir : String := "./locales"
  /-- The locale whose source text is its translation. -/
  defaultLocale : Option String := none
  /-- What is left out of the scan of source files. -/
  ignores : List String := []
  /-- The extensions of source files. -/
  extensions : List String := ["ts", "tsx"]
  /-- Whether files that cannot hold a marker are left unread. -/
  prefilter : Bool := true
  markers : Markers := {}
  deriving DecidableEq

/-- What is wrong with the values of a configuration. -/
inductive ConfigFault where
  | malformedIgnore (pattern : String) (fault : Glob.Fault)
  | noExtensions
  | emptyMarker
  | equalMarkers (name : String)
  deriving DecidableEq

/-- The wording of a fault. -/
def ConfigFault.message : ConfigFault → String
  | malformedIgnore pattern fault =>
    "Invalid glob pattern in 'ignores': \"" ++ pattern ++ "\": " ++ fault.message
  | noExtensions => "'extensions' must list at least one file extension"
  | emptyMarker => "'markers' names must not be empty"
  | equalMarkers name =>
    "'markers.scalar' and 'markers.plural' must differ (both are \"" ++ name ++ "\")"

open Json.Scan in
/-- How the marker names are read. -/
def Markers.record : Record Markers where
  name := "Markers"
  default := {}
  fields := [
    { name := "scalar"
      read := fun m text => (readText text).change fun name => { m with scalar := name } },
    { name := "plural"
      read := fun m text => (readText text).change fun name => { m with plural := name } }]

namespace Config

/-- The name of the configuration file. -/
def fileName : String := ".tagi18nrc.json"

open Json.Scan in
/-- How a configuration is read. -/
def record : Record Config where
  name := "Config"
  default := {}
  fields := [
    { name := "srcDir", aliases := ["rootDir"]
      read := fun c text => (readText text).change fun value => { c with srcDir := value } },
    { name := "configDir"
      read := fun c text => (readText text).change fun value => { c with configDir := value } },
    { name := "defaultLocale"
      read := fun c text =>
        (readOptionalText text).change fun value => { c with defaultLocale := value } },
    { name := "ignores"
      read := fun c text => (readTexts text).change fun value => { c with ignores := value } },
    { name := "extensions"
      read := fun c text => (readTexts text).change fun value => { c with extensions := value } },
    { name := "prefilter"
      read := fun c text => (readBool text).change fun value => { c with prefilter := value } },
    { name := "markers"
      read := fun c text =>
        (Markers.record.read text).change fun value => { c with markers := value } }]

/-- Reads a configuration. -/
def parse (text : String) : Except Json.ReadError Config :=
  let chars := text.toList
  match Json.Scan.finish (record.read chars) with
  | .ok config => .ok config
  | .error fault => .error (fault.locate chars)

/-- A configuration as JSON. -/
def toJson (config : Config) : Json :=
  .object [
    ("srcDir", .string config.srcDir),
    ("configDir", .string config.configDir),
    ("defaultLocale", (config.defaultLocale.map Json.string).getD .null),
    ("ignores", .array (config.ignores.map .string)),
    ("extensions", .array (config.extensions.map .string)),
    ("prefilter", .bool config.prefilter),
    ("markers", .object [
      ("scalar", .string config.markers.scalar),
      ("plural", .string config.markers.plural)])]

/-- Writes a configuration. -/
def render (config : Config) : String := config.toJson.pretty

/-- The text of a new configuration file. -/
def defaultText : String := ({} : Config).render ++ "\n"

/-- The first malformed ignore pattern. -/
def firstMalformed : List String → Option ConfigFault
  | [] => none
  | pattern :: rest =>
    if Ignores.hasWildcard pattern then
      match Glob.parse pattern with
      | .ok _ => firstMalformed rest
      | .error fault => some (.malformedIgnore pattern fault)
    else firstMalformed rest

/-- What is wrong with the values, if anything is. -/
def validate (config : Config) : Option ConfigFault :=
  match firstMalformed config.ignores with
  | some fault => some fault
  | none =>
    if config.extensions.isEmpty then some .noExtensions
    else if config.markers.scalar = "" ∨ config.markers.plural = "" then some .emptyMarker
    else if config.markers.scalar = config.markers.plural then
      some (.equalMarkers config.markers.scalar)
    else none

end Config

end Phrasebook
