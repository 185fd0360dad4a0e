import Phrasebook.Config

/-!
# Config/Search — which configuration a project has

The configuration file is looked for from a folder upwards.  The search ends at the first folder
that has one, at a folder that holds `.git`, or where the path has no folder above; then the
defaults are used.
-/

namespace Phrasebook

/-- Why no configuration could be loaded. -/
inductive ConfigError where
  | unreadable (path : String) (fault : FileFault)
  | unparsable (path : String) (error : Json.ReadError)
  | invalid (fault : ConfigFault)
  deriving DecidableEq

/-- The wording of the failure. -/
def ConfigError.message : ConfigError → String
  | unreadable path fault =>
    "Failed to read config file: " ++ Text.quoted path ++ ": " ++ fault.message
  | unparsable path error =>
    "Failed to parse config file: " ++ Text.quoted path ++ ": " ++ error.message
  | invalid fault => fault.message

namespace Project

/-- The search from a folder upwards; the fuel bounds the climb. -/
def searchConfig (project : Project) (folder : String) : Nat → Option String
  | 0 => none
  | fuel + 1 =>
    let candidate := Path.join folder Config.fileName
    if project.exists? candidate then some candidate
    else if project.exists? (Path.join folder ".git") then none
    else
      match Path.parent? folder with
      | some above => project.searchConfig above fuel
      | none => none

/-- The path of the configuration file that counts in a folder. -/
def findConfig (project : Project) (folder : String) : Option String :=
  project.searchConfig folder (folder.length + 1)

/-- A configuration and the path it was read from; none for the defaults. -/
structure LoadedConfig where
  config : Config
  path : Option String

/-- The configuration that counts in a folder. -/
def loadConfig (project : Project) (folder : String) : Except ConfigError LoadedConfig :=
  match project.findConfig folder with
  | none => .ok ⟨{}, none⟩
  | some path =>
    match project.read path with
    | .error fault => .error (.unreadable path fault)
    | .ok text =>
      match Config.parse text with
      | .error error => .error (.unparsable path error)
      | .ok config =>
        match config.validate with
        | some fault => .error (.invalid fault)
        | none => .ok ⟨config, some path⟩

end Project

end Phrasebook
