import Phrasebook.Check
import Phrasebook.ExitStatus

/-!
# Program — a run of the program

A run takes arguments and a project and gives what is printed, how it ended and the project as it is
afterwards.  Without a command it shows the help text, and arguments that ask for no command are
refused.
-/

namespace Phrasebook

/-- What a command did. -/
structure Run where
  status : ExitStatus
  printed : Printed := {}
  project : Project

/-- What a run of the program comes to. -/
inductive Outcome where
  /-- No command was given. -/
  | help
  /-- The arguments ask for no command. -/
  | refused (refusal : CommandLine.Refusal)
  | ran (run : Run)

namespace Program

/-- A run that cannot do its work. -/
def failed (project : Project) (message : String) : Run where
  status := .error
  printed := { err := "Error: " ++ message ++ "\n" }
  project := project

/-- Writes a configuration file with the defaults, unless there is one. -/
def runInit (color : Bool) (project : Project) : Run :=
  if project.exists? Config.fileName then
    { status := .ofErrorCount 1
      printed := { err := "Error: " ++ Config.fileName ++ " already exists\n" }
      project }
  else
    match project.write Config.fileName Config.defaultText with
    | .error fault =>
      failed project ("Failed to write " ++ Config.fileName ++ ": " ++ fault.message)
    | .ok project =>
      { status := .ofErrorCount 0
        printed :=
          { out := Style.green.paint color Report.successMark ++ " " ++
              Style.green.paint color ("Created " ++ Config.fileName) ++ "\n" }
        project }

/-- Checks the project and reports what is wrong with it. -/
def runCheck (color : Bool) (options : CommandLine.CheckOptions) (project : Project) : Run :=
  match project.check options with
  | .error error => failed project error.message
  | .ok (result, project) =>
    { status := .ofErrorCount result.issues.length
      printed := Report.print (color && !options.noColor) result
      project }

/-- Runs the program on the arguments behind its name; `color` says whether colors can be shown. -/
def run (color : Bool) (arguments : List String) (project : Project) : Outcome :=
  match CommandLine.parse arguments with
  | .error refusal => .refused refusal
  | .ok none => .help
  | .ok (some .init) => .ran (runInit color project)
  | .ok (some (.check options)) => .ran (runCheck color options project)

end Program

end Phrasebook
