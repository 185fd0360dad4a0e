import Phrasebook.Program
import Phrasebook.Project.Changes

/-!
# Main — the command line

Reads the files below the working folder, runs the program on them, prints what it says and writes
what changed.
-/

namespace Phrasebook.Main

/-- What is shown when no command is given. -/
def helpText : String :=
  "Compares locale catalogs with the keys that source code uses\n\n" ++
  "Usage: tagi18n [COMMAND]\n\n" ++
  "Commands:\n" ++
  "  check  Check locale catalogs against the translation keys used in source\n" ++
  "  init   Write a .tagi18nrc.json configuration file\n" ++
  "  help   Show this text\n\n" ++
  "Options of check:\n" ++
  "  -r, --src-dir <DIR>     Where source files are looked for\n" ++
  "  -c, --config-dir <DIR>  Where catalogs are looked for\n" ++
  "      --default <LOCALE>  The locale whose source text is its translation\n" ++
  "  -f, --fix               Patch the catalogs\n" ++
  "      --no-color          Print without colors\n" ++
  "  -v, --verbose           Print more\n" ++
  "  -h, --help              Show this text\n"

/-- What is shown when the version is asked for. -/
def versionText : String := "tagi18n 0.1.0\n"

/-- What is printed for arguments that ask for no command. -/
def refusalText : CommandLine.Refusal → Printed
  | .displayHelp => { out := helpText }
  | .displayVersion => { out := versionText }
  | .invalidValue => { err := "error: an option has no value or an invalid one\n" }
  | .argumentConflict => { err := "error: an option cannot be used twice\n" }
  | .tooManyValues => { err := "error: a switch takes no value\n" }
  | .unknownArgument => { err := "error: unexpected argument\n" }
  | .invalidSubcommand => { err := "error: unrecognized subcommand\n" }

/-- What stands in a file; one that cannot be read counts as a file without text. -/
def readContent (entry : IO.FS.DirEntry) : IO Node := do
  try
    let bytes ← IO.FS.readBinFile entry.path
    match String.fromUTF8? bytes with
    | some content => return .text content
    | none => return .binary bytes.toList
  catch _ => return .binary [0xff]

/-- The file or folder that an entry names.  Folders that are never entered are not read. -/
partial def readNode (entry : IO.FS.DirEntry) : IO Node := do
  if ← entry.path.isDir then
    if Project.skippedFolders.contains entry.fileName then return .folder []
    let entries ← entry.path.readDir
    let children ← entries.toList.mapM fun child => return (child.fileName, ← readNode child)
    return .folder children
  else readContent entry

/-- Writes a file and makes the folders above it. -/
def writeContent (path content : String) : IO Unit := do
  if let some folder := Path.parent? path then
    unless folder.isEmpty do IO.FS.createDirAll folder
  IO.FS.writeFile path content

/-- Prints what a run says. -/
def printAll (printed : Printed) : IO Unit := do
  IO.print printed.out
  IO.eprint printed.err

end Phrasebook.Main

open Phrasebook Main in
/-- Runs the program in the working folder. -/
def main (arguments : List String) : IO UInt32 := do
  let top ← readNode { root := ".", fileName := "" }
  let project : Project := { top }
  let color := (← IO.getEnv "NO_COLOR").isNone && (← (← IO.getStdout).isTty)
  match Program.run color arguments project with
  | .help =>
    printAll { out := helpText }
    return 0
  | .refused refusal =>
    printAll (refusalText refusal)
    return refusal.exitCode.toUInt32
  | .ran run =>
    for (path, content) in project.changes run.project do writeContent path content
    printAll run.printed
    return run.status.code.toUInt32
