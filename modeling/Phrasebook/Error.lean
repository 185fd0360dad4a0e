import Phrasebook.Entry
import Phrasebook.Json.Reader
import Phrasebook.Json.Writer

/-!
# Error — why the library cannot answer

Each constructor is a cause; `Error.message` words it.
-/

namespace Phrasebook

/-- Why a file operation failed. -/
inductive FileFault where
  | notFound
  | exists
  | notADirectory
  | isADirectory
  | notText
  deriving DecidableEq

/-- The wording of a failed file operation. -/
def FileFault.message : FileFault → String
  | notFound => "No such file or directory (os error 2)"
  | .exists => "File exists (os error 17)"
  | notADirectory => "Not a directory (os error 20)"
  | isADirectory => "Is a directory (os error 21)"
  | notText => "stream did not contain valid UTF-8"

/-- Why the library cannot answer. -/
inductive Error where
  /-- The entry belongs to the other operation, which is named. -/
  | kindMismatch (key : String) (expected : Kind)
  /-- The entry is no translation at all. -/
  | invalidEntry (key : String) (value : Json)
  | unknownLocale (locale : String)
  | noUsages (directory : String)
  /-- The catalog at this path is not an object. -/
  | catalogRoot (path : String)
  | json (error : Json.ReadError)
  | file (path : String) (fault : FileFault)
  deriving DecidableEq

/-- The wording of an error. -/
def Error.message : Error → String
  | kindMismatch key expected =>
    "invalid translation for `" ++ key ++ "`: this translation must be resolved via the " ++
      expected.name ++ " operation"
  | invalidEntry key value =>
    "invalid translation for `" ++ key ++ "`: unsupported value `" ++ value.compact ++ "`"
  | unknownLocale locale => "unknown locale `" ++ locale ++ "`"
  | noUsages directory => "no translations found in dir: " ++ directory
  | catalogRoot path => "root of catalog must be a JSON object: " ++ path
  | json error => "parse error: " ++ error.message
  | file path fault => "I/O error on " ++ path ++ ": " ++ fault.message

end Phrasebook
