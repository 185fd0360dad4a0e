import Phrasebook.Reconciliation

/-!
# Issue — what a check finds wrong

Every issue names the file or folder it belongs to and carries what a report shows of it.  Issues
are ordered by path, then by rule, then by message.
-/

namespace Phrasebook

/-- The rules that a check applies, in the order of a report. -/
inductive Rule where
  | catalogDrift
  | invalidPlural
  | kindMismatch
  | pendingTranslations
  | ambiguousKey
  | parseError
  deriving DecidableEq

namespace Rule

/-- The name of a rule. -/
def name : Rule → String
  | catalogDrift => "catalog-drift"
  | invalidPlural => "invalid-plural"
  | kindMismatch => "kind-mismatch"
  | pendingTranslations => "pending-translations"
  | ambiguousKey => "ambiguous-key"
  | parseError => "parse-error"

/-- The place of a rule in a report. -/
def rank : Rule → Nat
  | catalogDrift => 0
  | invalidPlural => 1
  | kindMismatch => 2
  | pendingTranslations => 3
  | ambiguousKey => 4
  | parseError => 5

end Rule

/-- What a check finds wrong. -/
inductive Issue where
  /-- The keys of a catalog are not those that source code uses. -/
  | catalogDrift (path locale : String) (missing extra : List String)
  /-- A plural key has no rule set. -/
  | invalidPlural (path locale key : String)
  /-- A scalar key has a rule set or no translation. -/
  | kindMismatch (path locale key : String)
  /-- A catalog still waits for translations. -/
  | pendingTranslations (path locale : String)
  /-- A key is used as scalar and as plural. -/
  | ambiguousKey (srcDir key : String)
  /-- A source file could not be read or parsed. -/
  | brokenSource (path error : String)
  /-- A catalog could not be read, parsed or written. -/
  | brokenCatalog (path error : String)
  deriving DecidableEq

namespace Issue

/-- How many keys a note lists. -/
def listedKeys : Nat := 5

/-- The first keys in quotes, and how many more there are. -/
def listKeys (keys : List String) : String :=
  let shown := String.intercalate ", " ((keys.take listedKeys).map fun key => "\"" ++ key ++ "\"")
  let more := keys.length - listedKeys
  if more = 0 then shown else shown ++ " (and " ++ Decimal.ofNat more ++ " more)"

/-- The rule that an issue breaks. -/
def rule : Issue → Rule
  | catalogDrift .. => .catalogDrift
  | invalidPlural .. => .invalidPlural
  | kindMismatch .. => .kindMismatch
  | pendingTranslations .. => .pendingTranslations
  | ambiguousKey .. => .ambiguousKey
  | brokenSource .. => .parseError
  | brokenCatalog .. => .parseError

/-- The file or folder that an issue belongs to. -/
def path : Issue → String
  | catalogDrift path .. => path
  | invalidPlural path .. => path
  | kindMismatch path .. => path
  | pendingTranslations path _ => path
  | ambiguousKey srcDir _ => srcDir
  | brokenSource path _ => path
  | brokenCatalog path _ => path

/-- What is wrong, in one line. -/
def message : Issue → String
  | catalogDrift _ locale missing extra =>
    let part (name : String) (keys : List String) : List String :=
      if keys.isEmpty then [] else [name ++ " " ++ Decimal.ofNat keys.length]
    locale ++ " invalid translations: " ++
      String.intercalate ", " (part "missing" missing ++ part "extra" extra)
  | invalidPlural _ locale key => locale ++ " invalid plural translation: \"" ++ key ++ "\""
  | kindMismatch _ locale key => locale ++ " invalid scalar translation: \"" ++ key ++ "\""
  | pendingTranslations _ locale => locale ++ " has missing translations"
  | ambiguousKey _ key => "\"" ++ key ++ "\" is used both as scalar and plural"
  | brokenSource _ error => error
  | brokenCatalog _ error => error

/-- How to mend it. -/
def hint : Issue → Option String
  | catalogDrift .. => some "run with --fix to update the catalog"
  | invalidPlural .. =>
    some "plural keys need an object with \"zero\", \"one\", \"+2\", \"many\" and \"manyLimit\""
  | kindMismatch .. => some "scalar keys need a string or null"
  | pendingTranslations .. => none
  | ambiguousKey .. => some "add a \"~~\" variant suffix to one of the templates"
  | brokenSource .. => none
  | brokenCatalog .. => none

/-- What else is known. -/
def details : Issue → Option String
  | catalogDrift _ _ missing extra =>
    let part (name : String) (keys : List String) : List String :=
      if keys.isEmpty then [] else [name ++ ": " ++ listKeys keys]
    some (String.intercalate "; " (part "missing" missing ++ part "extra" extra))
  | pendingTranslations .. =>
    some ("translate the new entries, then delete the \"" ++ Catalog.markerKey ++ "\" line")
  | brokenSource .. =>
    some "keys used in this file are not known; catalogs may be reported as drifted"
  | _ => none

/-- Whether an issue stands before another one in a report or with it. -/
def le (a b : Issue) : Bool :=
  a.path < b.path ||
    (a.path == b.path &&
      (a.rule.rank < b.rule.rank || (a.rule.rank == b.rule.rank && a.message ≤ b.message)))

end Issue

/-- The issues of one catalog.  Drift counts only if no fix was made; a file that could not be read,
parsed or written has no other issue. -/
def CatalogReport.issues (report : CatalogReport) : List Issue :=
  match report.error with
  | some error => [.brokenCatalog report.path error]
  | none =>
    let diff := report.diff
    let drift :=
      if report.outcome.isNone ∧ diff.hasDrift then
        [Issue.catalogDrift report.path report.locale diff.missing diff.extra]
      else []
    let pending :=
      if report.outcome = some .hasMissingTranslations then
        [Issue.pendingTranslations report.path report.locale]
      else []
    drift ++ diff.invalidPlural.map (.invalidPlural report.path report.locale) ++
      diff.kindMismatch.map (.kindMismatch report.path report.locale) ++ pending

end Phrasebook
