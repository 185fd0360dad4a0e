import Phrasebook.Issue

/-!
# Report — what a check prints

The report goes to the output: a line for each catalog that a fix looked at, the issues, and a
last line that counts them or says that there are none.  Warnings go to the error output.  Colors
are codes around a text; without colors the text stands alone.
-/

namespace Phrasebook

/-- The codes of a text's color and weight. -/
inductive Style where
  | red
  | green
  | blue
  | cyan
  | bold
  | dimmed
  | boldRed
  | boldYellow
  | boldCyan
  | dimmedCyan

/-- The codes of a style. -/
def Style.codes : Style → String
  | red => "31"
  | green => "32"
  | blue => "34"
  | cyan => "36"
  | bold => "1"
  | dimmed => "2"
  | boldRed => "1;31"
  | boldYellow => "1;33"
  | boldCyan => "1;36"
  | dimmedCyan => "2;36"

/-- A text in a style, if colors are on. -/
def Style.paint (color : Bool) (style : Style) (text : String) : String :=
  if color then "\x1b[" ++ style.codes ++ "m" ++ text ++ "\x1b[0m" else text

/-- What goes to the output and to the error output. -/
structure Printed where
  out : String := ""
  err : String := ""
  deriving DecidableEq

/-- The result of a check. -/
structure CheckResult where
  /-- One report for each catalog. -/
  catalogs : List CatalogReport
  /-- How many source files were looked at. -/
  sourceFiles : Nat
  /-- How many paths could not be read. -/
  skipped : Nat
  /-- Whether a fix was asked for and not made, since a source file could not be parsed. -/
  fixSkipped : Bool
  issues : List Issue

namespace Report

/-- The sign of success. -/
def successMark : String := "✓"

/-- The sign of failure. -/
def failureMark : String := "✘"

/-- A word for one, or for several. -/
def plural (count : Nat) (one several : String) : String := if count = 1 then one else several

/-- The line of a catalog that a fix looked at. -/
def statusLine (color : Bool) (report : CatalogReport) : String :=
  let line (mark : String) (markStyle style : Style) (outcome : FixOutcome) : String :=
    markStyle.paint color mark ++ " " ++ report.fileName ++ ": " ++
      style.paint color outcome.message ++ "\n"
  match report.outcome, report.error with
  | some .hasMissingTranslations, none =>
    line failureMark .red .red .hasMissingTranslations
  | some .upToDate, none => line successMark .green .dimmed .upToDate
  | some outcome, none => line successMark .green .green outcome
  | _, _ => ""

/-- The lines of one issue. -/
def issueLines (color : Bool) (issue : Issue) : String :=
  let extra (label : String) (style : Style) : Option String → String
    | some text =>
      "   " ++ Style.blue.paint color "=" ++ " " ++ style.paint color label ++ " " ++ text ++ "\n"
    | none => ""
  Style.boldRed.paint color "error" ++ ": " ++ issue.message ++ "  " ++
    Style.dimmedCyan.paint color issue.rule.name ++ "\n" ++
    "  " ++ Style.blue.paint color "-->" ++ " " ++ issue.path ++ "\n" ++
    extra "note:" .bold issue.details ++ extra "hint:" .boldCyan issue.hint ++ "\n"

/-- The issues in order, and the line that counts them. -/
def issuesText (color : Bool) (issues : List Issue) : String :=
  if issues.isEmpty then ""
  else
    String.join ((issues.mergeSort Issue.le).map (issueLines color)) ++
      Style.red.paint color failureMark ++ " " ++ Decimal.ofNat issues.length ++ " " ++
      Style.red.paint color (plural issues.length "error" "errors") ++ "\n"

/-- The line that says that nothing is wrong. -/
def successLine (color : Bool) (sourceFiles catalogs : Nat) : String :=
  Style.green.paint color successMark ++ " " ++
    Style.green.paint color ("Checked " ++ Decimal.ofNat sourceFiles ++ " source " ++
      plural sourceFiles "file" "files" ++ ", " ++ Decimal.ofNat catalogs ++ " " ++
      plural catalogs "catalog" "catalogs" ++ " - no issues found") ++ "\n"

/-- The warnings of a check. -/
def warnings (color : Bool) (result : CheckResult) : String :=
  let label := Style.boldYellow.paint color "warning:"
  (if result.skipped > 0 then
    label ++ " " ++ Decimal.ofNat result.skipped ++
      " path(s) skipped due to access errors (use " ++ Style.cyan.paint color "-v" ++
      " for details)\n"
  else "") ++
  (if result.catalogs.isEmpty then label ++ " no catalog files found\n" else "") ++
  (if result.fixSkipped then
    label ++ " catalogs were not fixed because some source files failed to parse\n"
  else "")

/-- What a check prints. -/
def print (color : Bool) (result : CheckResult) : Printed where
  out :=
    String.join (result.catalogs.map (statusLine color)) ++
      (if result.catalogs.any (·.outcome.isSome) then "\n" else "") ++
      issuesText color result.issues ++
      (if result.issues.isEmpty then
        successLine color result.sourceFiles result.catalogs.length
      else "")
  err := warnings color result

end Report

end Phrasebook
