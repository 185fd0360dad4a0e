import Phrasebook.Proofs.Check.Frame

/-!
# Proofs/Check/Verdict — the exit code, the issues and the closing line tell the same

    result.issues = []    exit code 0    …"✓ Checked 3 source files, 2 catalogs - no issues found"
    result.issues ≠ []    exit code 1    …"✘ 4 errors"

Whether a check passes is judged three times: a report tells whether it is a failure, the issues of
a report are listed, and the output is closed by one of two lines.  A report **has an issue exactly
if it is a failure** (`CatalogReport.issues_ne_nil_iff`), the output consists of what stands in
front of the closing line and that line (`Report.out_print`), and no text ends in both lines
(`Report.not_closed_by_both`).  So the exit code says whether keys, source files and reports are in
order, and the closing line says what the exit code is (`runCheck_verdict`).
-/

namespace Phrasebook

/-! ## Failures and issues -/

namespace CatalogReport

variable {report : CatalogReport}

theorem isFailure_eq_false_iff : report.isFailure = false ↔ report.issues = [] := by
  rw [issues_eq_nil_iff, isFailure, CatalogDiff.hasInvalidEntries]
  rcases report.outcome with - | outcome
  · simp [and_assoc, and_comm, and_left_comm]
  · simp [and_assoc]

/-- **A catalog has an issue exactly if its report is a failure.** -/
theorem issues_ne_nil_iff : report.issues ≠ [] ↔ report.isFailure = true := by
  rw [Ne, ← isFailure_eq_false_iff, Bool.not_eq_false]

end CatalogReport

/-! ## The closing line -/

/-- What stands behind the text of a styled line: the code that ends the style, and a line break. -/
def Style.lineEnd (color : Bool) : String := if color then "\x1b[0m\n" else "\n"

/-- A styled text at the end of a line goes to the very end of the line but for the codes. -/
theorem Style.exists_paint_lineEnd (color : Bool) (style : Style) (text : String) :
    ∃ start, style.paint color text ++ "\n" = start ++ text ++ Style.lineEnd color := by
  rcases color with - | -
  · exact ⟨"", by simp [paint, lineEnd]⟩
  · exact ⟨"\x1b[" ++ style.codes ++ "m", by simp [paint, lineEnd, String.append_assoc]⟩

namespace Report

variable {color : Bool} {result : CheckResult} {text : String}

/-- The line that counts the issues. -/
def countLine (color : Bool) (count : Nat) : String :=
  Style.red.paint color failureMark ++ " " ++ Decimal.ofNat count ++ " " ++
    Style.red.paint color (plural count "error" "errors") ++ "\n"

/-- What a check prints in front of the closing line: a line for each catalog that a fix looked at,
and the issues. -/
def front (color : Bool) (result : CheckResult) : String :=
  String.join (result.catalogs.map (statusLine color)) ++
    (if result.catalogs.any (·.outcome.isSome) then "\n" else "") ++
    String.join ((result.issues.mergeSort Issue.le).map (issueLines color))

/-- **The output is closed by one line**: the issues are counted, or there are none. -/
theorem out_print :
    (print color result).out
      = front color result
        ++ if result.issues = [] then successLine color result.sourceFiles result.catalogs.length
          else countLine color result.issues.length := by
  rw [print, front, issuesText]
  rcases result.issues with - | ⟨issue, issues⟩
  · simp
  · simp [countLine, String.append_assoc]

/-- Whether a text ends in a line. -/
def ClosedBy (text line : String) : Prop := line.toList <:+ text.toList

theorem closedBy_append (front line : String) : ClosedBy (front ++ line) line := by
  rw [ClosedBy, String.toList_append]
  exact List.suffix_append _ _

/-- A styled text that ends in a letter, at the end of a line. -/
theorem exists_toList_paint (color : Bool) (style : Style) (before text : String) (letter : Char) :
    ∃ start, (before ++ style.paint color (text ++ letter.toString) ++ "\n").toList
      = start ++ letter :: (Style.lineEnd color).toList := by
  obtain ⟨start, hstart⟩ := style.exists_paint_lineEnd color (text ++ letter.toString)
  refine ⟨before.toList ++ start.toList ++ text.toList, ?_⟩
  rw [String.append_assoc, hstart]
  simp [String.toList_append]

/-- The last letter of the line that says that nothing is wrong. -/
theorem exists_toList_successLine (color : Bool) (sourceFiles catalogs : Nat) :
    ∃ start, (successLine color sourceFiles catalogs).toList
      = start ++ 'd' :: (Style.lineEnd color).toList := by
  have hfound : " - no issues found" = " - no issues foun" ++ 'd'.toString := by decide
  rw [successLine, hfound, ← String.append_assoc]
  exact exists_toList_paint color .green _ _ 'd'

/-- The last letter of the line that counts the issues. -/
theorem exists_toList_countLine (color : Bool) (count : Nat) :
    ∃ start letter, (countLine color count).toList
        = start ++ letter :: (Style.lineEnd color).toList
      ∧ letter ≠ 'd' := by
  have herror : "error" = "erro" ++ 'r'.toString := by decide
  have herrors : "errors" = "error" ++ 's'.toString := by decide
  rw [countLine, plural]
  split
  · rw [herror]
    obtain ⟨start, hstart⟩ := exists_toList_paint color .red _ "erro" 'r'
    exact ⟨start, 'r', hstart, by decide⟩
  · rw [herrors]
    obtain ⟨start, hstart⟩ := exists_toList_paint color .red _ "error" 's'
    exact ⟨start, 's', hstart, by decide⟩

/-- **No text is closed by both lines.** -/
theorem not_closed_by_both {sourceFiles catalogs count : Nat}
    (hsuccess : ClosedBy text (successLine color sourceFiles catalogs)) :
    ¬ ClosedBy text (countLine color count) := by
  rintro ⟨more, hcount⟩
  obtain ⟨start, hstart⟩ := hsuccess
  obtain ⟨before, hbefore⟩ := exists_toList_successLine color sourceFiles catalogs
  obtain ⟨before', letter, hbefore', hletter⟩ := exists_toList_countLine color count
  rw [hbefore, ← List.append_assoc] at hstart
  rw [hbefore', ← List.append_assoc, ← hstart] at hcount
  have hend := List.append_inj_right' hcount rfl
  exact hletter (List.cons.inj hend).1

end Report

/-! ## The run -/

/-- A run that gives a result exits with 0 if it found nothing, and else with 1. -/
theorem ExitStatus.code_ofErrorCount (count : Nat) :
    (ofErrorCount count).code = if count = 0 then 0 else 1 := by
  rw [ofErrorCount]
  rcases count with - | count
  · rfl
  · simp [code]

theorem KeyUsages.ambiguousKeys_eq_nil_iff {usages : KeyUsages} :
    usages.ambiguousKeys.toList = []
      ↔ ∀ key, ¬ (usages.isScalar key = true ∧ usages.isPlural key = true) := by
  simp only [List.eq_nil_iff_forall_not_mem, mem_ambiguousKeys]

namespace Project

variable {project after : Project} {options : CommandLine.CheckOptions} {result : CheckResult}

/-- **When a check finds nothing wrong**: no key is used both ways, every source file gives its
keys, and no report is a failure. -/
theorem issues_check_eq_nil_iff (h : project.check options = .ok (result, after)) :
    ∃ config, project.checkConfig options = .ok config
      ∧ (result.issues = []
        ↔ (∀ key, ¬ ((project.checkExtraction config).usages.isScalar key = true
              ∧ (project.checkExtraction config).usages.isPlural key = true))
          ∧ ¬ project.HasBrokenSource options
          ∧ ∀ report ∈ result.catalogs, report.isFailure = false) := by
  obtain ⟨config, files, hconfig, -, -, hissues⟩ := check_eq_ok h
  refine ⟨config, hconfig, ?_⟩
  rw [hissues, List.append_eq_nil_iff, List.append_eq_nil_iff, ambiguityIssues, List.map_eq_nil_iff,
    KeyUsages.ambiguousKeys_eq_nil_iff, issues_checkExtraction_eq_nil_iff hconfig,
    List.flatMap_eq_nil_iff, and_assoc]
  simp only [CatalogReport.isFailure_eq_false_iff, and_comm]

/-- **How a check with a result ends**: with 0 and the line that says that nothing is wrong, or with
1 and the line that counts the issues. -/
theorem runCheck_closed (color : Bool) (h : project.check options = .ok (result, after)) :
    let run := Program.runCheck color options project
    let shown := color && !options.noColor
    (result.issues = [] ∧ run.status.code = 0
        ∧ run.printed.out = Report.front shown result
          ++ Report.successLine shown result.sourceFiles result.catalogs.length)
      ∨ (result.issues ≠ [] ∧ run.status.code = 1
        ∧ run.printed.out = Report.front shown result
          ++ Report.countLine shown result.issues.length) := by
  intro run shown
  have hrun : run = { status := .ofErrorCount result.issues.length
                      printed := Report.print shown result
                      project := after } := by
    simp only [run, Program.runCheck, h]
    rfl
  have hcode : run.status.code = if result.issues = [] then 0 else 1 := by
    simp only [hrun, ExitStatus.code_ofErrorCount, List.length_eq_zero_iff]
  have hout : run.printed.out = (Report.print shown result).out := by rw [hrun]
  rw [hcode, hout, Report.out_print]
  by_cases hnil : result.issues = []
  · exact .inl ⟨hnil, if_pos hnil, by rw [if_pos hnil]⟩
  · exact .inr ⟨hnil, if_neg hnil, by rw [if_neg hnil]⟩

/-- **The exit code, the issues and the closing line of a check agree.**  A check with a result
exits with 0 if no key is used both ways, every source file gives its keys and no report is a
failure, and else with 1; a report, be it of this check or not, has an issue exactly if it is a
failure; and the line that closes the output says that there are no issues if the exit code is 0,
and counts them if it is 1.  Source files and catalogs are those of the project: a source folder
that leads out of it has none, and a catalog folder that does so is missing. -/
theorem runCheck_verdict (color : Bool) (h : project.check options = .ok (result, after)) :
    let run := Program.runCheck color options project
    let shown := color && !options.noColor
    let success := Report.successLine shown result.sourceFiles result.catalogs.length
    let count := Report.countLine shown result.issues.length
    (∃ config, project.checkConfig options = .ok config
        ∧ (run.status.code = 0
          ↔ (∀ key, ¬ ((project.checkExtraction config).usages.isScalar key = true
                ∧ (project.checkExtraction config).usages.isPlural key = true))
            ∧ ¬ project.HasBrokenSource options
            ∧ ∀ report ∈ result.catalogs, report.isFailure = false))
      ∧ (run.status.code ≠ 0 → run.status.code = 1)
      ∧ (∀ report : CatalogReport, report.issues ≠ [] ↔ report.isFailure = true)
      ∧ run.printed.out
          = Report.front shown result ++ (if run.status.code = 0 then success else count)
      ∧ (Report.ClosedBy run.printed.out success ↔ run.status.code = 0)
      ∧ (Report.ClosedBy run.printed.out count ↔ run.status.code = 1) := by
  intro run shown success count
  obtain ⟨config, hconfig, hissues⟩ := issues_check_eq_nil_iff h
  rcases runCheck_closed color h with ⟨hnil, hcode, hout⟩ | ⟨hsome, hcode, hout⟩
  · have hclosed : Report.ClosedBy run.printed.out success := by
      rw [show run.printed.out = _ from hout]
      exact Report.closedBy_append _ _
    refine ⟨⟨config, hconfig, iff_of_true hcode (hissues.1 hnil)⟩, fun hne => absurd hcode hne,
      fun report => CatalogReport.issues_ne_nil_iff, hout.trans (by rw [if_pos hcode]),
      iff_of_true hclosed hcode, ?_⟩
    exact iff_of_false (Report.not_closed_by_both hclosed) fun h1 => absurd (hcode.symm.trans h1)
      (by decide)
  · have hclosed : Report.ClosedBy run.printed.out count := by
      rw [show run.printed.out = _ from hout]
      exact Report.closedBy_append _ _
    have hne : run.status.code ≠ 0 := fun h0 => absurd (hcode.symm.trans h0) (by decide)
    refine ⟨⟨config, hconfig, iff_of_false hne fun hclean => hsome (hissues.2 hclean)⟩,
      fun _ => hcode, fun report => CatalogReport.issues_ne_nil_iff,
      hout.trans (by rw [if_neg hne]), ?_, iff_of_true hclosed hcode⟩
    exact iff_of_false (fun hsuccess => Report.not_closed_by_both hsuccess hclosed) hne

/-- A check that finds a drifted catalog, and one that fixes it. -/
theorem runCheck_verdict_driftedProject :
    (∃ result after, driftedProject.check {} = .ok (result, after)
        ∧ (Program.runCheck false {} driftedProject).status.code = 1
        ∧ (∃ report ∈ result.catalogs, report.isFailure = true)
        ∧ Report.ClosedBy (Program.runCheck false {} driftedProject).printed.out "✘ 1 error\n")
      ∧ ∃ result after, driftedProject.check { fix := true } = .ok (result, after)
        ∧ (Program.runCheck false { fix := true } driftedProject).status.code = 0
        ∧ (∀ report ∈ result.catalogs, report.isFailure = false)
        ∧ Report.ClosedBy (Program.runCheck false { fix := true } driftedProject).printed.out
          "✓ Checked 1 source file, 1 catalog - no issues found\n" := by
  have hfound : (driftedProject.check {}).toOption.map (fun checked =>
      (checked.1.issues.length, checked.1.catalogs.any CatalogReport.isFailure))
        = some (1, true) := by decide +kernel
  have hfixed : (driftedProject.check { fix := true }).toOption.map (fun checked =>
      (checked.1.sourceFiles, checked.1.catalogs.length)) = some (1, 1) := by decide +kernel
  refine ⟨?_, ?_⟩
  · rcases hcheck : driftedProject.check {} with error | ⟨result, after⟩
    · simp [hcheck, Except.toOption] at hfound
    · obtain ⟨hlength, hfailure⟩ : result.issues.length = 1
          ∧ result.catalogs.any CatalogReport.isFailure = true := by
        simpa [hcheck, Except.toOption] using hfound
      have hcode : (Program.runCheck false {} driftedProject).status.code = 1 := by decide +kernel
      have hclosed := (runCheck_verdict false hcheck).2.2.2.2.2.2 hcode
      rw [hlength] at hclosed
      exact ⟨result, after, rfl, hcode, List.any_eq_true.1 hfailure, hclosed⟩
  · rcases hcheck : driftedProject.check { fix := true } with error | ⟨result, after⟩
    · simp [hcheck, Except.toOption] at hfixed
    · obtain ⟨hsources, hcatalogs⟩ : result.sourceFiles = 1 ∧ result.catalogs.length = 1 := by
        simpa [hcheck, Except.toOption] using hfixed
      have hcode : (Program.runCheck false { fix := true } driftedProject).status.code = 0 := by
        decide +kernel
      obtain ⟨⟨config, -, hpasses⟩, -, -, -, hsuccess, -⟩ := runCheck_verdict false hcheck
      have hclosed := hsuccess.2 hcode
      rw [hsources, hcatalogs] at hclosed
      exact ⟨result, after, rfl, hcode, (hpasses.1 hcode).2.2, hclosed⟩

end Project

end Phrasebook
