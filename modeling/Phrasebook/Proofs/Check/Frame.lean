import Phrasebook.Proofs.Check
import Phrasebook.Proofs.Extraction
import Phrasebook.Proofs.Project.Places
import Phrasebook.Proofs.Reconciliation.Settled

/-!
# Proofs/Check/Frame — which files a check changes

    no fix, or a broken source file, or a failure       nothing changes
    a fix, and every source file gives its keys         pt.json ──▸ settled
                                                        page.ts ──▸ as it was

A check goes over catalogs only (`sameBut_check`).  It compares unless a fix was asked for and every
source file gave its keys (`checkMode_eq_fix_iff`), and a comparison changes nothing
(`check_snd_eq`).  A fix settles every catalog (`settled_check`).  Together these say what a run
leaves behind (`runCheck_frame`).
-/

namespace Phrasebook.Project

variable {project after : Project} {options : CommandLine.CheckOptions} {config : Config}
  {result : CheckResult}

/-! ## Comparing or fixing -/

/-- The source files that a check with this configuration looks at. -/
def checkSources (project : Project) (config : Config) : List String :=
  (project.scanSources config.srcDir config.extensions config.ignores).files

/-- Whether a source file that a check with these options looks at gives no keys, since it cannot be
read or parsed. -/
def HasBrokenSource (project : Project) (options : CommandLine.CheckOptions) : Prop :=
  ∃ config, project.checkConfig options = .ok config
    ∧ ∃ path ∈ project.checkSources config, ∃ fault,
      project.extractFile config path = .error fault

/-- Whether a catalog that a check with these options looks at is at this place. -/
def IsCatalogPlace (project : Project) (options : CommandLine.CheckOptions)
    (place : List String) : Prop :=
  ∃ config, project.checkConfig options = .ok config
    ∧ ∃ file ∈ project.findCatalogs config.configDir, project.resolve file.path = .ok place

/-- **A check fixes if that is asked for and every source file gave its keys.** -/
theorem checkMode_eq_fix_iff {extraction : Extraction} :
    checkMode options extraction = .fix ↔ options.fix = true ∧ extraction.issues = [] := by
  rw [checkMode]
  cases options.fix <;> cases extraction.issues <;> simp

theorem issues_checkExtraction_eq_nil_iff (hconfig : project.checkConfig options = .ok config) :
    (project.checkExtraction config).issues = [] ↔ ¬ project.HasBrokenSource options := by
  have hbroken : project.HasBrokenSource options
      ↔ ∃ path ∈ project.checkSources config, ∃ fault,
        project.extractFile config path = .error fault := by
    rw [HasBrokenSource, hconfig]
    simp
  rw [checkExtraction, issues_extract, List.flatMap_eq_nil_iff, hbroken]
  simp only [sourceIssues_eq_nil_iff, not_exists, not_and]
  refine forall₂_congr fun path _ => ?_
  cases project.extractFile config path <;> simp

/-! ## What a check changes -/

/-- **A check goes over catalogs only.** -/
theorem sameBut_check (h : project.check options = .ok (result, after)) :
    SameBut (project.IsCatalogPlace options) project after := by
  obtain ⟨config, files, hconfig, hfiles, hreconciled, -⟩ := check_eq_ok h
  obtain ⟨rfl, -⟩ := catalogsOf_eq_ok hfiles
  rw [← (reconcileAll_eq hreconciled).1]
  exact (sameBut_reconcileEach _ _ _ _ _).mono
    fun place ⟨file, hfile, hplace⟩ => ⟨config, hconfig, file, hfile, hplace.1⟩

/-- **A check that is no fix, or that could not use every source file, changes nothing.** -/
theorem check_snd_eq (h : project.check options = .ok (result, after))
    (hkept : options.fix = false ∨ project.HasBrokenSource options) : after = project := by
  obtain ⟨config, files, hconfig, -, hreconciled, -⟩ := check_eq_ok h
  have hmode : checkMode options (project.checkExtraction config) = .report := by
    cases hmode : checkMode options (project.checkExtraction config) with
    | report => rfl
    | fix =>
      obtain ⟨hfix, hissues⟩ := checkMode_eq_fix_iff.1 hmode
      rcases hkept with hno | hbroken
      · cases hno.symm.trans hfix
      · exact absurd hbroken ((issues_checkExtraction_eq_nil_iff hconfig).1 hissues)
  rw [hmode] at hreconciled
  rw [← (reconcileAll_eq hreconciled).1, reconcileEach_report_snd]

/-- **A fix settles every catalog.** -/
theorem settled_check (hw : project.top.WellFormed)
    (h : project.check options = .ok (result, after)) (hfix : options.fix = true)
    (hsources : ¬ project.HasBrokenSource options) :
    ∃ config, project.checkConfig options = .ok config
      ∧ (result.catalogs.map CatalogReport.file).Perm (project.findCatalogs config.configDir)
      ∧ ∀ report ∈ result.catalogs,
        report.isDefault = (config.defaultLocale == some report.locale)
          ∧ ∃ place, Settled project after (project.checkExtraction config).usages report
              place := by
  obtain ⟨config, files, hconfig, hfiles, hreconciled, -⟩ := check_eq_ok h
  obtain ⟨rfl, -⟩ := catalogsOf_eq_ok hfiles
  have hmode : checkMode options (project.checkExtraction config) = .fix :=
    checkMode_eq_fix_iff.2 ⟨hfix, (issues_checkExtraction_eq_nil_iff hconfig).2 hsources⟩
  rw [hmode] at hreconciled
  obtain ⟨-, hplaces⟩ := findCatalogs_places hw config.configDir
  obtain ⟨hnames, hsettled⟩ := settled_reconcileEach (ownFiles_findCatalogs hw config.configDir)
    (fun file hfile => (hplaces file hfile).imp fun _ hplace => hplace.1)
    (project.checkExtraction config).usages config.defaultLocale
  obtain ⟨hafter, hreports⟩ := reconcileAll_eq hreconciled
  refine ⟨config, hconfig, ?_, fun report hreport => ?_⟩
  · exact ((reconcileAll_perm hreconciled).map _).trans (by rw [hnames])
  · rw [← hafter]
    exact hsettled report ((hreports report).1 hreport)

/-! ## The run -/

/-- A run of a check fails and leaves the project alone, or gives the result of the check. -/
theorem runCheck_cases (color : Bool) (options : CommandLine.CheckOptions) (project : Project) :
    (Program.runCheck color options project).status = .error
        ∧ (Program.runCheck color options project).project = project
      ∨ (Program.runCheck color options project).status ≠ .error
        ∧ ∃ result, project.check options
            = .ok (result, (Program.runCheck color options project).project) := by
  rw [Program.runCheck]
  cases project.check options with
  | error error => exact .inl ⟨rfl, rfl⟩
  | ok checked =>
    refine .inr ⟨?_, checked.1, rfl⟩
    dsimp only
    rw [ExitStatus.ofErrorCount]
    split <;> decide

/-- **The frame of a run.**  A run changes catalogs at most.  It changes nothing if no fix was asked
for, if a source file could not be read or parsed, or if it fails.  Otherwise every catalog has one
report, and is settled: kept if it holds no catalog or waits for translations, and else the fixed
catalog; it is reported as written if its text has changed.  The places are those of the project; a
path that leads out of it names none. -/
theorem runCheck_frame (color : Bool) (options : CommandLine.CheckOptions) (project : Project) :
    let run := Program.runCheck color options project
    SameBut (project.IsCatalogPlace options) project run.project
      ∧ (options.fix = false ∨ project.HasBrokenSource options ∨ run.status = .error →
        run.project = project)
      ∧ (project.top.WellFormed → options.fix = true → ¬ project.HasBrokenSource options →
        run.status ≠ .error →
          ∃ result config, project.check options = .ok (result, run.project)
            ∧ project.checkConfig options = .ok config
            ∧ (result.catalogs.map CatalogReport.file).Perm (project.findCatalogs config.configDir)
            ∧ ∀ report ∈ result.catalogs,
              report.isDefault = (config.defaultLocale == some report.locale)
                ∧ ∃ place, Settled project run.project (project.checkExtraction config).usages
                    report place) := by
  intro run
  rcases runCheck_cases color options project with ⟨hstatus, hsame⟩ | ⟨hstatus, result, hcheck⟩
  · refine ⟨?_, fun _ => hsame, fun _ _ _ hno => absurd hstatus hno⟩
    rw [show run.project = project from hsame]
    exact .refl _ project
  · refine ⟨sameBut_check hcheck, fun hkept => ?_, fun hw hfix hsources _ => ?_⟩
    · rcases hkept with hno | hbroken | herror
      · exact check_snd_eq hcheck (.inl hno)
      · exact check_snd_eq hcheck (.inr hbroken)
      · exact absurd herror hstatus
    · obtain ⟨config, hconfig, hsettled⟩ := settled_check hw hcheck hfix hsources
      exact ⟨result, config, hcheck, hconfig, hsettled⟩

theorem checkConfig_driftedProject :
    driftedProject.checkConfig { fix := true } = .ok {} := by
  decide +kernel

theorem wellFormed_driftedProject : driftedProject.top.WellFormed := by
  have hnames : Path.IsName "src" ∧ Path.IsName "page.ts" ∧ Path.IsName "locales"
      ∧ Path.IsName "pt.json" := by decide +kernel
  simp [driftedProject, Node.WellFormed, Node.AllWellFormed, hnames]

/-- A fix writes the one catalog and settles it; without the option nothing changes. -/
theorem runCheck_frame_driftedProject :
    let run := Program.runCheck false { fix := true } driftedProject
    (run.project.read "locales/pt.json").toOption
        ≠ (driftedProject.read "locales/pt.json").toOption
      ∧ (∃ result config, driftedProject.check { fix := true } = .ok (result, run.project)
        ∧ driftedProject.checkConfig { fix := true } = .ok config
        ∧ ∀ report ∈ result.catalogs, ∃ place, Settled driftedProject run.project
            (driftedProject.checkExtraction config).usages report place)
      ∧ (Program.runCheck false {} driftedProject).project = driftedProject := by
  intro run
  have hsources : ¬ driftedProject.HasBrokenSource { fix := true } := by
    rw [← issues_checkExtraction_eq_nil_iff checkConfig_driftedProject]
    decide +kernel
  obtain ⟨result, config, hcheck, hconfig, -, hsettled⟩ :=
    (runCheck_frame false { fix := true } driftedProject).2.2 wellFormed_driftedProject rfl
      hsources (by decide +kernel)
  exact ⟨by decide +kernel,
    ⟨result, config, hcheck, hconfig, fun report hreport => (hsettled report hreport).2⟩,
    (runCheck_frame false {} driftedProject).2.1 (.inl rfl)⟩

end Phrasebook.Project
