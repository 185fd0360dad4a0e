import Phrasebook.Program
import Phrasebook.Proofs.Json.Readable
import Phrasebook.Proofs.Project.Scan
import Phrasebook.Proofs.Reconciliation
import Phrasebook.Proofs.Resolution

/-!
# Proofs/Check — a passing check means that no call site fails

    no issue ──▸ every report clean ──▸ every file holds answers ──▸ every locale has answers

A check that finds nothing wrong has read every catalog, and what it left in the files answers every
call site that was extracted: in report mode the catalog that was compared, in fix mode the fixed
one, which is read back from its text.  One file's fix leaves the answers of the others, the scan
after it finds the same files, and a registry holds what is in those files and nothing else.
-/

namespace Phrasebook

open Json

/-- Nothing is wrong with a catalog whose report has no issue. -/
theorem CatalogReport.issues_eq_nil_iff {report : CatalogReport} :
    report.issues = [] ↔ report.error = none
      ∧ (report.outcome = none → report.diff.hasDrift = false)
      ∧ report.diff.invalidPlural = [] ∧ report.diff.kindMismatch = []
      ∧ report.outcome ≠ some .hasMissingTranslations := by
  rw [CatalogReport.issues]
  cases report.error with
  | some error => simp
  | none => simp

/-- Every catalog of the registry answers every call site. -/
def Registry.Answers (registry : Registry) (usages : KeyUsages) : Prop :=
  ∀ locale catalog, Fields.get? locale registry.catalogs = some catalog → catalog.Answers usages

theorem Registry.Answers.insert {registry : Registry} {usages : KeyUsages} {catalog : Catalog}
    (h : registry.Answers usages) (hcatalog : catalog.Answers usages) (locale : String) :
    (registry.insert locale catalog).Answers usages := by
  intro other found hget
  have hput : Fields.get? other (Fields.put locale catalog registry.catalogs) = some found := hget
  rw [Fields.get?_put] at hput
  split at hput
  · cases hput
    exact hcatalog
  · exact h other found hput

namespace Project

variable {project : Project} {usages : KeyUsages} {isDefault : Bool} {mode : Mode}
  {file : CatalogFile} {files : List CatalogFile} {path text : String} {catalog : Catalog}

/-- The file holds a catalog that answers every call site. -/
def AnswersAt (project : Project) (path : String) (usages : KeyUsages) : Prop :=
  ∃ catalog, project.loadCatalog path = .ok catalog ∧ catalog.Answers usages

/-! ## One catalog file -/

/-- What is read back of a fixed catalog answers as the fixed catalog does. -/
theorem answers_of_parse_render_fixed (hu : Catalog.Unambiguous usages)
    (hparse : Catalog.parse text = .ok catalog) (hanswers : catalog.Answers usages)
    (hm : (catalog.diff usages isDefault).1.onlyMarkerLeft = false) :
    ∃ again, Catalog.parse (catalog.fixed usages isDefault).render = .ok again
      ∧ again.Answers usages := by
  have hback := parse_render_fixed_reread hparse usages isDefault
  exact ⟨_, hback, (hanswers.fixed hu hm).mapNumbers Number.reread⟩

/-- A report comparison leaves the project alone. -/
theorem reconcileCatalog_report (hread : project.read file.path = .ok text)
    (hparse : Catalog.parse text = .ok catalog) (usages : KeyUsages) (isDefault : Bool) :
    project.reconcileCatalog file usages isDefault .report
      = ({ locale := file.locale, path := file.path, isDefault,
           diff := (catalog.diff usages isDefault).1 }, project) := by
  rw [reconcileCatalog, hread]
  simp only [hparse]

/-- **A clean report means answers**: the file holds a catalog that answers, and no other file that
held one has lost it. -/
theorem answersAt_reconcileCatalog (hu : Catalog.Unambiguous usages)
    (h : (project.reconcileCatalog file usages isDefault mode).1.issues = []) :
    let after := (project.reconcileCatalog file usages isDefault mode).2
    after.top.shape = project.top.shape ∧ after.AnswersAt file.path usages
      ∧ ∀ path, project.AnswersAt path usages → after.AnswersAt path usages := by
  intro after
  obtain ⟨herror, -, hinvalid, hmismatch, hpending⟩ := CatalogReport.issues_eq_nil_iff.1 h
  cases hload : project.loadCatalog file.path with
  | error error =>
    obtain ⟨report, hreport, hsome, -⟩ :=
      reconcileCatalog_of_loadCatalog_error hload usages isDefault mode
    rw [hreport] at herror
    rw [herror] at hsome
    cases hsome
  | ok catalog =>
    obtain ⟨text, hread, hparse⟩ := loadCatalog_eq_ok_iff.1 hload
    cases mode with
    | report =>
      have heq := reconcileCatalog_report hread hparse usages isDefault
      have hafter : after = project := congrArg Prod.snd heq
      rw [heq] at hinvalid hmismatch
      rw [hafter]
      exact ⟨rfl, ⟨catalog, hload, Catalog.answers_of_diff hu hinvalid hmismatch⟩, fun _ => id⟩
    | fix =>
      have hm : (catalog.diff usages isDefault).1.onlyMarkerLeft = false := by
        cases hm : (catalog.diff usages isDefault).1.onlyMarkerLeft with
        | false => rfl
        | true =>
          rw [reconcileCatalog_of_onlyMarkerLeft hread hparse hm] at hpending
          exact absurd (congrArg some (Catalog.fix_fst_eq_hasMissingTranslations_iff.2 hm)) hpending
      obtain ⟨written, project', heq, -, -, hshape, hself, hothers⟩ :=
        reconcileCatalog_fix hread hparse hm
      have hafter : after = project' := congrArg Prod.snd heq
      rw [heq] at hinvalid hmismatch
      have hanswers : catalog.Answers usages := Catalog.answers_of_diff hu hinvalid hmismatch
      obtain ⟨again, hagain, hback⟩ := answers_of_parse_render_fixed hu hparse hanswers hm
      rw [hafter]
      refine ⟨hshape, ⟨again, loadCatalog_eq_ok_iff.2 ⟨_, hself, hagain⟩, hback⟩, ?_⟩
      rintro path ⟨other, hother, hotherAnswers⟩
      obtain ⟨content, hcontent, hotherParse⟩ := loadCatalog_eq_ok_iff.1 hother
      -- a second path of the same file now reads the fixed catalog, any other one what it read
      rcases hothers path content hcontent with hkept | hfixed
      · exact ⟨other, loadCatalog_eq_ok_iff.2 ⟨_, hkept, hotherParse⟩, hotherAnswers⟩
      · exact ⟨again, loadCatalog_eq_ok_iff.2 ⟨_, hfixed, hagain⟩, hback⟩

/-! ## All catalog files -/

/-- **Clean reports mean answers everywhere.** -/
theorem answersAt_reconcileEach (hu : Catalog.Unambiguous usages) {defaultLocale : Option String}
    (h : ∀ report ∈ (project.reconcileEach usages defaultLocale mode files).1,
      report.issues = []) :
    let after := (project.reconcileEach usages defaultLocale mode files).2
    after.top.shape = project.top.shape ∧ (∀ file ∈ files, after.AnswersAt file.path usages)
      ∧ ∀ path, project.AnswersAt path usages → after.AnswersAt path usages := by
  induction files generalizing project with
  | nil => exact ⟨rfl, fun _ hf => absurd hf List.not_mem_nil, fun _ => id⟩
  | cons file rest ih =>
    rw [reconcileEach] at h ⊢
    obtain ⟨hshape, hself, hothers⟩ := answersAt_reconcileCatalog hu (h _ List.mem_cons_self)
    obtain ⟨hshapes, hrest, hkept⟩ := ih fun report hr => h report (List.mem_cons_of_mem _ hr)
    refine ⟨hshapes.trans hshape, fun other hf => ?_,
      fun path hpath => hkept path (hothers path hpath)⟩
    rcases List.mem_cons.1 hf with rfl | hf
    · exact hkept _ hself
    · exact hrest other hf

/-- **A registry of files with answers has answers for every locale.** -/
theorem foldlM_insert_answers (h : ∀ file ∈ files, project.AnswersAt file.path usages)
    {registry : Registry} (hr : registry.Answers usages) :
    ∃ loaded : Registry, files.foldlM (fun (registry : Registry) (file : CatalogFile) => do
        let catalog ← project.loadCatalog file.path
        return registry.insert file.locale catalog) registry = .ok loaded
      ∧ loaded.Answers usages := by
  induction files generalizing registry with
  | nil => exact ⟨registry, rfl, hr⟩
  | cons file rest ih =>
    obtain ⟨catalog, hload, hcatalog⟩ := h file List.mem_cons_self
    obtain ⟨loaded, hloaded, hanswers⟩ :=
      ih (fun other hf => h other (List.mem_cons_of_mem _ hf)) (hr.insert hcatalog file.locale)
    refine ⟨loaded, ?_, hanswers⟩
    rw [List.foldlM_cons, hload]
    exact hloaded

theorem loadRegistry_answers {node : Node} (hfind : project.find path = .ok node)
    (h : ∀ file ∈ project.findCatalogs path, project.AnswersAt file.path usages) :
    ∃ registry, project.loadRegistry path = .ok registry ∧ registry.Answers usages := by
  have hempty : Registry.empty.Answers usages := fun _ _ hget => nomatch hget
  rw [loadRegistry, hfind]
  exact foldlM_insert_answers h hempty

/-- Sorting keeps the reports and what became of the project. -/
theorem reconcileAll_eq {reports : List CatalogReport} {after : Project}
    {defaultLocale : Option String}
    (h : project.reconcileAll files usages defaultLocale mode = (reports, after)) :
    (project.reconcileEach usages defaultLocale mode files).2 = after
      ∧ ∀ report, report ∈ reports
          ↔ report ∈ (project.reconcileEach usages defaultLocale mode files).1 := by
  rw [reconcileAll] at h
  obtain ⟨hreports, hafter⟩ := Prod.mk.inj h
  exact ⟨hafter, fun report => by rw [← hreports, List.mem_mergeSort]⟩

/-- A folder that was scanned for catalogs is there. -/
theorem catalogsOf_eq_ok (h : project.catalogsOf path = .ok files) :
    files = project.findCatalogs path ∧ ∃ node, project.find path = .ok node := by
  rw [catalogsOf] at h
  split at h
  · rename_i hfolder
    rw [isFolder] at hfolder
    split at hfolder
    · rename_i node hfind
      exact ⟨(Except.ok.inj h).symm, node, hfind⟩
    · cases hfolder
  · cases h

/-! ## The check -/

/-- What a check extracts with this configuration. -/
def checkExtraction (project : Project) (config : Config) : Extraction :=
  project.extract config (project.scanSources config.srcDir config.extensions config.ignores).files

/-- Whether a check that extracted this compares or patches. -/
def checkMode (options : CommandLine.CheckOptions) (extraction : Extraction) : Mode :=
  if options.fix && !(options.fix && !extraction.issues.isEmpty) then .fix else .report

/-- **What a check comes to**: the reports of one reconciliation, and the issues of the source, the
reports and the extraction. -/
theorem check_eq_ok {options : CommandLine.CheckOptions} {result : CheckResult} {after : Project}
    (h : project.check options = .ok (result, after)) :
    ∃ config files, project.checkConfig options = .ok config
      ∧ project.catalogsOf config.configDir = .ok files
      ∧ project.reconcileAll files (project.checkExtraction config).usages config.defaultLocale
          (checkMode options (project.checkExtraction config)) = (result.catalogs, after)
      ∧ result.issues
          = ambiguityIssues config (project.checkExtraction config).usages
            ++ result.catalogs.flatMap CatalogReport.issues
            ++ (project.checkExtraction config).issues := by
  rw [check] at h
  cases hconfig : project.checkConfig options with
  | error error =>
    rw [hconfig] at h
    cases h
  | ok config =>
    cases hfiles : project.catalogsOf config.configDir with
    | error fault =>
      rw [hconfig] at h
      simp only [hfiles, Except.mapError, bind, Except.bind] at h
      cases h
    | ok files =>
      rw [hconfig] at h
      simp only [hfiles, Except.mapError, bind, Except.bind] at h
      split at h
      · cases h
      · cases h
        exact ⟨config, files, rfl, hfiles, rfl, rfl⟩

/-- **A passing check means that no call site fails.**  The registry loads from the project that the
check leaves, and for each locale in it every template whose key was extracted has a text, whatever
its arguments and its count are.  Sources and catalogs are those of the project: a folder in the
configuration that leads out of it names nothing. -/
theorem runCheck_passing (color : Bool) (options : CommandLine.CheckOptions) (project : Project)
    (h : (Program.runCheck color options project).status.code = 0) :
    ∃ config registry, project.checkConfig options = .ok config
      ∧ (Program.runCheck color options project).project.loadRegistry config.configDir
          = .ok registry
      ∧ ∀ locale ∈ registry.locales, ∃ translator, registry.translator locale = .ok translator
        ∧ ∀ (template : Template) (arguments : List String) (count : Int),
          template.key ≠ Catalog.sentinelKey →
            ((project.checkExtraction config).usages.isScalar template.key = true →
              ∃ text, translator.tr template arguments = .ok text)
            ∧ ((project.checkExtraction config).usages.isPlural template.key = true →
              ∃ text, translator.trPlural template count arguments = .ok text) := by
  rw [Program.runCheck] at h ⊢
  cases hcheck : project.check options with
  | error error =>
    simp only [hcheck] at h
    cases h
  | ok checked =>
    obtain ⟨result, after⟩ := checked
    simp only [hcheck] at h ⊢
    have hissues : result.issues = [] := by
      cases hissues : result.issues with
      | nil => rfl
      | cons issue issues =>
        simp [hissues, ExitStatus.ofErrorCount, ExitStatus.code] at h
    obtain ⟨config, files, hconfig, hfiles, hreconciled, hall⟩ := check_eq_ok hcheck
    rw [hissues] at hall
    obtain ⟨hissuesOfUsages, -⟩ := List.append_eq_nil_iff.1 hall.symm
    obtain ⟨hambiguous, hclean⟩ := List.append_eq_nil_iff.1 hissuesOfUsages
    have hu := Catalog.unambiguous_of_ambiguousKeys (List.map_eq_nil_iff.1 hambiguous)
    obtain ⟨hafter, hreports⟩ := reconcileAll_eq hreconciled
    obtain ⟨hshape, hanswers, -⟩ := answersAt_reconcileEach hu fun report hr =>
      List.flatMap_eq_nil_iff.1 hclean report ((hreports report).2 hr)
    rw [hafter] at hshape hanswers
    obtain ⟨rfl, node, hfind⟩ := catalogsOf_eq_ok hfiles
    obtain ⟨node', hfind'⟩ := isOk_find_congr hshape.symm hfind
    rw [← findCatalogs_congr hshape] at hanswers
    obtain ⟨registry, hregistry, hserves⟩ := loadRegistry_answers hfind' hanswers
    refine ⟨config, registry, hconfig, hregistry, fun locale hlocale => ?_⟩
    obtain ⟨catalog, hget⟩ := Option.isSome_iff_exists.1 (Fields.isSome_get?_iff.2 hlocale)
    refine ⟨⟨locale, catalog⟩, ?_,
      fun template arguments count hkey => ⟨fun hs => ?_, fun hp => ?_⟩⟩
    · rw [Registry.translator, hget]
    · exact (hserves locale catalog hget).resolveScalar hkey hs arguments
    · exact (hserves locale catalog hget).resolvePlural hkey hp count arguments

/-- A project whose catalog has an unused key, lacks one and holds a double. -/
def driftedProject : Project :=
  ⟨.folder [
    ("src", .folder [("page.ts", .text "__`hi`; __p(n)`# days`")]),
    ("locales", .folder [
      ("pt.json",
        .text "\x7b\"# days\":\x7b\"+2\":\"# dias\",\"manyLimit\":2.5\x7d,\"old\":null\x7d")])]⟩

/-- A check that fixes the catalog of the one locale, and its call sites. -/
theorem runCheck_passing_driftedProject :
    ∃ registry, (Program.runCheck false { fix := true } driftedProject).project.loadRegistry
        "./locales" = .ok registry
      ∧ registry.locales = ["pt"]
      ∧ ∀ locale ∈ registry.locales, ∃ translator, registry.translator locale = .ok translator
        ∧ (∃ text, translator.tr (Template.ofSegments ["hi"]) [] = .ok text)
        ∧ ∃ text, translator.trPlural (Template.ofSegments ["# days"]) 2 [] = .ok text := by
  have hpassing : (Program.runCheck false { fix := true } driftedProject).status.code = 0 := by
    decide +kernel
  have hdefault : (driftedProject.checkConfig { fix := true }).toOption = some {} := by
    decide +kernel
  have hpt : ((Program.runCheck false { fix := true } driftedProject).project.loadRegistry
      "./locales").toOption.map Registry.locales = some ["pt"] := by decide +kernel
  obtain ⟨config, registry, hconfig, hregistry, hlocales⟩ := runCheck_passing _ _ _ hpassing
  rw [hconfig, Except.toOption, Option.some.injEq] at hdefault
  subst hdefault
  rw [hregistry, Except.toOption, Option.map_some, Option.some.injEq] at hpt
  refine ⟨registry, hregistry, hpt, fun locale hlocale => ?_⟩
  obtain ⟨translator, htranslator, hanswers⟩ := hlocales locale hlocale
  exact ⟨translator, htranslator,
    (hanswers (Template.ofSegments ["hi"]) [] 2 (by decide +kernel)).1 (by decide +kernel),
    (hanswers (Template.ofSegments ["# days"]) [] 2 (by decide +kernel)).2 (by decide +kernel)⟩

end Project

end Phrasebook
