import Phrasebook.Proofs.Check
import Phrasebook.Proofs.Drift.Outcome

/-!
# Proofs/Reconciliation/Outcome — report mode and fix mode agree on what is clean

    text ──parse──▸ catalog ──diff──┬──▸ report mode: clean, or not
                                    └──▸ fix mode: an outcome, and a failure or not

Both modes read the same text and compare the same catalog, so both reports carry the same diff.
The outcome of the fix tells which diff it was (`tells_fix`): up to date stands for no drift, and a
fix that has nothing to wait for fails over entries of the wrong kind alone.  **A catalog is clean
exactly if a fix finds it up to date and does not fail** (`outcome_tells`).
-/

namespace Phrasebook

/-- A report without error and without outcome is about a clean catalog unless it is a failure. -/
theorem CatalogReport.isFailure_eq_false_of_outcome_none {report : CatalogReport}
    (herror : report.error = none) (ho : report.outcome = none) :
    report.isFailure = false ↔ report.diff.isClean = true := by
  simp [CatalogReport.isFailure, CatalogDiff.isClean, herror, ho, and_comm]

namespace Project

variable {project : Project} {file : CatalogFile} {usages : KeyUsages} {isDefault : Bool}
  {text : String} {catalog : Catalog}

/-- The report of a fix of a file that holds a catalog: it succeeds, whether it stops at the marker,
writes or finds nothing to write. -/
theorem exists_reconcileCatalog_fix (hread : project.read file.path = .ok text)
    (hparse : Catalog.parse text = .ok catalog) :
    ∃ written, (project.reconcileCatalog file usages isDefault .fix).1
      = fixReport file catalog usages isDefault written := by
  cases hm : (catalog.diff usages isDefault).1.onlyMarkerLeft with
  | true => exact ⟨false, congrArg Prod.fst (reconcileCatalog_of_onlyMarkerLeft hread hparse hm)⟩
  | false =>
    obtain ⟨written, after, heq, -⟩ := reconcileCatalog_fix hread hparse hm
    exact ⟨written, congrArg Prod.fst heq⟩

/-- **A fix that is up to date and no failure had a clean diff.** -/
theorem isClean_iff_fixReport (written : Bool) :
    (catalog.diff usages isDefault).1.isClean = true
      ↔ (fixReport file catalog usages isDefault written).outcome = some .upToDate
        ∧ (fixReport file catalog usages isDefault written).isFailure = false := by
  have hdrift := (Catalog.tells_fix catalog usages isDefault).upToDate_iff
  have houtcome : (fixReport file catalog usages isDefault written).outcome
      = some ((catalog.kept usages).fix (catalog.diff usages isDefault).1 usages).1 := rfl
  have hdiff : (fixReport file catalog usages isDefault written).diff
      = (catalog.diff usages isDefault).1 := rfl
  have herror : (fixReport file catalog usages isDefault written).error = none := rfl
  rw [CatalogReport.isFailure, houtcome, hdiff, herror, Option.some.injEq, hdrift,
    CatalogDiff.isClean, Bool.and_eq_true, Bool.not_eq_true', Bool.not_eq_true']
  refine and_congr_right fun hnone => ?_
  simp [hdrift.2 hnone]

/-- **The outcome of a fix tells the truth about the change.**  For any catalog it tells which diff
was applied, and that nothing but `""` changed where it says so; and for any catalog file that can
be read and parsed, report mode finds it clean exactly if fix mode finds it up to date and is no
failure. -/
theorem outcome_tells :
    (∀ (catalog : Catalog) (usages : KeyUsages) (isDefault : Bool),
      let diff := (catalog.diff usages isDefault).1
      let result := (catalog.diff usages isDefault).2.fix diff usages
      result.1.Tells diff catalog result.2)
    ∧ ∀ (project : Project) (file : CatalogFile) (usages : KeyUsages) (isDefault : Bool),
      let compared := (project.reconcileCatalog file usages isDefault .report).1
      let fixed := (project.reconcileCatalog file usages isDefault .fix).1
      compared.error = none →
        (compared.isFailure = false ↔ compared.diff.isClean = true)
        ∧ (compared.diff.isClean = true
          ↔ fixed.outcome = some .upToDate ∧ fixed.isFailure = false) := by
  refine ⟨Catalog.tells_fix, fun project file usages isDefault => ?_⟩
  intro compared fixed herror
  cases hload : project.loadCatalog file.path with
  | error error =>
    obtain ⟨report, hreport, hsome, -⟩ :=
      reconcileCatalog_of_loadCatalog_error hload usages isDefault .report
    have hcompared : compared = report := congrArg Prod.fst hreport
    rw [← hcompared, herror] at hsome
    cases hsome
  | ok catalog =>
    obtain ⟨text, hread, hparse⟩ := loadCatalog_eq_ok_iff.1 hload
    have hcompared := congrArg Prod.fst (reconcileCatalog_report hread hparse usages isDefault)
    have houtcome : compared.outcome = none := congrArg CatalogReport.outcome hcompared
    have hdiff : compared.diff = (catalog.diff usages isDefault).1 :=
      congrArg CatalogReport.diff hcompared
    obtain ⟨written, hfixed⟩ := exists_reconcileCatalog_fix hread hparse
    refine ⟨CatalogReport.isFailure_eq_false_of_outcome_none herror houtcome, ?_⟩
    rw [hdiff, show fixed = _ from hfixed]
    exact isClean_iff_fixReport written

/-- A project with one catalog, which lacks nothing but the sentinel. -/
def openCatalogProject : Project := ⟨.folder [("pt.json", .text "\x7b\"Hi\":\"Oi\"\x7d")]⟩

/-- The fix writes the sentinel, and still the catalog was clean. -/
theorem outcome_tells_openCatalogProject :
    let usages : KeyUsages := { scalar := .ofList ["Hi"], plural := .empty }
    let compared := (openCatalogProject.reconcileCatalog ⟨"pt", "pt.json"⟩ usages false .report).1
    let fixed := (openCatalogProject.reconcileCatalog ⟨"pt", "pt.json"⟩ usages false .fix).1
    compared.error = none ∧ compared.diff.isClean = true ∧ fixed.written = true
      ∧ fixed.outcome = some .upToDate ∧ fixed.isFailure = false := by
  intro usages compared fixed
  have herror : compared.error = none := by decide +kernel
  have hclean : compared.diff.isClean = true := by decide +kernel
  have htells := outcome_tells.2 openCatalogProject ⟨"pt", "pt.json"⟩ usages false herror
  exact ⟨herror, hclean, by decide +kernel, htells.2.1 hclean⟩

end Project

end Phrasebook
