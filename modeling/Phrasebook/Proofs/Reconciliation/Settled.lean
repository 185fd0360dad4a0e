import Phrasebook.Proofs.Reconciliation.Frame

/-!
# Proofs/Reconciliation/Settled — what a fix leaves of each catalog

    a.json  { "hi": … }       ──fix──▸  the fixed catalog, rendered
    b.json  { "👇": …, … }    ──fix──▸  as it was: it waits for translations
    c.json  no catalog        ──fix──▸  as it was, and reported

A fix **settles** a catalog (`Settled`): it keeps what is no catalog and what waits for
translations, puts the fixed catalog in the place of any other, and reports as written what has
changed.  It does so for one file (`settled_reconcileCatalog`) and for all files, if no two paths
lead to the same one (`settled_reconcileEach`).
-/

namespace Phrasebook

/-- The catalog file of a report. -/
def CatalogReport.file (report : CatalogReport) : Project.CatalogFile :=
  ⟨report.locale, report.path⟩

namespace Project

variable {project before after later : Project} {file : CatalogFile} {files : List CatalogFile}
  {usages : KeyUsages} {isDefault : Bool} {mode : Mode} {defaultLocale : Option String}
  {place : List String} {report : CatalogReport}

/-! ## One catalog -/

/-- A report names its file, and tells whether it is the catalog of the default locale. -/
theorem reconcileCatalog_file (project : Project) (file : CatalogFile) (usages : KeyUsages)
    (isDefault : Bool) (mode : Mode) :
    (project.reconcileCatalog file usages isDefault mode).1.file = file
      ∧ (project.reconcileCatalog file usages isDefault mode).1.isDefault = isDefault := by
  rw [reconcileCatalog]
  cases project.read file.path with
  | error fault => exact ⟨rfl, rfl⟩
  | ok text =>
    dsimp only
    cases Catalog.parse text with
    | error error => exact ⟨rfl, rfl⟩
    | ok catalog =>
      cases mode with
      | report => exact ⟨rfl, rfl⟩
      | fix =>
        dsimp only
        split
        · exact ⟨rfl, rfl⟩
        · split <;> exact ⟨rfl, rfl⟩

/-- **A comparison leaves the project alone.** -/
theorem reconcileCatalog_report_snd (project : Project) (file : CatalogFile) (usages : KeyUsages)
    (isDefault : Bool) : (project.reconcileCatalog file usages isDefault .report).2 = project := by
  rcases reconcileCatalog_cases project file usages isDefault .report with h | ⟨hmode, -⟩
  · exact h
  · cases hmode

/-- What a fix with this report leaves at the place of a catalog. -/
structure Settled (before after : Project) (usages : KeyUsages) (report : CatalogReport)
    (place : List String) : Prop where
  /-- The catalog is at this place. -/
  resolves : before.resolve report.path = .ok place
  /-- A file that holds no catalog is kept. -/
  unreadable : ∀ error, before.loadCatalog report.path = .error error →
    report.error.isSome ∧ after.fileAt place = before.fileAt place
  /-- The report is about the catalog in the file. -/
  reported : ∀ catalog, before.loadCatalog report.path = .ok catalog →
    report = fixReport report.file catalog usages report.isDefault report.written
  /-- A catalog that waits for translations is kept. -/
  pending : report.outcome = some .hasMissingTranslations →
    after.fileAt place = before.fileAt place
  /-- Any other catalog is the fixed one. -/
  fixed : ∀ catalog, before.loadCatalog report.path = .ok catalog →
    report.outcome ≠ some .hasMissingTranslations →
    after.fileAt place = some (.text (catalog.fixed usages report.isDefault).render)
  /-- What was written is what has changed. -/
  written_iff : report.written = true ↔ after.fileAt place ≠ before.fileAt place

/-- Only what stands at the place matters. -/
theorem Settled.congr (h : Settled before after usages report place)
    (hplace : later.fileAt place = after.fileAt place) :
    Settled before later usages report place where
  resolves := h.resolves
  unreadable := by simpa only [hplace] using h.unreadable
  reported := h.reported
  pending := by simpa only [hplace] using h.pending
  fixed := by simpa only [hplace] using h.fixed
  written_iff := by simpa only [hplace] using h.written_iff

/-- A catalog that waits for translations is settled as it is. -/
theorem settled_of_onlyMarkerLeft {text : String} {catalog : Catalog}
    (hread : project.read file.path = .ok text) (hparse : Catalog.parse text = .ok catalog)
    (hplace : project.resolve file.path = .ok place)
    (hm : (catalog.diff usages isDefault).1.onlyMarkerLeft = true) :
    Settled project project usages (fixReport file catalog usages isDefault false) place := by
  have hload := loadCatalog_eq_ok_iff.2 ⟨text, hread, hparse⟩
  have hpending : (fixReport file catalog usages isDefault false).outcome
      = some .hasMissingTranslations :=
    congrArg some (Catalog.fix_fst_eq_hasMissingTranslations_iff.2 hm)
  exact {
    resolves := hplace
    unreadable := fun error he => nomatch hload.symm.trans he
    reported := fun other hother => by
      cases hload.symm.trans hother
      rfl
    pending := fun _ => rfl
    fixed := fun other _ ho => absurd hpending ho
    written_iff := by simp [fixReport] }

/-- **A fix settles the catalog of its file.** -/
theorem settled_reconcileCatalog (hplace : project.resolve file.path = .ok place)
    (usages : KeyUsages) (isDefault : Bool) :
    Settled project (project.reconcileCatalog file usages isDefault .fix).2 usages
      (project.reconcileCatalog file usages isDefault .fix).1 place := by
  cases hload : project.loadCatalog file.path with
  | error error =>
    obtain ⟨report, heq, herror, hwritten⟩ :=
      reconcileCatalog_of_loadCatalog_error hload usages isDefault .fix
    have hfile := (reconcileCatalog_file project file usages isDefault .fix).1
    rw [heq] at hfile ⊢
    obtain rfl : report.file = file := hfile
    exact {
      resolves := hplace
      unreadable := fun _ _ => ⟨herror, rfl⟩
      reported := fun catalog hc => nomatch hload.symm.trans hc
      pending := fun _ => rfl
      fixed := fun catalog hc => nomatch hload.symm.trans hc
      written_iff := by simp [hwritten] }
  | ok catalog =>
    obtain ⟨text, hread, hparse⟩ := loadCatalog_eq_ok_iff.1 hload
    cases hm : (catalog.diff usages isDefault).1.onlyMarkerLeft with
    | true =>
      rw [reconcileCatalog_of_onlyMarkerLeft hread hparse hm]
      exact settled_of_onlyMarkerLeft hread hparse hplace hm
    | false =>
      obtain ⟨written, after, heq, hwritten, -, hshape, hafter, -⟩ :=
        reconcileCatalog_fix hread hparse hm
      have hbeforeAt := fileAt_of_read hread hplace
      have hafterAt := fileAt_of_read hafter ((resolve_congr hshape).trans hplace)
      have houtcome : (fixReport file catalog usages isDefault written).outcome
          ≠ some .hasMissingTranslations := by
        rw [fixReport, Ne, Option.some.injEq, Catalog.fix_fst_eq_hasMissingTranslations_iff, hm]
        decide
      rw [heq]
      exact {
        resolves := hplace
        unreadable := fun error he => nomatch hload.symm.trans he
        reported := fun other hother => by
          cases hload.symm.trans hother
          rfl
        pending := fun ho => absurd ho houtcome
        fixed := fun other hother _ => by
          cases hload.symm.trans hother
          exact hafterAt
        written_iff := by
          rw [hafterAt, hbeforeAt, Ne, Option.some.injEq, Node.text.injEq, ← hwritten]
          exact (Bool.not_eq_false _).symm.to_iff }

/-! ## All catalogs -/

/-- **Comparisons leave the project alone.** -/
theorem reconcileEach_report_snd (project : Project) (usages : KeyUsages)
    (defaultLocale : Option String) (files : List CatalogFile) :
    (project.reconcileEach usages defaultLocale .report files).2 = project := by
  induction files generalizing project with
  | nil => rfl
  | cons file rest ih =>
    rw [reconcileEach]
    exact (ih _).trans (reconcileCatalog_report_snd project file usages _)

/-- **Fixing settles every catalog**, if no two paths lead to the same file. -/
theorem settled_reconcileEach (hd : project.OwnFiles files)
    (hfiles : ∀ file ∈ files, ∃ place, project.resolve file.path = .ok place)
    (usages : KeyUsages) (defaultLocale : Option String) :
    (project.reconcileEach usages defaultLocale .fix files).1.map CatalogReport.file = files
      ∧ ∀ report ∈ (project.reconcileEach usages defaultLocale .fix files).1,
        report.isDefault = (defaultLocale == some report.locale)
          ∧ ∃ place, Settled project (project.reconcileEach usages defaultLocale .fix files).2
              usages report place := by
  obtain ⟨hreports, hafter⟩ := reconcileEach_alone usages defaultLocale .fix hd
  have hfile : ∀ file, (project.reconcileAlone usages defaultLocale .fix file).1.file = file :=
    fun file => (reconcileCatalog_file project file usages _ .fix).1
  rw [hreports]
  refine ⟨?_, fun report hreport => ?_⟩
  · rw [List.map_map]
    exact (List.map_congr_left fun file _ => hfile file).trans (List.map_id _)
  · obtain ⟨file, hmem, rfl⟩ := List.mem_map.1 hreport
    obtain ⟨place, hplace⟩ := hfiles file hmem
    refine ⟨?_, place, (settled_reconcileCatalog hplace usages _).congr
      (hafter file hmem place hplace)⟩
    rw [show (project.reconcileAlone usages defaultLocale .fix file).1.locale = file.locale from
      congrArg CatalogFile.locale (hfile file)]
    exact (reconcileCatalog_file project file usages _ .fix).2

/-- Sorting keeps the reports. -/
theorem reconcileAll_perm {reports : List CatalogReport}
    (h : project.reconcileAll files usages defaultLocale mode = (reports, after)) :
    reports.Perm (project.reconcileEach usages defaultLocale mode files).1 := by
  rw [reconcileAll] at h
  exact (Prod.mk.inj h).1 ▸ List.mergeSort_perm _ _

end Project

end Phrasebook
