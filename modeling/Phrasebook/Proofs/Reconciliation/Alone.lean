import Phrasebook.Proofs.Reconciliation.Settled

/-!
# Proofs/Reconciliation/Alone — reconciling all files is reconciling each

    files ──each alone──▸ reports ──sort──▸ one list, whatever the order of the files

Catalog files of their own get the reports and the texts that each would get alone.  `EachAlone`
says so of the project that is left, and determines its files (`EachAlone.sameFiles`).  A report
names its file, so reports with the same sort key are the same report and **the sorted list does not
depend on the order** (`mergeSort_reportsAlone`).
-/

namespace Phrasebook

namespace CatalogReport

variable {a b : CatalogReport}

/-! ## The order of reports -/

/-- The locale of a report, and then the text of its path. -/
def key (report : CatalogReport) : String ×ₗ String := toLex (report.locale, report.path)

theorem le_iff (a b : CatalogReport) : a.le b = true ↔ a.key ≤ b.key := by
  simp [le, key, Prod.Lex.toLex_le_toLex]

/-- **Reports of one key are about the same file.** -/
theorem file_eq_of_key_eq (h : a.key = b.key) : a.file = b.file := by
  obtain ⟨hlocale, hpath⟩ := Prod.mk.inj (toLex.injective h)
  rw [file, file, hlocale, hpath]

theorem pairwise_mergeSort (reports : List CatalogReport) :
    (reports.mergeSort le).Pairwise fun a b => a.le b = true :=
  (pairwise_mergeSort_key le_iff reports).imp fun h => (le_iff _ _).2 h

/-- **Sorting forgets the order**, if there is one report for each file. -/
theorem mergeSort_congr {reports others : List CatalogReport} (h : reports.Perm others)
    (hfile : ∀ a ∈ others, ∀ b ∈ others, a.file = b.file → a = b) :
    reports.mergeSort le = others.mergeSort le :=
  mergeSort_key_congr le_iff h fun a ha b hb hkey => hfile a ha b hb (file_eq_of_key_eq hkey)

end CatalogReport

namespace Project

variable {project before after last : Project} {usages : KeyUsages}
  {defaultLocale : Option String} {mode : Mode} {files order others : List CatalogFile}
  {broken : CatalogFile}

/-! ## The reports -/

/-- The reports that the files get when each is reconciled alone. -/
def reportsAlone (project : Project) (usages : KeyUsages) (defaultLocale : Option String)
    (mode : Mode) (files : List CatalogFile) : List CatalogReport :=
  files.map fun file => (project.reconcileAlone usages defaultLocale mode file).1

/-- **The sorted reports do not depend on the order of the files.** -/
theorem mergeSort_reportsAlone (h : order.Perm files) :
    (project.reportsAlone usages defaultLocale mode order).mergeSort CatalogReport.le
      = (project.reportsAlone usages defaultLocale mode files).mergeSort CatalogReport.le := by
  refine CatalogReport.mergeSort_congr (h.map _) ?_
  intro a ha b hb hab
  obtain ⟨file, -, rfl⟩ := List.mem_map.1 ha
  obtain ⟨other, -, rfl⟩ := List.mem_map.1 hb
  have hfile : ∀ file, (project.reconcileAlone usages defaultLocale mode file).1.file = file :=
    fun file => (reconcileCatalog_file project file usages _ mode).1
  rw [hfile, hfile] at hab
  rw [hab]

/-! ## The files -/

/-- Whether two projects have the same shape and the same files. -/
def SameFiles (before after : Project) : Prop := SameBut (fun _ => False) before after

/-- What is left if each of the files becomes what it would alone, and nothing else changes. -/
structure EachAlone (project : Project) (usages : KeyUsages) (defaultLocale : Option String)
    (mode : Mode) (files : List CatalogFile) (after : Project) : Prop where
  shape : after.top.shape = project.top.shape
  alone : ∀ file ∈ files, ∀ place, project.LeadsTo file.path place →
    after.fileAt place
      = (project.reconcileAlone usages defaultLocale mode file).2.fileAt place
  rest : ∀ place, (∀ file ∈ files, ¬ project.LeadsTo file.path place) →
    after.fileAt place = project.fileAt place

/-- **What is left is determined by the files.** -/
theorem EachAlone.sameFiles (h : project.EachAlone usages defaultLocale mode files after)
    (h' : project.EachAlone usages defaultLocale mode files last) : SameFiles after last := by
  refine ⟨h'.shape.trans h.shape.symm, fun place _ => ?_⟩
  by_cases hplace : ∃ file ∈ files, project.LeadsTo file.path place
  · obtain ⟨file, hfile, hleads⟩ := hplace
    rw [h.alone file hfile place hleads, h'.alone file hfile place hleads]
  · have hnone : ∀ file ∈ files, ¬ project.LeadsTo file.path place :=
      fun file hfile hleads => hplace ⟨file, hfile, hleads⟩
    rw [h.rest place hnone, h'.rest place hnone]

/-- The order of the files does not matter. -/
theorem EachAlone.perm (h : project.EachAlone usages defaultLocale mode files after)
    (hperm : order.Perm files) : project.EachAlone usages defaultLocale mode order after where
  shape := h.shape
  alone file hfile := h.alone file (hperm.mem_iff.1 hfile)
  rest place hnone := h.rest place fun file hfile => hnone file (hperm.mem_iff.2 hfile)

/-- **Reconciling files of their own reconciles each alone.** -/
theorem eachAlone_reconcileEach (hown : project.OwnFiles files) (usages : KeyUsages)
    (defaultLocale : Option String) (mode : Mode) :
    project.EachAlone usages defaultLocale mode files
      (project.reconcileEach usages defaultLocale mode files).2 := by
  have hsame := sameBut_reconcileEach project usages defaultLocale mode files
  refine ⟨hsame.shape, fun file hfile place hleads => ?_, fun place hnone => ?_⟩
  · exact (reconcileEach_alone usages defaultLocale mode hown).2 file hfile place hleads.1
  · exact hsame.files place fun ⟨file, hfile, hleads⟩ => hnone file hfile hleads

/-- A file that holds no catalog makes no difference to what is left. -/
theorem EachAlone.of_cons {error : Error}
    (h : project.EachAlone usages defaultLocale mode (broken :: others) after)
    (hbroken : project.loadCatalog broken.path = .error error) :
    project.EachAlone usages defaultLocale mode others after := by
  obtain ⟨report, halone, -⟩ :=
    reconcileCatalog_of_loadCatalog_error hbroken usages (defaultLocale == some broken.locale) mode
  refine ⟨h.shape, fun file hfile => h.alone file (List.mem_cons_of_mem _ hfile),
    fun place hnone => ?_⟩
  by_cases hleads : project.LeadsTo broken.path place
  · rw [h.alone broken List.mem_cons_self place hleads, reconcileAlone, halone]
  · exact h.rest place (List.forall_mem_cons.2 ⟨hleads, hnone⟩)

/-! ## Reports and files -/

theorem OwnFiles.perm (h : project.OwnFiles files) (hperm : order.Perm files) :
    project.OwnFiles order :=
  hperm.symm.pairwise h fun hab place hb ha => hab place ha hb

/-- **Reconciling all files gives each its report, sorted, and reconciles each alone.** -/
theorem reconcileAll_alone (hown : project.OwnFiles files) (usages : KeyUsages)
    (defaultLocale : Option String) (mode : Mode) :
    (project.reconcileAll files usages defaultLocale mode).1
        = (project.reportsAlone usages defaultLocale mode files).mergeSort CatalogReport.le
      ∧ project.EachAlone usages defaultLocale mode files
        (project.reconcileAll files usages defaultLocale mode).2 := by
  refine ⟨?_, eachAlone_reconcileEach hown usages defaultLocale mode⟩
  exact congrArg (List.mergeSort · CatalogReport.le)
    (reconcileEach_alone usages defaultLocale mode hown).1

/-- **A file that holds no catalog changes nothing for the others.** -/
theorem reconcileAll_of_broken {error : Error} (hown : project.OwnFiles files)
    (hperm : files.Perm (broken :: others))
    (hbroken : project.loadCatalog broken.path = .error error) (usages : KeyUsages)
    (defaultLocale : Option String) (mode : Mode) :
    (project.reconcileAll files usages defaultLocale mode).1.Perm
        ((project.reconcileAlone usages defaultLocale mode broken).1
          :: (project.reconcileAll others usages defaultLocale mode).1)
      ∧ SameFiles (project.reconcileAll others usages defaultLocale mode).2
        (project.reconcileAll files usages defaultLocale mode).2 := by
  have hothers : project.OwnFiles others := (hown.perm hperm.symm).of_cons
  obtain ⟨hreports, hfiles⟩ := reconcileAll_alone hown usages defaultLocale mode
  obtain ⟨hreports', hfiles'⟩ := reconcileAll_alone hothers usages defaultLocale mode
  refine ⟨?_, hfiles'.sameFiles ((hfiles.perm hperm.symm).of_cons hbroken)⟩
  rw [hreports, hreports']
  refine (List.mergeSort_perm _ _).trans ((hperm.map _).trans ?_)
  exact (List.mergeSort_perm _ _).symm.cons _

end Project

end Phrasebook
