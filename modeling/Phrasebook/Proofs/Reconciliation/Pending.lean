import Phrasebook.Proofs.Drift.Pending
import Phrasebook.Proofs.Reconciliation

/-!
# Proofs/Reconciliation/Pending — fixes do not lose the translations that wait in a file

    text ──parse──▸ catalog ──fix──▸ fixed ──render──▸ text ──parse──▸ fixed, numbers as they read

Between two runs a catalog goes through its file.  Only its numbers can come back changed, and no
diff looks at numbers (`diff_mapNumbers`), so a run finds in the file what it would have found in
the catalog.  **Neither a catalog nor a catalog file loses what waits in it** (`keepsPending`).
-/

namespace Phrasebook

namespace Catalog

open Json

variable {catalog : Catalog} {usages : KeyUsages} {isDefault : Bool} {f : Number → Number}

/-! ## A diff does not look at numbers -/

theorem entries_mapNumbers :
    (catalog.mapNumbers f).entries
      = catalog.entries.map fun field => (field.1, field.2.mapNumbers f) := rfl

@[simp] theorem keys_mapNumbers : (catalog.mapNumbers f).keys = catalog.keys := by
  rw [keys, entries_mapNumbers, Fields.names, List.map_map]
  rfl

@[simp] theorem contains_mapNumbers {key : String} :
    (catalog.mapNumbers f).contains key = catalog.contains key := by
  rw [Bool.eq_iff_iff, contains_iff, contains_iff, keys_mapNumbers]

theorem eraseAll_mapNumbers {keys : List String} :
    (catalog.mapNumbers f).eraseAll keys = (catalog.eraseAll keys).mapNumbers f := by
  refine ext_entries ?_
  rw [entries_eraseAll, entries_mapNumbers, entries_mapNumbers, entries_eraseAll, List.filter_map]
  rfl

/-- The keys of the entries that pass a test which does not look at numbers. -/
theorem map_fst_filter_mapNumbers {p : String × Entry → Bool}
    (hp : ∀ key entry, p (key, entry.mapNumbers f) = p (key, entry)) :
    ((catalog.mapNumbers f).entries.filter p).map Prod.fst
      = (catalog.entries.filter p).map Prod.fst := by
  rw [entries_mapNumbers, List.filter_map, List.map_map]
  exact congrArg _ (List.filter_congr fun field _ => hp field.1 field.2)

/-- **Other numbers make no difference to a diff.** -/
theorem diff_mapNumbers :
    (catalog.mapNumbers f).diff usages isDefault
      = ((catalog.diff usages isDefault).1, (catalog.diff usages isDefault).2.mapNumbers f) := by
  have hplural : ∀ entry : Entry, (entry.mapNumbers f).isPlural = entry.isPlural := by
    rintro (_ | _ | _ | _) <;> rfl
  have hnull : ∀ entry : Entry, (entry.mapNumbers f).isNull = entry.isNull := by
    rintro (_ | _ | _ | _) <;> rfl
  have hrefuses : ∀ entry : Entry, refusesScalar (entry.mapNumbers f) = refusesScalar entry := by
    rintro (_ | _ | _ | _) <;> rfl
  have hinvalid : (catalog.mapNumbers f).invalidPlurals usages = catalog.invalidPlurals usages :=
    map_fst_filter_mapNumbers fun key entry => by simp only [hplural]
  have hextra : ∀ other : Catalog,
      (other.mapNumbers f).extraKeys usages isDefault = other.extraKeys usages isDefault :=
    fun other => map_fst_filter_mapNumbers fun key entry => by simp only [serves, hplural, hnull]
  have hmismatched : ∀ other : Catalog,
      (other.mapNumbers f).mismatchedKeys usages = other.mismatchedKeys usages :=
    fun other => map_fst_filter_mapNumbers fun key entry => by simp only [hrefuses]
  simp only [diff, hinvalid, eraseAll_mapNumbers, contains_mapNumbers, hextra, hmismatched]

end Catalog

namespace Project

variable {project : Project} {file : CatalogFile} {catalog : Catalog} {run : FixRun}
  {path : String}

/-! ## One run -/

theorem isFailure_of_hasMissingTranslations {report : CatalogReport}
    (h : report.outcome = some .hasMissingTranslations) : report.isFailure = true := by
  simp [CatalogReport.isFailure, h]

/-- One fix of a catalog file. -/
def fixFile (file : CatalogFile) (project : Project) (run : FixRun) : CatalogReport × Project :=
  project.reconcileCatalog file run.usages run.isDefault .fix

/-- Whether the file holds a catalog with the marker. -/
def HoldsMarker (path : String) (project : Project) : Prop :=
  ∃ catalog, project.loadCatalog path = .ok catalog ∧ Catalog.markerKey ∈ catalog.keys

/-- **What one fix makes of a catalog file**: it leaves a catalog alone that waits for translations,
and puts the fixed catalog in the place of any other. -/
theorem fixFile_cases (hload : project.loadCatalog file.path = .ok catalog) (run : FixRun) :
    ((catalog.diff run.usages run.isDefault).1.onlyMarkerLeft = true
        ∧ fixFile file project run
          = (fixReport file catalog run.usages run.isDefault false, project))
      ∨ (catalog.diff run.usages run.isDefault).1.onlyMarkerLeft = false
        ∧ ∃ written after,
          fixFile file project run
              = (fixReport file catalog run.usages run.isDefault written, after)
            ∧ after.loadCatalog file.path
              = .ok ((catalog.fixed run.usages run.isDefault).mapNumbers Json.Number.reread) := by
  obtain ⟨text, hread, hparse⟩ := loadCatalog_eq_ok_iff.1 hload
  rcases hm : (catalog.diff run.usages run.isDefault).1.onlyMarkerLeft with _ | _
  · obtain ⟨written, after, heq, -, -, -, hafter, -⟩ := reconcileCatalog_fix hread hparse hm
    have hback := parse_render_fixed_reread hparse run.usages run.isDefault
    exact .inr ⟨rfl, written, after, heq, loadCatalog_eq_ok_iff.2 ⟨_, hafter, hback⟩⟩
  · exact .inl ⟨rfl, reconcileCatalog_of_onlyMarkerLeft hread hparse hm⟩

/-- A fix keeps the marker in its file. -/
theorem HoldsMarker.fixFile (h : HoldsMarker file.path project) (run : FixRun) :
    HoldsMarker file.path (fixFile file project run).2 := by
  obtain ⟨catalog, hload, hmarker⟩ := h
  rcases fixFile_cases hload run with ⟨-, heq⟩ | ⟨-, written, after, heq, hafter⟩
  · rw [heq]
    exact ⟨catalog, hload, hmarker⟩
  · rw [heq]
    refine ⟨_, hafter, ?_⟩
    rw [Catalog.keys_mapNumbers]
    exact Catalog.markerKey_mem_keys_fixed hmarker

/-- A report with an outcome is about a catalog. -/
theorem loadCatalog_of_outcome {outcome : FixOutcome}
    (h : (fixFile file project run).1.outcome = some outcome) :
    ∃ catalog, project.loadCatalog file.path = .ok catalog := by
  rw [fixFile, reconcileCatalog] at h
  cases hread : project.read file.path with
  | error fault => simp [hread] at h
  | ok text =>
    cases hparse : Catalog.parse text with
    | error error => simp [hread, hparse] at h
    | ok catalog => exact ⟨catalog, loadCatalog_eq_ok_iff.2 ⟨text, hread, hparse⟩⟩

/-- **What a fix that adds keys leaves in its file**: the fixed catalog, up to its numbers. -/
theorem fixFile_keysAdded (h : (fixFile file project run).1.outcome = some .keysAdded) :
    ∃ catalog : Catalog, (catalog.diff run.usages run.isDefault).1.missing ≠ []
      ∧ (fixFile file project run).2.loadCatalog file.path
        = .ok ((catalog.fixed run.usages run.isDefault).mapNumbers Json.Number.reread) := by
  obtain ⟨catalog, hload⟩ := loadCatalog_of_outcome h
  have hmissing : ∀ {written after},
      fixFile file project run = (fixReport file catalog run.usages run.isDefault written, after) →
        (catalog.diff run.usages run.isDefault).1.missing ≠ [] := by
    intro written after heq
    rw [heq] at h
    exact Catalog.fix_fst_eq_keysAdded_iff.1 (Option.some.inj h)
  rcases fixFile_cases hload run with ⟨hm, heq⟩ | ⟨-, written, after, heq, hafter⟩
  · exact absurd (Catalog.onlyMarkerLeft_iff.1 hm).1 (hmissing heq)
  · refine ⟨catalog, hmissing heq, ?_⟩
    rw [heq]
    exact hafter

/-- A run that finds only the marker in a file fails and leaves the project alone. -/
theorem fixFile_of_onlyMarkerLeft (hload : project.loadCatalog file.path = .ok catalog)
    (hm : (catalog.diff run.usages run.isDefault).1.onlyMarkerLeft = true) :
    (fixFile file project run).1.outcome = some .hasMissingTranslations
      ∧ (fixFile file project run).1.isFailure = true ∧ (fixFile file project run).2 = project := by
  obtain ⟨text, hread, hparse⟩ := loadCatalog_eq_ok_iff.1 hload
  have heq : fixFile file project run
      = (fixReport file catalog run.usages run.isDefault false, project) :=
    reconcileCatalog_of_onlyMarkerLeft hread hparse hm
  have houtcome : (fixFile file project run).1.outcome = some .hasMissingTranslations := by
    rw [heq]
    exact congrArg some (Catalog.fix_fst_eq_hasMissingTranslations_iff.2 hm)
  exact ⟨houtcome, isFailure_of_hasMissingTranslations houtcome, congrArg Prod.snd heq⟩

/-! ## All runs -/

/-- **Fixes do not lose the translations that wait**, in a catalog and in a catalog file.  A run
that adds keys leaves the marker, which then survives every run, whatever keys are in use; and while
the keys in use stay the same and are not reserved, each further run fails for want of translations
and changes nothing. -/
theorem keepsPending :
    (∀ catalog : Catalog,
        KeepsPending Catalog.fixOnce (fun catalog => Catalog.markerKey ∈ catalog.keys) some
          (fun outcome => ∀ report : CatalogReport, report.outcome = some outcome →
            report.isFailure = true) catalog)
      ∧ ∀ (project : Project) (file : CatalogFile),
        KeepsPending (fixFile file) (HoldsMarker file.path) CatalogReport.outcome
          (fun report => report.isFailure = true) project := by
  refine ⟨fun catalog => .of_step ?_ ?_ ?_ catalog, fun project file => .of_step ?_ ?_ ?_ project⟩
  · intro catalog run ho
    exact Catalog.markerKey_mem_keys_fixed_of_missing
      (Catalog.fix_fst_eq_keysAdded_iff.1 (Option.some.inj ho))
  · intro catalog run hmarker
    exact Catalog.markerKey_mem_keys_fixed hmarker
  · intro catalog run ho hr
    have hmissing := Catalog.fix_fst_eq_keysAdded_iff.1 (Option.some.inj ho)
    rw [Catalog.fixOnce_snd, Catalog.fixOnce_fixed hmissing hr]
    exact ⟨rfl, fun report => isFailure_of_hasMissingTranslations, rfl⟩
  · intro project run ho
    obtain ⟨catalog, hmissing, hafter⟩ := fixFile_keysAdded ho
    refine ⟨_, hafter, ?_⟩
    rw [Catalog.keys_mapNumbers]
    exact Catalog.markerKey_mem_keys_fixed_of_missing hmissing
  · intro project run hmarker
    exact hmarker.fixFile run
  · intro project run ho hr
    obtain ⟨catalog, hmissing, hafter⟩ := fixFile_keysAdded ho
    refine fixFile_of_onlyMarkerLeft hafter ?_
    rw [Catalog.diff_mapNumbers]
    exact Catalog.onlyMarkerLeft_diff_fixed hmissing hr.1 hr.2

/-- A project with one catalog, which is empty. -/
def emptyCatalogProject : Project := ⟨.folder [("pt.json", .text "\x7b\x7d")]⟩

/-- A run that finds a key missing. -/
def greetingRun : FixRun := ⟨{ scalar := .ofList ["Hi"], plural := .empty }, false⟩

/-- Runs with other keys in use: the marker as a plural key, and none. -/
def otherRuns : List FixRun :=
  [⟨{ scalar := .empty, plural := .ofList [Catalog.markerKey] }, true⟩, ⟨.empty, false⟩]

/-- A run that adds a key and two runs with other keys; or four runs that look for the same
again. -/
theorem keepsPending_emptyCatalogProject :
    let fix := fixFile ⟨"pt", "pt.json"⟩
    let first := fix emptyCatalogProject greetingRun
    let last := fix (FixRun.leaves fix first.2 (List.replicate 3 greetingRun)) greetingRun
    first.1.outcome = some .keysAdded ∧ greetingRun.SparesReserved
      ∧ HoldsMarker "pt.json" (FixRun.leaves fix emptyCatalogProject (greetingRun :: otherRuns))
      ∧ last.1.outcome = some .hasMissingTranslations ∧ last.1.isFailure = true
      ∧ last.2 = first.2 := by
  have hruns := keepsPending.2 emptyCatalogProject ⟨"pt", "pt.json"⟩
  have hadded : (fixFile ⟨"pt", "pt.json"⟩ emptyCatalogProject greetingRun).1.outcome
      = some .keysAdded := by decide +kernel
  have hspares : greetingRun.SparesReserved := ⟨by decide +kernel, by decide +kernel⟩
  have hmarks := hruns.marks [] greetingRun
  have hwaits := hruns.waits [] greetingRun 3
  have hkeeps := hruns.keeps [greetingRun] otherRuns
  rw [FixRun.leaves_nil] at hmarks hwaits
  rw [FixRun.leaves_cons, FixRun.leaves_nil] at hkeeps
  exact ⟨hadded, hspares, hkeeps (hmarks hadded), hwaits hadded hspares⟩

end Project

end Phrasebook
