import Mathlib.Data.List.Induction
import Phrasebook.Check
import Phrasebook.Proofs.KeySet

/-!
# Proofs/Extraction — what the source files of a project give

Extraction goes through the files one by one.  A file that can be read and parsed adds its keys, and
any other one adds one issue with its path; so the keys are those of some file
(`isScalar_extract`, `isPlural_extract`), and **the issues list the failing files in order**
(`issues_extract`).
-/

namespace Phrasebook

variable {a b usages : KeyUsages} {key : String}

namespace KeyUsages

theorem isScalar_merge : (a.merge b).isScalar key ↔ a.isScalar key ∨ b.isScalar key := by
  simp only [isScalar, merge, KeySet.contains_iff, KeySet.mem_union]

theorem isPlural_merge : (a.merge b).isPlural key ↔ a.isPlural key ∨ b.isPlural key := by
  simp only [isPlural, merge, KeySet.contains_iff, KeySet.mem_union]

/-- Without keys nothing is used. -/
theorem isEmpty_iff :
    usages.isEmpty = true ↔ ∀ key, ¬ usages.isScalar key ∧ ¬ usages.isPlural key := by
  simp only [isEmpty, KeySet.isEmpty, Bool.and_eq_true, List.isEmpty_iff,
    List.eq_nil_iff_forall_not_mem, isScalar, isPlural, KeySet.contains_iff, forall_and]

end KeyUsages

namespace Project

variable {project : Project} {config : Config} {paths : List String} {path : String}

/-- The issues of one source file: one if it gives no keys. -/
def sourceIssues (project : Project) (config : Config) (path : String) : List Issue :=
  match project.extractFile config path with
  | .ok _ => []
  | .error fault => [.brokenSource path fault.message]

theorem sourceIssues_eq_nil_iff :
    project.sourceIssues config path = []
      ↔ ∃ usages, project.extractFile config path = .ok usages := by
  rw [sourceIssues]
  cases project.extractFile config path <;> simp

/-- One more file comes last. -/
theorem extract_concat :
    project.extract config (paths ++ [path])
      = (project.extract config paths).add path (project.extractFile config path) := by
  simp [extract]

/-- **The issues of an extraction are those of its files, in order.** -/
theorem issues_extract :
    (project.extract config paths).issues = paths.flatMap (project.sourceIssues config) := by
  induction paths using List.reverseRecOn with
  | nil => rfl
  | append_singleton paths path ih =>
    rw [extract_concat, List.flatMap_append, ← ih, List.flatMap_singleton, sourceIssues]
    cases project.extractFile config path with
    | ok usages => exact (List.append_nil _).symm
    | error fault => rfl

/-- Whether one of the files gives a key that has this property. -/
theorem exists_extractFile_concat {p : KeyUsages → Prop} :
    (∃ file ∈ paths ++ [path], ∃ usages, project.extractFile config file = .ok usages ∧ p usages)
      ↔ (∃ file ∈ paths, ∃ usages, project.extractFile config file = .ok usages ∧ p usages)
        ∨ ∃ usages, project.extractFile config path = .ok usages ∧ p usages := by
  simp only [List.mem_append, List.mem_singleton, or_and_right, exists_or, exists_eq_left]

/-- **A key is used as scalar if one of the files uses it so.** -/
theorem isScalar_extract :
    (project.extract config paths).usages.isScalar key
      ↔ ∃ file ∈ paths, ∃ usages, project.extractFile config file = .ok usages
        ∧ usages.isScalar key := by
  induction paths using List.reverseRecOn with
  | nil => simp [extract, Extraction.empty, KeyUsages.empty, KeyUsages.isScalar, KeySet.contains,
      KeySet.empty]
  | append_singleton paths path ih =>
    rw [extract_concat, exists_extractFile_concat, ← ih]
    cases project.extractFile config path with
    | ok usages => simp [Extraction.add, KeyUsages.isScalar_merge]
    | error fault => simp [Extraction.add]

/-- **A key is used as plural if one of the files uses it so.** -/
theorem isPlural_extract :
    (project.extract config paths).usages.isPlural key
      ↔ ∃ file ∈ paths, ∃ usages, project.extractFile config file = .ok usages
        ∧ usages.isPlural key := by
  induction paths using List.reverseRecOn with
  | nil => simp [extract, Extraction.empty, KeyUsages.empty, KeyUsages.isPlural, KeySet.contains,
      KeySet.empty]
  | append_singleton paths path ih =>
    rw [extract_concat, exists_extractFile_concat, ← ih]
    cases project.extractFile config path with
    | ok usages => simp [Extraction.add, KeyUsages.isPlural_merge]
    | error fault => simp [Extraction.add]

/-- An extraction has keys if one of its files has. -/
theorem isEmpty_usages_extract {usages : KeyUsages} (hpath : path ∈ paths)
    (h : project.extractFile config path = .ok usages) (hused : usages.isEmpty = false) :
    (project.extract config paths).usages.isEmpty = false := by
  rw [Bool.eq_false_iff, Ne, KeyUsages.isEmpty_iff] at hused ⊢
  refine fun hnone => hused fun key => ⟨fun hs => ?_, fun hp => ?_⟩
  · exact (hnone key).1 (isScalar_extract.2 ⟨path, hpath, usages, h, hs⟩)
  · exact (hnone key).2 (isPlural_extract.2 ⟨path, hpath, usages, h, hp⟩)

end Project

end Phrasebook
