import Phrasebook.Proofs.Extraction
import Phrasebook.Proofs.Project.Order

/-!
# Proofs/Extraction/Grouping — extraction does not depend on how its files are grouped

        ┌─── a.ts
    ────┤   ┌─── ·
        └───┤                  gives what   a.ts, b.ts, c.ts   give one after the other
            └───┬─── c.ts
                └─── b.ts

Files can be extracted apart from each other and their results joined two by two.  Joining is
associative and has the empty extraction as its unit, so **a grouping gives what its files give one
by one** (`Grouping.extract_eq`).  The order of the files shows in the order of the issues only, and
these are sorted in the end; so every grouping of a set of files, in whatever order, gives one
extraction, which holds the keys that some file uses and one issue for each file that fails
(`extractGrouped_eq`).
-/

namespace Phrasebook

/-! ## Sets of keys -/

/-- **A key set is what it contains.** -/
theorem KeySet.eq_of_mem_iff {a b : KeySet} (h : ∀ key, key ∈ a.toList ↔ key ∈ b.toList) :
    a = b := by
  have hlists : a.toList = b.toList :=
    ((List.perm_ext_iff_of_nodup nodup_toList nodup_toList).2 h).eq_of_pairwise
      (fun x y _ _ hxy hyx => absurd (String.lt_trans hxy hyx) (String.lt_irrefl x))
      a.sorted b.sorted
  obtain ⟨keys, hkeys⟩ := a
  obtain ⟨keys', hkeys'⟩ := b
  obtain rfl : keys = keys' := hlists
  rfl

namespace KeyUsages

variable {a b c usages : KeyUsages} {key : String} {kind : Kind} {list : List Usage}

/-- Whether a key is used for an operation. -/
def uses (usages : KeyUsages) : Kind → String → Bool
  | .scalar, key => usages.isScalar key
  | .plural, key => usages.isPlural key

theorem eq_of_uses_iff (h : ∀ kind key, a.uses kind key = true ↔ b.uses kind key = true) :
    a = b := by
  obtain ⟨scalar, plural⟩ := a
  obtain ⟨scalar', plural'⟩ := b
  obtain rfl : scalar = scalar' := KeySet.eq_of_mem_iff fun key => by
    simpa only [uses, isScalar, KeySet.contains_iff] using h .scalar key
  obtain rfl : plural = plural' := KeySet.eq_of_mem_iff fun key => by
    simpa only [uses, isPlural, KeySet.contains_iff] using h .plural key
  rfl

theorem uses_merge :
    (a.merge b).uses kind key = true ↔ a.uses kind key = true ∨ b.uses kind key = true := by
  rcases kind with - | -
  · exact isScalar_merge
  · exact isPlural_merge

theorem merge_assoc : (a.merge b).merge c = a.merge (b.merge c) :=
  eq_of_uses_iff fun kind key => by simp only [uses_merge, or_assoc]

theorem merge_empty : usages.merge empty = usages := rfl

theorem uses_empty : empty.uses kind key = false := by rcases kind with - | - <;> rfl

theorem empty_merge : empty.merge usages = usages :=
  eq_of_uses_iff fun kind key => by simp [uses_merge, uses_empty]

theorem uses_add {usage : Usage} :
    (usages.add usage).uses kind key = true
      ↔ usages.uses kind key = true ∨ usage.kind = kind ∧ usage.key = key := by
  obtain ⟨used, segments⟩ := usage
  rcases used with - | - <;> rcases kind with - | - <;>
    simp only [add, uses, isScalar, isPlural, KeySet.contains_iff, KeySet.mem_insert] <;> grind

/-- **The keys of a list of usages**, operation by operation. -/
theorem uses_ofList :
    (ofList list).uses kind key = true
      ↔ ∃ usage ∈ list, usage.kind = kind ∧ usage.key = key := by
  induction list using List.reverseRecOn with
  | nil => simp [ofList, uses_empty]
  | append_singleton list usage ih =>
    have hlast : ofList (list ++ [usage]) = (ofList list).add usage := by simp [ofList]
    rw [hlast, uses_add, ih]
    simp [or_and_right, exists_or]

end KeyUsages

/-! ## Joining extractions -/

namespace Extraction

variable {a b c extraction : Extraction} {path : String} {result : Except SourceFault KeyUsages}

/-- What one file gives. -/
def ofFile (path : String) : Except SourceFault KeyUsages → Extraction
  | .ok usages => ⟨usages, []⟩
  | .error fault => ⟨.empty, [.brokenSource path fault.message]⟩

/-- What two groups of files give together. -/
def join (a b : Extraction) : Extraction := ⟨a.usages.merge b.usages, a.issues ++ b.issues⟩

theorem join_assoc : (a.join b).join c = a.join (b.join c) := by
  simp only [join, KeyUsages.merge_assoc, List.append_assoc]

theorem empty_join : empty.join extraction = extraction := by
  simp only [join, empty, KeyUsages.empty_merge, List.nil_append]

theorem join_empty : extraction.join empty = extraction := by
  simp only [join, empty, KeyUsages.merge_empty, List.append_nil]

/-- Adding a file is joining what it gives. -/
theorem add_eq_join : extraction.add path result = extraction.join (ofFile path result) := by
  rcases result with fault | usages
  · simp only [add, join, ofFile, KeyUsages.merge_empty]
  · simp only [add, join, ofFile, List.append_nil]

end Extraction

/-- A way to group files: nothing, one file, or two groups that are joined. -/
inductive Grouping where
  | nothing
  | file (path : String)
  | join (left right : Grouping)

/-- The files of a grouping, from left to right. -/
def Grouping.paths : Grouping → List String
  | nothing => []
  | file path => [path]
  | join left right => left.paths ++ right.paths

namespace Project

variable {project : Project} {config : Config} {paths more : List String} {path key : String}
  {kind : Kind}

/-- **Two lists of files give what each of them gives, joined.** -/
theorem extract_append :
    project.extract config (paths ++ more)
      = (project.extract config paths).join (project.extract config more) := by
  induction more using List.reverseRecOn with
  | nil =>
    rw [List.append_nil]
    exact Extraction.join_empty.symm
  | append_singleton more path ih =>
    rw [← List.append_assoc, extract_concat, ih, extract_concat, Extraction.add_eq_join,
      Extraction.add_eq_join, Extraction.join_assoc]

/-- What the files of a grouping give, joined the way they are grouped. -/
def extractGroup (project : Project) (config : Config) : Grouping → Extraction
  | .nothing => .empty
  | .file path => .ofFile path (project.extractFile config path)
  | .join left right => (project.extractGroup config left).join (project.extractGroup config right)

/-- **A grouping gives what its files give one by one.** -/
theorem extractGroup_eq (grouping : Grouping) :
    project.extractGroup config grouping = project.extract config grouping.paths := by
  induction grouping with
  | nothing => rfl
  | file path =>
    have hadd : project.extract config [path]
        = Extraction.empty.add path (project.extractFile config path) := rfl
    rw [extractGroup, Grouping.paths, hadd, Extraction.add_eq_join, Extraction.empty_join]
  | join left right ihl ihr => rw [extractGroup, Grouping.paths, extract_append, ihl, ihr]

/-! ## Any grouping of a set of files -/

/-- What the files of a grouping give, with the issues sorted by their files. -/
def extractGrouped (project : Project) (config : Config) (grouping : Grouping) : Extraction :=
  let extraction := project.extractGroup config grouping
  { extraction with issues := extraction.issues.mergeSort fun a b => a.path ≤ b.path }

theorem uses_extract :
    (project.extract config paths).usages.uses kind key = true
      ↔ ∃ path ∈ paths, ∃ usages, project.extractFile config path = .ok usages
        ∧ usages.uses kind key = true := by
  rcases kind with - | -
  · exact isScalar_extract
  · exact isPlural_extract

/-- Whether a source file that is read and parsed has this usage. -/
def Yields (project : Project) (config : Config) (path : String) (usage : Usage) : Prop :=
  ∃ code list, project.read path = .ok code
    ∧ (config.prefilter = true → config.markers.mayOccurIn code = true)
    ∧ Source.usages config.markers path code = .ok list ∧ usage ∈ list

/-- **The keys of a source file are those of its usages.** -/
theorem uses_extractFile :
    (∃ usages, project.extractFile config path = .ok usages ∧ usages.uses kind key = true)
      ↔ ∃ usage, project.Yields config path usage ∧ usage.kind = kind ∧ usage.key = key := by
  constructor
  · rintro ⟨usages, hextract, huses⟩
    rw [extractFile] at hextract
    rcases hread : project.read path with fault | code
    · simp [hread] at hextract
    · simp only [hread, Source.keyUsages] at hextract
      split at hextract
      · -- a file that the filter leaves out uses no key
        obtain rfl := Except.ok.inj hextract
        rw [KeyUsages.uses_empty] at huses
        cases huses
      · rename_i hfilter
        rcases hlist : Source.usages config.markers path code with fault | list
        · simp [hlist, Except.map] at hextract
        · obtain rfl : KeyUsages.ofList list = usages := by
            simpa [hlist, Except.map] using hextract
          obtain ⟨usage, hmem, hkind, hkey⟩ := KeyUsages.uses_ofList.1 huses
          exact ⟨usage, ⟨code, list, hread, by simpa using hfilter, hlist, hmem⟩, hkind, hkey⟩
  · rintro ⟨usage, ⟨code, list, hread, hfilter, hlist, hmem⟩, hkind, hkey⟩
    refine ⟨.ofList list, ?_, KeyUsages.uses_ofList.2 ⟨usage, hmem, hkind, hkey⟩⟩
    have hread' : (config.prefilter && !config.markers.mayOccurIn code) = false := by
      simpa using hfilter
    simp [extractFile, hread, Source.keyUsages, hread', hlist, Except.map]

/-- The issues of a list of files: one for each file that fails. -/
theorem mem_issues_extract {issue : Issue} :
    issue ∈ (project.extract config paths).issues
      ↔ ∃ path ∈ paths, ∃ fault, project.extractFile config path = .error fault
        ∧ issue = .brokenSource path fault.message := by
  rw [issues_extract, List.mem_flatMap]
  refine exists_congr fun path => and_congr_right fun _ => ?_
  rw [sourceIssues]
  rcases project.extractFile config path with fault | usages <;> simp

/-- The issues go through the files in order, and none of them is named twice. -/
theorem map_path_issues_extract_sublist :
    ((project.extract config paths).issues.map Issue.path).Sublist paths := by
  rw [issues_extract]
  induction paths with
  | nil => exact .slnil
  | cons path paths ih =>
    rw [List.flatMap_cons, List.map_append, sourceIssues]
    rcases project.extractFile config path with fault | usages
    · exact ih.cons_cons path
    · exact ih.cons path

/-- **The order of the files does not matter for the keys.** -/
theorem usages_extract_perm (h : paths.Perm more) :
    (project.extract config paths).usages = (project.extract config more).usages :=
  KeyUsages.eq_of_uses_iff fun kind key => by simp only [uses_extract, h.mem_iff]

/-- **Nor for the issues, once they are sorted.** -/
theorem mergeSort_issues_extract_perm (hsorted : paths.Pairwise (· < ·)) (h : more.Perm paths) :
    (project.extract config more).issues.mergeSort (fun a b => a.path ≤ b.path)
      = (project.extract config paths).issues := by
  have hperm : ((project.extract config more).issues.mergeSort fun a b => a.path ≤ b.path).Perm
      (project.extract config paths).issues := by
    rw [issues_extract, issues_extract]
    exact (List.mergeSort_perm _ _).trans (h.flatMap_right _)
  have hordered : (project.extract config paths).issues.Pairwise fun a b => a.path ≤ b.path := by
    have hpaths : ((project.extract config paths).issues.map Issue.path).Pairwise (· < ·) :=
      hsorted.sublist map_path_issues_extract_sublist
    exact (List.pairwise_map.1 hpaths).imp fun hlt => Std.le_of_lt hlt
  refine hperm.eq_of_pairwise (fun a b ha hb hab hba => ?_) ?_ hordered
  · obtain ⟨path, -, fault, hfault, rfl⟩ := mem_issues_extract.1 (hperm.mem_iff.1 ha)
    obtain ⟨path', -, fault', hfault', rfl⟩ := mem_issues_extract.1 hb
    obtain rfl : path = path' := String.le_antisymm hab hba
    obtain rfl : fault = fault' := Except.error.inj (hfault.symm.trans hfault')
    rfl
  · exact pairwise_mergeSort_key (fun _ _ => decide_eq_true_iff) _

/-- **Every grouping of a set of files gives what going through them in order gives.** -/
theorem extractGrouped_perm {grouping : Grouping} (hsorted : paths.Pairwise (· < ·))
    (hpaths : grouping.paths.Perm paths) :
    project.extractGrouped config grouping = project.extract config paths := by
  rw [extractGrouped, extractGroup_eq, usages_extract_perm hpaths,
    mergeSort_issues_extract_perm hsorted hpaths]

/-- **Extraction does not depend on how files are grouped.**  For every set of files, every grouping
of them, in whatever order, gives the extraction that going through them in order gives.  A key is
used for an operation if a file that is read and parsed has such a usage, and there is one issue for
each file that fails, in the order of the files. -/
theorem extractGrouped_eq (project : Project) (config : Config) (grouping : Grouping)
    (hsorted : paths.Pairwise (· < ·)) (hpaths : grouping.paths.Perm paths) :
    let extraction := project.extractGrouped config grouping
    extraction = project.extract config paths
      ∧ (∀ kind key, extraction.usages.uses kind key = true
        ↔ ∃ path ∈ paths, ∃ usage, project.Yields config path usage
          ∧ usage.kind = kind ∧ usage.key = key)
      ∧ (∀ issue, issue ∈ extraction.issues
        ↔ ∃ path ∈ paths, ∃ fault, project.extractFile config path = .error fault
          ∧ issue = .brokenSource path fault.message)
      ∧ (extraction.issues.map Issue.path).Pairwise (· < ·) := by
  intro extraction
  rw [show extraction = project.extract config paths from extractGrouped_perm hsorted hpaths]
  refine ⟨rfl, fun kind key => ?_, fun issue => mem_issues_extract,
    hsorted.sublist map_path_issues_extract_sublist⟩
  simp only [uses_extract, uses_extractFile]

/-- A project with two files that use a key, one that does not parse and one that is no text. -/
def mixedProject : Project :=
  ⟨.folder [("a.ts", .text "__`hi`;"), ("b.ts", .text "const = __`x`"), ("c.ts", .binary [0xff]),
    ("d.ts", .text "__p(n)`# days`;")]⟩

/-- The files of that project, grouped from the last to the first. -/
def mixedGrouping : Grouping :=
  .join (.join (.file "d.ts") .nothing)
    (.join (.join (.file "c.ts") (.file "b.ts")) (.join .nothing (.file "a.ts")))

/-- That grouping gives the keys of two files and the issues of the others in order. -/
theorem extractGrouped_eq_mixedProject :
    let extraction := mixedProject.extractGrouped {} mixedGrouping
    extraction = mixedProject.extract {} ["a.ts", "b.ts", "c.ts", "d.ts"]
      ∧ extraction.usages.uses .scalar "hi" = true
      ∧ extraction.usages.uses .plural "# days" = true
      ∧ extraction.issues.map Issue.path = ["b.ts", "c.ts"]
      ∧ (extraction.issues.map Issue.path).Pairwise (· < ·) := by
  intro extraction
  have hpaths : mixedGrouping.paths.Perm ["a.ts", "b.ts", "c.ts", "d.ts"] := by decide
  obtain ⟨hsame, -, -, hordered⟩ :=
    extractGrouped_eq mixedProject {} mixedGrouping (by decide) hpaths
  refine ⟨hsame, ?_, ?_, ?_, hordered⟩
  all_goals
    rw [show extraction = _ from hsame]
    decide +kernel

end Project

end Phrasebook
