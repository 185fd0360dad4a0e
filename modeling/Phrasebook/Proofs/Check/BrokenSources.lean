import Mathlib.Data.List.Nodup
import Phrasebook.Proofs.Check.Frame

/-!
# Proofs/Check/BrokenSources — a check names the source files that gave it no keys

    a.ts  "__`hi`;"        gives "hi"
    b.ts  "const = __`x`"  named: it does not parse
    c.ts  bytes, no text   named: it cannot be read
    d.ts  "const = ;"      not named: no marker can occur in it, so the filter leaves it unread

A file is **broken** if it cannot be read, or is read in spite of the filter and does not parse
(`isBroken_iff`).  The issues of a check that are about source files are the broken ones among the
scanned files, in their order (`filterMap_brokenSource?`); a scan lists no file twice, so each is
named once (`check_names_broken_sources`).
-/

namespace Phrasebook

/-- The source file that an issue says to be broken. -/
def Issue.brokenSource? : Issue → Option String
  | .brokenSource path _ => some path
  | _ => none

namespace Project

variable {project after : Project} {options : CommandLine.CheckOptions} {config : Config}
  {result : CheckResult} {path : String} {paths : List String}

/-! ## Broken files -/

/-- Whether a source file cannot be read, or is not left out by the filter and does not parse. -/
def isBroken (project : Project) (config : Config) (path : String) : Bool :=
  match project.read path with
  | .error _ => true
  | .ok code =>
    !(config.prefilter && !config.markers.mayOccurIn code)
      && (Source.Tree.parse? (Source.Dialect.ofPath path) code).isNone

/-- **A broken file is one that gives no keys.** -/
theorem isBroken_iff :
    project.isBroken config path = true
      ↔ ∃ fault, project.extractFile config path = .error fault := by
  rw [isBroken, extractFile]
  cases project.read path with
  | error fault => simp
  | ok code =>
    simp only [Source.keyUsages, Source.usages]
    cases config.prefilter && !config.markers.mayOccurIn code with
    | true => simp
    | false => cases Source.Tree.parse? (Source.Dialect.ofPath path) code <;> simp [Except.map]

theorem filterMap_sourceIssues :
    (project.sourceIssues config path).filterMap Issue.brokenSource?
      = if project.isBroken config path then [path] else [] := by
  rw [sourceIssues]
  cases hextract : project.extractFile config path with
  | ok usages =>
    rw [if_neg]
    · rfl
    · rw [isBroken_iff, hextract]
      simp
  | error fault =>
    rw [if_pos (isBroken_iff.2 ⟨fault, hextract⟩)]
    rfl

/-- **An extraction names the broken files in order.** -/
theorem filterMap_issues_extract :
    (project.extract config paths).issues.filterMap Issue.brokenSource?
      = paths.filter (project.isBroken config) := by
  rw [issues_extract]
  induction paths with
  | nil => rfl
  | cons path paths ih =>
    rw [List.flatMap_cons, List.filterMap_append, ih, filterMap_sourceIssues, List.filter_cons]
    split <;> rfl

/-! ## The issues of a check -/

theorem filterMap_ambiguityIssues (config : Config) (usages : KeyUsages) :
    (ambiguityIssues config usages).filterMap Issue.brokenSource? = [] := by
  simp [ambiguityIssues, List.filterMap_map, Function.comp_def, Issue.brokenSource?]

theorem filterMap_catalogIssues (report : CatalogReport) :
    report.issues.filterMap Issue.brokenSource? = [] := by
  rw [CatalogReport.issues]
  cases report.error with
  | some error => rfl
  | none =>
    dsimp only
    rw [List.filterMap_append, List.filterMap_append, List.filterMap_append]
    simp only [List.append_eq_nil_iff]
    refine ⟨⟨⟨?_, ?_⟩, ?_⟩, ?_⟩
    · split <;> rfl
    · simp [List.filterMap_map, Function.comp_def, Issue.brokenSource?]
    · simp [List.filterMap_map, Function.comp_def, Issue.brokenSource?]
    · split <;> rfl

/-- **The source files that a check names** are the broken ones that it scanned. -/
theorem filterMap_issues_check (hconfig : project.checkConfig options = .ok config)
    (h : project.check options = .ok (result, after)) :
    result.issues.filterMap Issue.brokenSource?
      = (project.checkSources config).filter (project.isBroken config) := by
  obtain ⟨config', files, hconfig', -, -, hissues⟩ := check_eq_ok h
  obtain rfl : config' = config := Except.ok.inj (hconfig'.symm.trans hconfig)
  have hcatalogs : (result.catalogs.flatMap CatalogReport.issues).filterMap Issue.brokenSource?
      = [] := by
    rw [List.filterMap_flatMap, List.flatMap_eq_nil_iff]
    exact fun report _ => filterMap_catalogIssues report
  rw [hissues, List.filterMap_append, List.filterMap_append, filterMap_ambiguityIssues, hcatalogs]
  exact filterMap_issues_extract

/-- A check gives a result if its configuration loads, its catalogs have a folder and a source file
uses a key. -/
theorem exists_check_eq_ok (hconfig : project.checkConfig options = .ok config)
    (hfolder : project.isFolder config.configDir = true)
    (hused : ∃ path ∈ project.checkSources config, ∃ usages,
      project.extractFile config path = .ok usages ∧ usages.isEmpty = false) :
    ∃ result after, project.check options = .ok (result, after) := by
  obtain ⟨path, hpath, usages, hextract, husages⟩ := hused
  have hnonempty : (project.extract config
      (project.scanSources config.srcDir config.extensions config.ignores).files).usages.isEmpty
        = false := isEmpty_usages_extract hpath hextract husages
  rw [check, hconfig]
  simp only [catalogsOf, hfolder, if_true, Except.mapError, bind, Except.bind, hnonempty]
  exact ⟨_, _, rfl⟩

/-- **Every broken source file is named once, and no other.**  If the configuration loads, the
catalogs have a folder and one source file uses a key, then a check gives a result, and its issues
name a path once if it is a scanned file that is broken, and else never.  All of these are in the
project; nothing is scanned in a folder that leads out of it. -/
theorem check_names_broken_sources (hw : project.top.WellFormed)
    (hconfig : project.checkConfig options = .ok config)
    (hfolder : project.isFolder config.configDir = true)
    (hused : ∃ path ∈ project.checkSources config, ∃ usages,
      project.extractFile config path = .ok usages ∧ usages.isEmpty = false) :
    ∃ result after, project.check options = .ok (result, after)
      ∧ ∀ path, (result.issues.filterMap Issue.brokenSource?).count path
        = if path ∈ project.checkSources config ∧ project.isBroken config path = true then 1
          else 0 := by
  obtain ⟨result, after, hcheck⟩ := exists_check_eq_ok hconfig hfolder hused
  refine ⟨result, after, hcheck, fun path => ?_⟩
  have hnodup : ((project.checkSources config).filter (project.isBroken config)).Nodup :=
    (nodup_scanSources hw config.srcDir config.extensions config.ignores).filter _
  rw [filterMap_issues_check hconfig hcheck, hnodup.count]
  simp only [List.mem_filter]

/-- A project with these source files and an empty catalog. -/
def projectOf (sources : List (String × String)) : Project :=
  ⟨.folder [
    ("src", .folder (sources.map fun source => (source.1, .text source.2))),
    ("locales", .folder [("pt.json", .text "\x7b\x7d")])]⟩

/-- A file that does not parse is named beside one that does. -/
theorem check_names_broken_sources_beside :
    let project := projectOf [("a.ts", "__\x60hi\x60;"), ("b.ts", "const = __\x60x\x60")]
    ∃ result after, project.check {} = .ok (result, after)
      ∧ (result.issues.filterMap Issue.brokenSource?).count "./src/a.ts" = 0
      ∧ (result.issues.filterMap Issue.brokenSource?).count "./src/b.ts" = 1 := by
  intro project
  have hnames : Path.IsName "src" ∧ Path.IsName "a.ts" ∧ Path.IsName "b.ts"
      ∧ Path.IsName "locales" ∧ Path.IsName "pt.json" := by decide +kernel
  have hw : project.top.WellFormed := by
    simp [project, projectOf, Node.WellFormed, Node.AllWellFormed, hnames]
  have hsources : (project.checkSources {}).Perm ["./src/a.ts", "./src/b.ts"] :=
    files_scanSources_perm.trans (.of_eq (by decide +kernel))
  obtain ⟨result, after, hcheck, hcount⟩ := check_names_broken_sources hw
    (show project.checkConfig {} = .ok {} by decide +kernel) (by decide +kernel)
    ⟨"./src/a.ts", hsources.mem_iff.2 (by decide), ⟨.ofList ["hi"], .empty⟩, by decide +kernel,
      by decide +kernel⟩
  refine ⟨result, after, hcheck, ?_, ?_⟩
  · rw [hcount, if_neg fun h => absurd h.2 (by decide +kernel)]
  · rw [hcount, if_pos ⟨hsources.mem_iff.2 (by decide), by decide +kernel⟩]

/-- A project with a file that does not parse and that no marker can occur in. -/
def unmarkedProject : Project := projectOf [("a.ts", "__\x60hi\x60;"), ("b.ts", "const = ;")]

/-- A project whose one source file does not parse. -/
def keylessProject : Project := projectOf [("b.ts", "const = __\x60x\x60")]

/-- **A file that does not parse can go unnoticed**: the filter leaves it unread if no marker can
occur in it, and a check that finds no key ends before it names a file. -/
theorem check_misses_broken_sources :
    ("./src/b.ts" ∈ unmarkedProject.checkSources {}
        ∧ unmarkedProject.isBroken { prefilter := false } "./src/b.ts" = true
        ∧ ∃ result after, unmarkedProject.check {} = .ok (result, after)
          ∧ result.issues.filterMap Issue.brokenSource? = [])
      ∧ "./src/b.ts" ∈ keylessProject.checkSources {}
      ∧ keylessProject.isBroken {} "./src/b.ts" = true
      ∧ (keylessProject.check {}).map (fun checked => checked.1.issues)
        = .error (.library (.noUsages "./src")) := by
  refine ⟨?_, by decide +kernel⟩
  have hsources : (unmarkedProject.checkSources {}).Perm ["./src/a.ts", "./src/b.ts"] :=
    files_scanSources_perm.trans (.of_eq (by decide +kernel))
  have hconfig : unmarkedProject.checkConfig {} = .ok {} := by decide +kernel
  obtain ⟨result, after, hcheck⟩ := exists_check_eq_ok hconfig (by decide +kernel)
    ⟨"./src/a.ts", hsources.mem_iff.2 (by decide), ⟨.ofList ["hi"], .empty⟩, by decide +kernel,
      by decide +kernel⟩
  refine ⟨hsources.mem_iff.2 (by decide), by decide +kernel, result, after, hcheck, ?_⟩
  rw [filterMap_issues_check hconfig hcheck]
  exact ((hsources.filter _).trans (.of_eq (by decide +kernel))).eq_nil

end Project

end Phrasebook
