import Mathlib.Data.List.Induction
import Phrasebook.Config
import Phrasebook.Proofs.Project.Glob
import Phrasebook.Proofs.Project.Walk

/-!
# Proofs/Project/Sources — which files a scan of the sources finds

    ignores: "gen", "**/*.test.ts"       src/a.ts   src/gen2/z.ts   found
                                         src/gen/y.ts               below `src/gen`
                                         src/a.test.ts              stood for by the second pattern

A pattern without wildcards is a path inside of the base, which leaves out all that lies at or below
it, component by component; one with wildcards leaves out each path that it stands for.  **A scan
finds the files with a listed extension that can be reached past nothing that is left out**
(`mem_scanSources_iff`).  A configuration that is accepted has no pattern that a scan would drop,
and each pattern more leaves out more (`scanSources_selects`).
-/

namespace Phrasebook

variable {base path pattern : String} {patterns more extensions : List String} {node : Node}

/-! ## Patterns -/

/-- The pattern is read as a path, since it has no wildcard. -/
def IsLiteral (pattern : String) : Prop := '*' ∉ pattern.toList ∧ '?' ∉ pattern.toList

theorem hasWildcard_eq_false_iff : Ignores.hasWildcard pattern = false ↔ IsLiteral pattern := by
  rw [Ignores.hasWildcard, List.any_eq_false, IsLiteral]
  constructor
  · exact fun h => ⟨fun hstar => h '*' hstar rfl, fun hmark => h '?' hmark rfl⟩
  · intro h c hc
    have hstar : c ≠ '*' := fun he => h.1 (he ▸ hc)
    have hmark : c ≠ '?' := fun he => h.2 (he ▸ hc)
    simp [hstar, hmark]

theorem hasWildcard_iff : Ignores.hasWildcard pattern = true ↔ ¬ IsLiteral pattern := by
  rw [← hasWildcard_eq_false_iff, Bool.not_eq_false]

namespace Ignores

/-- **Patterns are sorted into paths, patterns with wildcards, and malformed ones.** -/
theorem ofPatterns_eq (base : String) (patterns : List String) :
    ofPatterns base patterns =
      { paths := (patterns.filter (!hasWildcard ·)).map (Path.join base)
        globs := (patterns.filter hasWildcard).filterMap fun pattern =>
          (Glob.parse pattern).toOption
        malformed := patterns.filter fun pattern =>
          hasWildcard pattern && !(Glob.parse pattern).isOk } := by
  induction patterns using List.reverseRecOn with
  | nil => rfl
  | append_singleton patterns pattern ih =>
    rw [ofPatterns, List.foldl_append, List.foldl_cons, List.foldl_nil, ← ofPatterns, ih, add]
    cases hwild : hasWildcard pattern with
    | false => simp [hwild]
    | true =>
      cases hparse : Glob.parse pattern with
      | ok glob => simp [hwild, hparse, Except.toOption, Except.isOk, Except.toBool]
      | error fault => simp [hwild, hparse, Except.toOption, Except.isOk, Except.toBool]

theorem mem_paths_iff : path ∈ (ofPatterns base patterns).paths
    ↔ ∃ pattern ∈ patterns, IsLiteral pattern ∧ Path.join base pattern = path := by
  simp only [ofPatterns_eq, List.mem_map, List.mem_filter, Bool.not_eq_true',
    hasWildcard_eq_false_iff, and_assoc]

theorem toOption_eq_some_iff {ε α : Type} {result : Except ε α} {value : α} :
    result.toOption = some value ↔ result = .ok value := by
  cases result <;> simp [Except.toOption]

theorem mem_globs_iff {glob : List Glob.Part} : glob ∈ (ofPatterns base patterns).globs
    ↔ ∃ pattern ∈ patterns, ¬ IsLiteral pattern ∧ Glob.parse pattern = .ok glob := by
  simp only [ofPatterns_eq, List.mem_filterMap, List.mem_filter, hasWildcard_iff,
    toOption_eq_some_iff, and_assoc]

theorem malformed_eq_nil_iff : (ofPatterns base patterns).malformed = []
    ↔ ∀ pattern ∈ patterns, ¬ IsLiteral pattern → ∃ glob, Glob.parse pattern = .ok glob := by
  rw [ofPatterns_eq, List.filter_eq_nil_iff]
  refine forall₂_congr fun pattern _ => ?_
  rw [← hasWildcard_iff]
  cases hasWildcard pattern with
  | false => simp
  | true => cases Glob.parse pattern <;> simp [Except.isOk, Except.toBool]

end Ignores

/-- **An accepted configuration has no malformed pattern.** -/
theorem Config.firstMalformed_eq_none_iff : Config.firstMalformed patterns = none
    ↔ ∀ pattern ∈ patterns, ¬ IsLiteral pattern → ∃ glob, Glob.parse pattern = .ok glob := by
  induction patterns with
  | nil => simp [firstMalformed]
  | cons pattern patterns ih =>
    rw [firstMalformed, List.forall_mem_cons, ← ih, ← hasWildcard_iff]
    cases hwild : Ignores.hasWildcard pattern with
    | false => simp
    | true => cases Glob.parse pattern <;> simp

theorem Config.parse_of_validate {config : Config} (h : config.validate = none) :
    ∀ pattern ∈ config.ignores, ¬ IsLiteral pattern → ∃ glob, Glob.parse pattern = .ok glob := by
  rw [← firstMalformed_eq_none_iff]
  rw [validate] at h
  split at h
  · cases h
  · assumption

namespace Project

variable {project : Project}

/-! ## What a scan leaves out -/

/-- What a scan of the base with these ignore patterns leaves out: folders that are never entered,
what lies at or below a literal pattern inside of the base, component by component, and the paths
that a pattern with wildcards stands for. -/
inductive LeftOut (base : String) (patterns : List String) (path : String) (node : Node) : Prop
  | folder : SkippedFolder path node → LeftOut base patterns path node
  | literal {pattern : String} : pattern ∈ patterns → IsLiteral pattern →
    Path.components (Path.join base pattern) <+: Path.components path →
      LeftOut base patterns path node
  | glob {pattern : String} {parts : List Glob.Part} : pattern ∈ patterns → ¬ IsLiteral pattern →
    Glob.parse pattern = .ok parts → Glob.Matches parts path.toList →
      LeftOut base patterns path node

theorem ignores_iff : (Ignores.ofPatterns base patterns).ignores path = true
    ↔ (∃ pattern ∈ patterns, IsLiteral pattern
        ∧ Path.components (Path.join base pattern) <+: Path.components path)
      ∨ ∃ pattern ∈ patterns, ¬ IsLiteral pattern
        ∧ ∃ parts, Glob.parse pattern = .ok parts ∧ Glob.Matches parts path.toList := by
  simp only [Ignores.ignores, Bool.or_eq_true, List.any_eq_true, Ignores.mem_paths_iff,
    Ignores.mem_globs_iff, Path.startsWith, List.isPrefixOf_iff_prefix, Glob.matchesText_iff]
  grind

theorem keeps_iff :
    (!isSkipped path node && !(Ignores.ofPatterns base patterns).ignores path) = true
      ↔ ¬ LeftOut base patterns path node := by
  rw [← Bool.not_or, Bool.not_eq_true', ← Bool.not_eq_true, Bool.or_eq_true, isSkipped_iff,
    ignores_iff]
  refine not_congr ⟨?_, ?_⟩
  · rintro (h | ⟨pattern, hmem, hliteral, h⟩ | ⟨pattern, hmem, hliteral, parts, hparse, h⟩)
    · exact .folder h
    · exact .literal hmem hliteral h
    · exact .glob hmem hliteral hparse h
  · rintro (h | ⟨hmem, hliteral, h⟩ | ⟨hmem, hliteral, hparse, h⟩)
    · exact .inl h
    · exact .inr (.inl ⟨_, hmem, hliteral, h⟩)
    · exact .inr (.inr ⟨_, hmem, hliteral, _, hparse, h⟩)

/-- More patterns leave out more. -/
theorem LeftOut.mono (h : LeftOut base patterns path node) (hsubset : patterns ⊆ more) :
    LeftOut base more path node := by
  obtain h | ⟨hmem, hliteral, h⟩ | ⟨hmem, hliteral, hparse, h⟩ := h
  · exact .folder h
  · exact .literal (hsubset hmem) hliteral h
  · exact .glob (hsubset hmem) hliteral hparse h

/-! ## What a scan finds -/

/-- **A scan finds the files with a listed extension that can be reached** past nothing that is left
out. -/
theorem mem_scanSources_iff (hw : project.top.WellFormed) :
    path ∈ (project.scanSources base extensions patterns).files
      ↔ project.Reaches (LeftOut base patterns) base path
        ∧ ∃ extension ∈ extensions, Path.extension? path = some extension := by
  rw [files_scanSources_perm.mem_iff]
  cases hfind : project.find base with
  | error fault =>
    exact iff_of_false List.not_mem_nil fun h => not_reaches_of_error hfind h.1
  | ok node =>
    rw [List.mem_filter, hasExtension_iff,
      mem_walk_iff_reaches hw hfind fun path node => keeps_iff]

theorem malformed_scanSources :
    (project.scanSources base extensions patterns).malformed
      = (Ignores.ofPatterns base patterns).malformed := by
  rw [scanSources]
  cases project.find base <;> rfl

/-- **What a scan with an accepted configuration finds.**  Its files are those at or below the base
that have a listed extension and that no path on the way to them leaves out; each is listed once,
and in order.  Each ignore pattern counts, as a path or as a pattern with wildcards, and with more
of them no file is found that was not found before.  At or below a base that leads out of the
project there are no files. -/
theorem scanSources_selects (hw : project.top.WellFormed) {config : Config}
    (hvalid : config.validate = none) (base : String) :
    let scan := project.scanSources base config.extensions config.ignores
    (∀ path, path ∈ scan.files ↔ project.Reaches (LeftOut base config.ignores) base path
        ∧ ∃ extension ∈ config.extensions, Path.extension? path = some extension)
      ∧ scan.files.Pairwise (· < ·) ∧ scan.malformed = []
      ∧ (∀ pattern ∈ config.ignores,
          (IsLiteral pattern →
            Path.join base pattern ∈ (Ignores.ofPatterns base config.ignores).paths)
          ∧ (¬ IsLiteral pattern → ∃ parts, Glob.parse pattern = .ok parts
            ∧ parts ∈ (Ignores.ofPatterns base config.ignores).globs))
      ∧ ∀ more, config.ignores ⊆ more →
          (project.scanSources base config.extensions more).files ⊆ scan.files := by
  have hparse := Config.parse_of_validate hvalid
  refine ⟨fun path => mem_scanSources_iff hw, pairwise_scanSources hw _ _ _, ?_,
    fun pattern hpattern => ⟨fun hliteral => ?_, fun hwild => ?_⟩, fun more hmore path hpath => ?_⟩
  · rw [malformed_scanSources, Ignores.malformed_eq_nil_iff]
    exact hparse
  · exact Ignores.mem_paths_iff.2 ⟨pattern, hpattern, hliteral, rfl⟩
  · obtain ⟨parts, hparts⟩ := hparse pattern hpattern hwild
    exact ⟨parts, hparts, Ignores.mem_globs_iff.2 ⟨pattern, hpattern, hwild, hparts⟩⟩
  · obtain ⟨hreaches, hextension⟩ := (mem_scanSources_iff hw).1 hpath
    exact (mem_scanSources_iff hw).2
      ⟨hreaches.imp fun path node hout => hout.mono hmore, hextension⟩

/-- Sources beside generated ones, tests and installed packages. -/
def prunedProject : Project where
  top := .folder [("src", .folder [("a.ts", .text ""), ("a.test.ts", .text ""),
    ("gen", .folder [("y.ts", .text "")]), ("gen2", .folder [("z.ts", .text "")]),
    ("node_modules", .folder [("m.ts", .text "")])])]

theorem wellFormed_prunedProject : prunedProject.top.WellFormed := by
  have hnames : Path.IsName "src" ∧ Path.IsName "a.ts" ∧ Path.IsName "a.test.ts" ∧ Path.IsName "gen"
      ∧ Path.IsName "y.ts" ∧ Path.IsName "gen2" ∧ Path.IsName "z.ts" ∧ Path.IsName "node_modules"
      ∧ Path.IsName "m.ts" := by decide +kernel
  simp [prunedProject, Node.WellFormed, Node.AllWellFormed, hnames]

/-- The folder `gen` is left out and `gen2` is not, though its name starts alike; one pattern more
leaves it out too. -/
theorem scanSources_selects_prunedProject :
    let config : Config := { ignores := ["gen", "**/*.test.ts"] }
    let scan := prunedProject.scanSources "./src" config.extensions config.ignores
    prunedProject.top.WellFormed ∧ config.validate = none
      ∧ scan.files.Perm ["./src/a.ts", "./src/gen2/z.ts"] ∧ scan.malformed = []
      ∧ prunedProject.Reaches (LeftOut "./src" config.ignores) "./src" "./src/gen2/z.ts"
      ∧ ¬ prunedProject.Reaches (LeftOut "./src" config.ignores) "./src" "./src/gen/y.ts"
      ∧ (prunedProject.scanSources "./src" config.extensions
          (config.ignores ++ ["*/gen2"])).files ⊆ scan.files := by
  intro config scan
  have hvalid : config.validate = none := by decide +kernel
  have hfiles : scan.files.Perm ["./src/a.ts", "./src/gen2/z.ts"] :=
    files_scanSources_perm.trans (.of_eq (by decide +kernel))
  obtain ⟨hmem, -, hmalformed, -, hmore⟩ :=
    scanSources_selects wellFormed_prunedProject hvalid "./src"
  refine ⟨wellFormed_prunedProject, hvalid, hfiles, hmalformed, ?_, fun hreaches => ?_, ?_⟩
  · exact ((hmem _).1 (hfiles.mem_iff.2 (by decide))).1
  · have hgen := (hmem "./src/gen/y.ts").2 ⟨hreaches, "ts", by decide, by decide +kernel⟩
    exact absurd (hfiles.mem_iff.1 hgen) (by decide)
  · exact hmore _ (List.subset_append_left _ _)

end Project

end Phrasebook
