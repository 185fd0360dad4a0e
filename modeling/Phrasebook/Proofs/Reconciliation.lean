import Phrasebook.Reconciliation
import Phrasebook.Proofs.Drift.Stable
import Phrasebook.Proofs.Json.Readable
import Phrasebook.Proofs.Project.Tree

/-!
# Proofs/Reconciliation — what a fix does to one catalog file

    read ──▸ parse ──▸ diff ──▸ fix ──▸ render ──▸ write
      ▴                                              │
      └──────────────── the second run ──────────────┘

A fix that is not stopped by a marker leaves the rendered fixed catalog in the file, whether it had
to write it or not, and no other path reads anything new.  What it leaves reads back, so a second
fix finds a fixed catalog and writes nothing.
-/

namespace Phrasebook.Project

open Json

variable {project : Project} {file : CatalogFile} {usages : KeyUsages} {isDefault : Bool}
  {path text : String} {catalog : Catalog}

theorem loadCatalog_eq_ok_iff :
    project.loadCatalog path = .ok catalog
      ↔ ∃ text, project.read path = .ok text ∧ Catalog.parse text = .ok catalog := by
  rw [loadCatalog]
  cases project.read path with
  | error fault => simp
  | ok text =>
    cases hparse : Catalog.parse text with
    | ok found => simp [Catalog.parseAt, hparse]
    | error error => cases error <;> simp [Catalog.parseAt, hparse]

/-! ## One fix -/

/-- The report of a fix of a file that holds this catalog. -/
def fixReport (file : CatalogFile) (catalog : Catalog) (usages : KeyUsages) (isDefault : Bool)
    (written : Bool) : CatalogReport where
  locale := file.locale
  path := file.path
  isDefault
  diff := (catalog.diff usages isDefault).1
  outcome := some ((catalog.kept usages).fix (catalog.diff usages isDefault).1 usages).1
  written

theorem reconcileCatalog_fix_eq (hread : project.read file.path = .ok text)
    (hparse : Catalog.parse text = .ok catalog) :
    project.reconcileCatalog file usages isDefault .fix
      = if ((catalog.kept usages).fix (catalog.diff usages isDefault).1 usages).1
            = .hasMissingTranslations ∨ (catalog.fixed usages isDefault).render = text then
          (fixReport file catalog usages isDefault false, project)
        else
          match project.write file.path (catalog.fixed usages isDefault).render with
          | .ok project => (fixReport file catalog usages isDefault true, project)
          | .error fault =>
            ({ fixReport file catalog usages isDefault false with
               error := some (Error.file file.path fault).message }, project) := by
  rw [reconcileCatalog, hread]
  simp only [hparse]
  rfl

/-- A marker that is the only drift keeps the file as it is. -/
theorem reconcileCatalog_of_onlyMarkerLeft (hread : project.read file.path = .ok text)
    (hparse : Catalog.parse text = .ok catalog)
    (hm : (catalog.diff usages isDefault).1.onlyMarkerLeft = true) :
    project.reconcileCatalog file usages isDefault .fix
      = (fixReport file catalog usages isDefault false, project) := by
  rw [reconcileCatalog_fix_eq hread hparse,
    if_pos (.inl (Catalog.fix_fst_eq_hasMissingTranslations_iff.2 hm))]

/-- **A fix leaves the fixed catalog in the file**: it succeeds, whether it has to write or not, and
no path reads anything but what it read before or the fixed catalog. -/
theorem reconcileCatalog_fix (hread : project.read file.path = .ok text)
    (hparse : Catalog.parse text = .ok catalog)
    (hm : (catalog.diff usages isDefault).1.onlyMarkerLeft = false) :
    ∃ written after,
      project.reconcileCatalog file usages isDefault .fix
          = (fixReport file catalog usages isDefault written, after)
        ∧ (written = false ↔ (catalog.fixed usages isDefault).render = text)
        ∧ (written = false → after = project)
        ∧ after.top.shape = project.top.shape
        ∧ after.read file.path = .ok (catalog.fixed usages isDefault).render
        ∧ ∀ other content, project.read other = .ok content →
          after.read other = .ok content
            ∨ after.read other = .ok (catalog.fixed usages isDefault).render := by
  have houtcome : ((catalog.kept usages).fix (catalog.diff usages isDefault).1 usages).1
      ≠ .hasMissingTranslations := by
    rw [Ne, Catalog.fix_fst_eq_hasMissingTranslations_iff, hm]
    decide
  rw [reconcileCatalog_fix_eq hread hparse]
  by_cases hsame : (catalog.fixed usages isDefault).render = text
  · refine ⟨false, project, if_pos (.inr hsame), by simp [hsame], fun _ => rfl, rfl, hsame ▸ hread,
      fun other content h => .inl h⟩
  · obtain ⟨after, hwrite, hshape, hafter, hothers⟩ :=
      read_write hread (catalog.fixed usages isDefault).render
    refine ⟨true, after, ?_, by simp [hsame], (fun h => nomatch h), hshape, hafter, hothers⟩
    rw [if_neg (not_or.2 ⟨houtcome, hsame⟩), hwrite]

/-! ## A second fix -/

/-- What a fix leaves reads back, with each number as its text reads. -/
theorem parse_render_fixed_reread (hparse : Catalog.parse text = .ok catalog) (usages : KeyUsages)
    (isDefault : Bool) :
    Catalog.parse (catalog.fixed usages isDefault).render
      = .ok ((catalog.fixed usages isDefault).mapNumbers Number.reread) := by
  have hhalf : (Number.whole 50).Readable := ⟨_, rereads_whole ⟨by decide, by decide⟩⟩
  have hreadable : (catalog.fixed usages isDefault).Canonical Number.Readable :=
    Catalog.canonical_fixed hhalf (Catalog.canonical_of_parse holdsOfNumbers_readable hparse)
  exact Catalog.parse_render (hreadable.imp fun n _ hn => hn.rereads)

/-- What a fix leaves reads back as it is, if its doubles do. -/
theorem parse_render_fixed (hparse : Catalog.parse text = .ok catalog)
    (hn : ∀ d, Number.double d ∈ (catalog.fixed usages isDefault).numbers →
      Json.parse (Number.double d).text = .ok (.number (.double d))) :
    Catalog.parse (catalog.fixed usages isDefault).render
      = .ok (catalog.fixed usages isDefault) := by
  have hrange : (catalog.fixed usages isDefault).Canonical Number.InRange :=
    Catalog.canonical_fixed ⟨by decide, by decide⟩
      (Catalog.canonical_of_parse holdsOfNumbers_inRange hparse)
  exact Catalog.parse_render_of_doubles hrange hn

/-- **A second fix of a fixed file writes nothing**: it finds the file up to date, or waiting for
translations. -/
theorem reconcileCatalog_of_fixed (hs : Catalog.sentinelKey ∉ usages.allKeys.toList)
    (hm : (catalog.diff usages isDefault).1.onlyMarkerLeft = false)
    (hread : project.read file.path = .ok (catalog.fixed usages isDefault).render)
    (hparse : Catalog.parse (catalog.fixed usages isDefault).render
      = .ok (catalog.fixed usages isDefault)) :
    project.reconcileCatalog file usages isDefault .fix
        = (fixReport file (catalog.fixed usages isDefault) usages isDefault false, project)
      ∧ ((fixReport file (catalog.fixed usages isDefault) usages isDefault false).outcome
          = some .upToDate
        ∨ (fixReport file (catalog.fixed usages isDefault) usages isDefault false).outcome
          = some .hasMissingTranslations) := by
  rw [reconcileCatalog_fix_eq hread hparse]
  rcases Catalog.fix_diff_fixed hs hm with hfix | hfix
  · have hstays : (catalog.fixed usages isDefault).fixed usages isDefault
        = catalog.fixed usages isDefault := by
      have hsnd := congrArg Prod.snd hfix
      exact hsnd
    exact ⟨if_pos (.inr (by rw [hstays])), .inl (congrArg some (congrArg Prod.fst hfix))⟩
  · exact ⟨if_pos (.inl (congrArg Prod.fst hfix)),
      .inr (congrArg some (congrArg Prod.fst hfix))⟩

/-- A file that holds no catalog is left alone. -/
theorem reconcileCatalog_of_loadCatalog_error {error : Error}
    (h : project.loadCatalog file.path = .error error) (usages : KeyUsages) (isDefault : Bool)
    (mode : Mode) :
    ∃ report, project.reconcileCatalog file usages isDefault mode = (report, project)
      ∧ report.error.isSome ∧ report.written = false := by
  rw [reconcileCatalog]
  cases hread : project.read file.path with
  | error fault => exact ⟨_, rfl, rfl, rfl⟩
  | ok text =>
    cases hparse : Catalog.parse text with
    | error error =>
      simp only [hparse]
      exact ⟨_, rfl, rfl, rfl⟩
    | ok catalog =>
      rw [loadCatalog_eq_ok_iff.2 ⟨text, hread, hparse⟩] at h
      cases h

/-- **Fixing twice is fixing once.**  After one fix a second one leaves the project alone, writes
nothing, and finds the catalog up to date or waiting for translations; a file that holds no catalog
is left alone both times, with the same report. -/
theorem reconcileCatalog_fix_twice (project : Project) (file : CatalogFile) (usages : KeyUsages)
    (isDefault : Bool) (hs : Catalog.sentinelKey ∉ usages.allKeys.toList)
    (hn : ∀ catalog, project.loadCatalog file.path = .ok catalog →
      ∀ d, Number.double d ∈ (catalog.fixed usages isDefault).numbers →
        Json.parse (Number.double d).text = .ok (.number (.double d))) :
    let first := project.reconcileCatalog file usages isDefault .fix
    let second := first.2.reconcileCatalog file usages isDefault .fix
    second.2 = first.2 ∧ second.1.written = false ∧
      match project.loadCatalog file.path with
      | .ok _ =>
        second.1.error = none ∧ (second.1.outcome = some .upToDate
          ∨ second.1.outcome = some .hasMissingTranslations)
      | .error _ => second.1 = first.1 ∧ first.1.error.isSome := by
  intro first second
  cases hload : project.loadCatalog file.path with
  | error error =>
    obtain ⟨report, hfirst, herror, hwritten⟩ :=
      reconcileCatalog_of_loadCatalog_error hload usages isDefault .fix
    have hsecond : second = (report, project) := by
      simp only [second, first, hfirst]
    simp only [hsecond, first, hfirst, hwritten, herror, and_self]
  | ok catalog =>
    obtain ⟨text, hread, hparse⟩ := loadCatalog_eq_ok_iff.1 hload
    cases hm : (catalog.diff usages isDefault).1.onlyMarkerLeft with
    | true =>
      have hfirst := reconcileCatalog_of_onlyMarkerLeft hread hparse hm
      have hsecond : second = (fixReport file catalog usages isDefault false, project) := by
        simp only [second, first, hfirst]
      have hmissing : (fixReport file catalog usages isDefault false).outcome
          = some .hasMissingTranslations :=
        congrArg some (Catalog.fix_fst_eq_hasMissingTranslations_iff.2 hm)
      refine ⟨?_, ?_, ?_⟩
      · simp only [hsecond, first, hfirst]
      · rw [hsecond]
        rfl
      · rw [hsecond]
        exact ⟨rfl, .inr hmissing⟩
    | false =>
      obtain ⟨written, after, hfirst, -, -, -, hafter, -⟩ := reconcileCatalog_fix hread hparse hm
      have hback := parse_render_fixed hparse (hn catalog hload)
      obtain ⟨hagain, houtcome⟩ := reconcileCatalog_of_fixed hs hm hafter hback
      have hsecond : second
          = (fixReport file (catalog.fixed usages isDefault) usages isDefault false, after) := by
        simp only [second, first, hfirst, hagain]
      refine ⟨?_, ?_, ?_⟩
      · simp only [hsecond, first, hfirst]
      · rw [hsecond]
        rfl
      · rw [hsecond]
        exact ⟨rfl, houtcome⟩

/-- A project with one catalog, whose rule set has a double for its limit. -/
def limitProject : Project :=
  ⟨.folder [("de.json",
    .text "\x7b\"p\":\x7b\"zero\":\"none\",\"manyLimit\":2.5\x7d,\"x\":null\x7d")]⟩

/-- Usages that keep the rule set, drop the other key and add a third one. -/
def limitUsages : KeyUsages := { scalar := .ofList ["a"], plural := .ofList ["p"] }

/-- The double of the one catalog reads back. -/
theorem parse_text_limitProject (catalog : Catalog)
    (hload : limitProject.loadCatalog "de.json" = .ok catalog) (d : Float)
    (hd : Number.double d ∈ (catalog.fixed limitUsages false).numbers) :
    Json.parse (Number.double d).text = .ok (.number (.double d)) := by
  have hnumbers : (limitProject.loadCatalog "de.json").toOption.map
      (fun catalog => (catalog.fixed limitUsages false).numbers) = some [.double 2.5] := by
    decide +kernel
  rw [hload, Except.toOption, Option.map_some, Option.some.injEq] at hnumbers
  rw [hnumbers, List.mem_singleton] at hd
  obtain rfl := Number.double.inj hd
  exact Catalog.parse_text_half

/-- A fix that writes the one catalog, and the fix after it. -/
theorem reconcileCatalog_fix_twice_limitProject :
    let first := limitProject.reconcileCatalog ⟨"de", "de.json"⟩ limitUsages false .fix
    let second := first.2.reconcileCatalog ⟨"de", "de.json"⟩ limitUsages false .fix
    first.1.written = true ∧ second.2 = first.2 ∧ second.1.written = false :=
  have htwice := reconcileCatalog_fix_twice limitProject ⟨"de", "de.json"⟩ limitUsages false
    (by decide +kernel) parse_text_limitProject
  ⟨by decide +kernel, htwice.1, htwice.2.1⟩

end Phrasebook.Project
