import Phrasebook.Proofs.Project.Places
import Phrasebook.Proofs.Reconciliation

/-!
# Proofs/Reconciliation/Frame — each catalog file is reconciled as if it were alone

    project ──a.json──▸ · ──b.json──▸ · ──c.json──▸ after
       │                                              │
       └────────────────── b.json ──▸ alone           │
                                        └─── same ────┘  at the place of b.json

One reconciliation either leaves the project alone or writes over the text of its file
(`reconcileCatalog_cases`), so it touches one place only, and it reads nothing else.  Reconciling
files at different places one after the other therefore **gives each file the report and the text
that it would get on its own** (`reconcileEach_alone`).
-/

namespace Phrasebook.Project

variable {project after : Project} {file : CatalogFile} {files : List CatalogFile}
  {usages : KeyUsages} {defaultLocale : Option String} {isDefault : Bool} {mode : Mode}
  {place : List String} {touched : List String → Prop}

/-! ## One file -/

/-- **What one reconciliation can do to a project**: nothing, or put the fixed catalog in the place
of a text that is another one. -/
theorem reconcileCatalog_cases (project : Project) (file : CatalogFile) (usages : KeyUsages)
    (isDefault : Bool) (mode : Mode) :
    (project.reconcileCatalog file usages isDefault mode).2 = project
      ∨ mode = .fix ∧ ∃ text catalog after, project.read file.path = .ok text
        ∧ Catalog.parse text = .ok catalog
        ∧ (catalog.fixed usages isDefault).render ≠ text
        ∧ project.write file.path (catalog.fixed usages isDefault).render = .ok after
        ∧ project.reconcileCatalog file usages isDefault mode
          = (fixReport file catalog usages isDefault true, after) := by
  cases hload : project.loadCatalog file.path with
  | error error =>
    obtain ⟨report, hreport, -⟩ := reconcileCatalog_of_loadCatalog_error hload usages isDefault mode
    exact .inl (congrArg Prod.snd hreport)
  | ok catalog =>
    obtain ⟨text, hread, hparse⟩ := loadCatalog_eq_ok_iff.1 hload
    cases mode with
    | report =>
      rw [reconcileCatalog, hread]
      simp only [hparse, true_or]
    | fix =>
      rw [reconcileCatalog_fix_eq hread hparse]
      split
      · exact .inl rfl
      · rename_i hwrites
        obtain ⟨after, hwrite, -⟩ := read_write hread (catalog.fixed usages isDefault).render
        rw [hwrite]
        exact .inr ⟨rfl, text, catalog, after, hread, hparse, fun he => hwrites (.inr he), hwrite,
          rfl⟩

/-- **One reconciliation touches its file only.** -/
theorem sameBut_reconcileCatalog (project : Project) (file : CatalogFile) (usages : KeyUsages)
    (isDefault : Bool) (mode : Mode) :
    SameBut (project.LeadsTo file.path) project
      (project.reconcileCatalog file usages isDefault mode).2 := by
  rcases reconcileCatalog_cases project file usages isDefault mode with
    h | ⟨-, text, catalog, after, hread, -, -, hwrite, h⟩
  · rw [h]
    exact .refl _ project
  · obtain ⟨target, htarget, -⟩ := read_eq_ok_iff.1 hread
    obtain ⟨after', hwrite', hshape, hfiles⟩ :=
      fileAt_write hread htarget (catalog.fixed usages isDefault).render
    obtain rfl : after' = after := Except.ok.inj (hwrite'.symm.trans hwrite)
    rw [h]
    refine ⟨hshape, fun place hplace => ?_⟩
    rw [hfiles, if_neg]
    rintro rfl
    exact hplace (leadsTo_of_read hread htarget)

/-- **One reconciliation depends on its own file only**: where the file is the same, so are its
report and its text afterwards. -/
theorem reconcileCatalog_congr (h : SameBut touched project after)
    (hfile : ∀ place, project.LeadsTo file.path place → ¬ touched place)
    (usages : KeyUsages) (isDefault : Bool) (mode : Mode) :
    (after.reconcileCatalog file usages isDefault mode).1
        = (project.reconcileCatalog file usages isDefault mode).1
      ∧ ∀ place, project.resolve file.path = .ok place →
        (after.reconcileCatalog file usages isDefault mode).2.fileAt place
          = (project.reconcileCatalog file usages isDefault mode).2.fileAt place := by
  have hsame : ∀ place, project.resolve file.path = .ok place →
      after.fileAt place = project.fileAt place :=
    fun place hp => h.fileAt_eq fun hsome => hfile place ⟨hp, hsome⟩
  have hread := h.read hfile
  cases hr : project.read file.path with
  | error fault =>
    rw [reconcileCatalog, reconcileCatalog, hread, hr]
    exact ⟨rfl, hsame⟩
  | ok text =>
    rw [hr] at hread
    cases hparse : Catalog.parse text with
    | error error =>
      rw [reconcileCatalog, reconcileCatalog, hread, hr]
      simp only [hparse]
      exact ⟨trivial, hsame⟩
    | ok catalog =>
      cases mode with
      | report =>
        rw [reconcileCatalog, reconcileCatalog, hread, hr]
        simp only [hparse]
        exact ⟨trivial, hsame⟩
      | fix =>
        rw [reconcileCatalog_fix_eq hread hparse, reconcileCatalog_fix_eq hr hparse]
        split
        · exact ⟨rfl, hsame⟩
        · obtain ⟨target, htarget, -⟩ := read_eq_ok_iff.1 hr
          have htarget' : after.resolve file.path = .ok target := (h.resolve _).trans htarget
          obtain ⟨fixed, hwrite, -, hfiles⟩ := fileAt_write hr htarget
            (catalog.fixed usages isDefault).render
          obtain ⟨fixed', hwrite', -, hfiles'⟩ := fileAt_write hread htarget'
            (catalog.fixed usages isDefault).render
          rw [hwrite, hwrite']
          refine ⟨rfl, fun place hp => ?_⟩
          rw [hfiles, hfiles', hsame place hp]

/-! ## All files -/

/-- What reconciling one catalog file on its own gives. -/
def reconcileAlone (project : Project) (usages : KeyUsages) (defaultLocale : Option String)
    (mode : Mode) (file : CatalogFile) : CatalogReport × Project :=
  project.reconcileCatalog file usages (defaultLocale == some file.locale) mode

/-- **Reconciling files touches these files only.** -/
theorem sameBut_reconcileEach (project : Project) (usages : KeyUsages)
    (defaultLocale : Option String) (mode : Mode) (files : List CatalogFile) :
    SameBut (fun place => ∃ file ∈ files, project.LeadsTo file.path place) project
      (project.reconcileEach usages defaultLocale mode files).2 := by
  induction files generalizing project with
  | nil => exact .refl _ project
  | cons file rest ih =>
    have hfirst := sameBut_reconcileCatalog project file usages (defaultLocale == some file.locale)
      mode
    have hrest := ih
      (project.reconcileCatalog file usages (defaultLocale == some file.locale) mode).2
    rw [reconcileEach]
    refine (hfirst.mono fun place hp => ⟨file, List.mem_cons_self, hp⟩).trans
      (hrest.mono ?_)
    rintro place ⟨other, hother, hp⟩
    exact ⟨other, List.mem_cons_of_mem _ hother, hfirst.leadsTo_iff.1 hp⟩

/-- Whether no two of the paths lead to the same file. -/
def OwnFiles (project : Project) (files : List CatalogFile) : Prop :=
  files.Pairwise fun a b => ∀ place, project.LeadsTo a.path place → ¬ project.LeadsTo b.path place

theorem OwnFiles.of_resolve_ne
    (h : files.Pairwise fun a b => project.resolve a.path ≠ project.resolve b.path) :
    project.OwnFiles files :=
  h.imp fun hne _ ha hb => hne (ha.1.trans hb.1.symm)

/-- **The catalogs at or below a folder are files of their own.** -/
theorem ownFiles_findCatalogs (hw : project.top.WellFormed) (base : String) :
    project.OwnFiles (project.findCatalogs base) :=
  .of_resolve_ne (findCatalogs_places hw base).1

/-- **Files of their own are reconciled as if each were alone.** -/
theorem reconcileEach_alone (usages : KeyUsages) (defaultLocale : Option String) (mode : Mode)
    (hd : project.OwnFiles files) :
    (project.reconcileEach usages defaultLocale mode files).1
        = files.map (fun file => (project.reconcileAlone usages defaultLocale mode file).1)
      ∧ ∀ file ∈ files, ∀ place, project.resolve file.path = .ok place →
        (project.reconcileEach usages defaultLocale mode files).2.fileAt place
          = (project.reconcileAlone usages defaultLocale mode file).2.fileAt place := by
  induction files generalizing project with
  | nil => exact ⟨rfl, fun _ h => absurd h List.not_mem_nil⟩
  | cons first rest ih =>
    obtain ⟨hfirst, hrest⟩ := List.pairwise_cons.1 hd
    obtain ⟨step, hstep⟩ : ∃ step, project.reconcileAlone usages defaultLocale mode first = step :=
      ⟨_, rfl⟩
    have hsame : SameBut (project.LeadsTo first.path) project step.2 :=
      hstep ▸ sameBut_reconcileCatalog project first usages _ mode
    -- the other files are not where the first one is, so its step makes no difference to them
    have hcongr : ∀ file ∈ rest,
        (step.2.reconcileAlone usages defaultLocale mode file).1
            = (project.reconcileAlone usages defaultLocale mode file).1
          ∧ ∀ place, project.resolve file.path = .ok place →
            (step.2.reconcileAlone usages defaultLocale mode file).2.fileAt place
              = (project.reconcileAlone usages defaultLocale mode file).2.fileAt place :=
      fun file hfile => reconcileCatalog_congr hsame
        (fun place hp hp' => hfirst file hfile place hp' hp) usages _ mode
    have hpairs : step.2.OwnFiles rest := by
      simpa only [OwnFiles, hsame.leadsTo_iff] using hrest
    obtain ⟨hreports, hfiles⟩ := ih hpairs
    have heach : project.reconcileEach usages defaultLocale mode (first :: rest)
        = (step.1 :: (step.2.reconcileEach usages defaultLocale mode rest).1,
          (step.2.reconcileEach usages defaultLocale mode rest).2) := hstep ▸ rfl
    rw [heach]
    refine ⟨?_, fun file hfile place hp => ?_⟩
    · rw [List.map_cons, hstep, hreports]
      exact congrArg (step.1 :: ·) (List.map_congr_left fun file hfile => (hcongr file hfile).1)
    · rcases List.mem_cons.1 hfile with rfl | hfile
      · rw [hstep]
        refine (sameBut_reconcileEach step.2 usages defaultLocale mode rest).fileAt_eq ?_
        rintro hsome ⟨other, hother, hp'⟩
        rw [hsame.isSome_fileAt] at hsome
        exact hfirst other hother place ⟨hp, hsome⟩ (hsame.leadsTo_iff.1 hp')
      · rw [hfiles file hfile place ((hsame.resolve _).trans hp)]
        exact (hcongr file hfile).2 place hp

end Phrasebook.Project
