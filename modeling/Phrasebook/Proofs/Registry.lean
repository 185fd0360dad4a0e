import Mathlib.Data.List.Induction
import Phrasebook.Reconciliation
import Phrasebook.Proofs.Project.Catalogs

/-!
# Proofs/Registry — the registry of a folder holds its catalogs

    en.json  <  a/pt.json  <  b/pt.json
       │            │             │ load, then set the catalog of the locale
       ▾            ▾             ▾
      en           pt    ──▸     pt           the last one of a locale counts

Loading goes through the catalogs in order and stops at the first one that fails
(`foldlM_loadInto_of_find?`).  If none fails, a locale gets the catalog of its last file
(`get?_foldlM_loadInto`), which in an increasing list is the file with the greatest path.  Both ends
are determined by the set of the files, **whatever order a folder lists them in**.
-/

namespace Phrasebook.Project

variable {project other : Project} {base locale : String} {file : CatalogFile}
  {files : List CatalogFile} {registry : Registry} {catalog : Catalog} {error : Error}
  {node : Node}

/-! ## Loading one file after the other -/

/-- The registry with the catalog of one more file. -/
def loadInto (project : Project) (registry : Registry) (file : CatalogFile) :
    Except Error Registry :=
  (project.loadCatalog file.path).map (registry.insert file.locale)

theorem loadRegistry_eq (hfind : project.find base = .ok node) :
    project.loadRegistry base = (project.findCatalogs base).foldlM project.loadInto .empty := by
  rw [loadRegistry, hfind]
  rfl

theorem loadInto_eq_ok (h : project.loadCatalog file.path = .ok catalog) :
    project.loadInto registry file = .ok (registry.insert file.locale catalog) := by
  rw [loadInto, h]
  rfl

/-- **If every file loads, there is a registry**, and a locale has the catalog of its last file. -/
theorem get?_foldlM_loadInto
    (hload : ∀ file ∈ files, ∃ catalog, project.loadCatalog file.path = .ok catalog) :
    ∃ registry, files.foldlM project.loadInto .empty = .ok registry
      ∧ ∀ locale, Fields.get? locale registry.catalogs
        = (files.reverse.find? (·.locale = locale)).bind fun file =>
          (project.loadCatalog file.path).toOption := by
  induction files using List.reverseRecOn with
  | nil => exact ⟨.empty, rfl, fun locale => rfl⟩
  | append_singleton files file ih =>
    obtain ⟨hbefore, hlast⟩ := List.forall_mem_append.1 hload
    obtain ⟨registry, hregistry, hget⟩ := ih hbefore
    obtain ⟨catalog, hcatalog⟩ := hlast file (List.mem_singleton_self file)
    refine ⟨registry.insert file.locale catalog, ?_, fun locale => ?_⟩
    · have hone : [file].foldlM project.loadInto registry
          = .ok (registry.insert file.locale catalog) := by
        rw [List.foldlM_cons, loadInto_eq_ok hcatalog]
        rfl
      rw [List.foldlM_append, hregistry]
      exact hone
    · rw [Registry.insert, Fields.get?_put, hget, List.reverse_append, List.reverse_singleton,
        List.singleton_append, List.find?_cons]
      by_cases hlocale : file.locale = locale
      · simp [hlocale, hcatalog, Except.toOption]
      · simp [hlocale]

/-- Whether there is no catalog in a file. -/
def fails (project : Project) (file : CatalogFile) : Bool :=
  !(project.loadCatalog file.path).isOk

theorem fails_iff :
    project.fails file = true ↔ ∃ error, project.loadCatalog file.path = .error error := by
  rw [fails]
  cases project.loadCatalog file.path <;> simp [Except.isOk, Except.toBool]

theorem fails_eq_false_iff :
    project.fails file = false ↔ ∃ catalog, project.loadCatalog file.path = .ok catalog := by
  rw [fails]
  cases project.loadCatalog file.path <;> simp [Except.isOk, Except.toBool]

/-- **The first file that does not load stops the loading.** -/
theorem foldlM_loadInto_of_find? (start : Registry) (h : files.find? project.fails = some file)
    (herror : project.loadCatalog file.path = .error error) :
    files.foldlM project.loadInto start = .error error := by
  induction files generalizing start with
  | nil => cases h
  | cons first rest ih =>
    rw [List.find?_cons] at h
    rw [List.foldlM_cons]
    cases hload : project.loadCatalog first.path with
    | error fault =>
      rw [fails_iff.2 ⟨fault, hload⟩] at h
      obtain rfl := Option.some.inj h
      rw [loadInto, herror]
      rfl
    | ok catalog =>
      rw [fails_eq_false_iff.2 ⟨catalog, hload⟩] at h
      rw [loadInto_eq_ok hload]
      exact ih (start.insert first.locale catalog) h

/-! ## The registry of a folder -/

/-- Whether the file is the catalog at or below the base that counts for its locale: no other one of
the locale has a greater path. -/
structure Counts (project : Project) (base : String) (file : CatalogFile) : Prop where
  isCatalog : project.IsCatalog base file
  greatest : ∀ other, project.IsCatalog base other → other.locale = file.locale →
    Path.le other.path file.path = true

/-- Whether the file is the first catalog at or below the base, by locale and path, that does not
load, with the reason. -/
structure FailsFirst (project : Project) (base : String) (file : CatalogFile) (error : Error) :
    Prop where
  isCatalog : project.IsCatalog base file
  fails : project.loadCatalog file.path = .error error
  first : ∀ other fault, project.IsCatalog base other →
    project.loadCatalog other.path = .error fault → file.le other = true

/-- The last file of a locale that is found is the one that counts. -/
theorem find?_findCatalogs_iff (hw : project.top.WellFormed) :
    (project.findCatalogs base).reverse.find? (·.locale = locale) = some file
      ↔ project.Counts base file ∧ file.locale = locale := by
  rw [find?_reverse_eq_some_iff_greatest (pairwise_findCatalogs hw base)]
  simp only [mem_findCatalogs_iff hw, decide_eq_true_eq]
  constructor
  · rintro ⟨hcatalog, rfl, hgreatest⟩
    exact ⟨⟨hcatalog, fun other hother hsame =>
      (CatalogFile.key_le_iff hsame).1 (hgreatest other hother hsame)⟩, rfl⟩
  · rintro ⟨hcounts, rfl⟩
    exact ⟨hcounts.isCatalog, rfl, fun other hother hsame =>
      (CatalogFile.key_le_iff hsame).2 (hcounts.greatest other hother hsame)⟩

/-- For each locale of a catalog one file counts. -/
theorem exists_counts (hw : project.top.WellFormed) (h : project.IsCatalog base file) :
    ∃ last, project.Counts base last ∧ last.locale = file.locale := by
  have hsome : ((project.findCatalogs base).reverse.find? (·.locale = file.locale)).isSome := by
    rw [List.find?_isSome]
    exact ⟨file, List.mem_reverse.2 ((mem_findCatalogs_iff hw).2 h), decide_eq_true rfl⟩
  obtain ⟨last, hlast⟩ := Option.isSome_iff_exists.1 hsome
  exact ⟨last, (find?_findCatalogs_iff hw).1 hlast⟩

/-- **If every catalog loads, there is a registry.**  Its locales are those of the catalogs, and
each is bound to the catalog that counts. -/
theorem loadRegistry_of_loads (hw : project.top.WellFormed) (hfind : project.find base = .ok node)
    (hload : ∀ file, project.IsCatalog base file →
      ∃ catalog, project.loadCatalog file.path = .ok catalog) :
    ∃ registry, project.loadRegistry base = .ok registry
      ∧ (∀ locale, locale ∈ registry.locales
          ↔ ∃ file, project.IsCatalog base file ∧ file.locale = locale)
      ∧ ∀ file catalog, project.Counts base file → project.loadCatalog file.path = .ok catalog →
          registry.translator file.locale = .ok ⟨file.locale, catalog⟩ := by
  obtain ⟨registry, hregistry, hget⟩ := get?_foldlM_loadInto fun file hfile =>
    hload file ((mem_findCatalogs_iff hw).1 hfile)
  have hcounts : ∀ {file catalog}, project.Counts base file →
      project.loadCatalog file.path = .ok catalog →
        Fields.get? file.locale registry.catalogs = some catalog := by
    intro file catalog hfile hcatalog
    rw [hget, (find?_findCatalogs_iff hw).2 ⟨hfile, rfl⟩, Option.bind_some, hcatalog]
    rfl
  refine ⟨registry, (loadRegistry_eq hfind).trans hregistry, fun locale => ⟨fun hlocale => ?_, ?_⟩,
    fun file catalog hfile hcatalog => ?_⟩
  · obtain ⟨catalog, hcatalog⟩ := Option.isSome_iff_exists.1 (Fields.isSome_get?_iff.2 hlocale)
    rw [hget] at hcatalog
    obtain ⟨file, hfile, -⟩ := Option.bind_eq_some_iff.1 hcatalog
    obtain ⟨hfile, hsame⟩ := (find?_findCatalogs_iff hw).1 hfile
    exact ⟨file, hfile.isCatalog, hsame⟩
  · rintro ⟨file, hfile, rfl⟩
    obtain ⟨last, hlast, hsame⟩ := exists_counts hw hfile
    obtain ⟨catalog, hcatalog⟩ := hload last hlast.isCatalog
    refine Fields.isSome_get?_iff.1 ?_
    rw [← hsame, hcounts hlast hcatalog]
    rfl
  · rw [Registry.translator, hcounts hfile hcatalog]

/-- **If a catalog does not load, neither does the registry**, for the reason of the first one. -/
theorem loadRegistry_of_fails (hw : project.top.WellFormed) (hfind : project.find base = .ok node)
    (hfails : ∃ file, project.IsCatalog base file
      ∧ ∃ error, project.loadCatalog file.path = .error error) :
    ∃ file error, project.FailsFirst base file error
      ∧ project.loadRegistry base = .error error := by
  have hsome : ((project.findCatalogs base).find? project.fails).isSome := by
    obtain ⟨file, hfile, herror⟩ := hfails
    exact List.find?_isSome.2 ⟨file, (mem_findCatalogs_iff hw).2 hfile, fails_iff.2 herror⟩
  obtain ⟨first, hfirst⟩ := Option.isSome_iff_exists.1 hsome
  obtain ⟨hmem, hfault, hleast⟩ :=
    (find?_eq_some_iff_least (pairwise_findCatalogs hw base)).1 hfirst
  obtain ⟨error, herror⟩ := fails_iff.1 hfault
  refine ⟨first, error, ⟨(mem_findCatalogs_iff hw).1 hmem, herror, fun other fault hother h => ?_⟩,
    (loadRegistry_eq hfind).trans (foldlM_loadInto_of_find? .empty hfirst herror)⟩
  exact (CatalogFile.le_iff _ _).2
    (hleast other ((mem_findCatalogs_iff hw).2 hother) (fails_iff.2 ⟨fault, h⟩))

/-- **Another order of the listings gives the same registry**, or the same error. -/
theorem Relisted.loadRegistry_eq (h : Relisted project other) (hw : project.top.WellFormed)
    (hother : other.top.WellFormed) (base : String) :
    other.loadRegistry base = project.loadRegistry base := by
  have hload : ∀ path, other.loadCatalog path = project.loadCatalog path := fun path => by
    rw [loadCatalog, loadCatalog, h.read_eq]
  have hfind := h.find_eq base
  rw [loadRegistry, loadRegistry, h.sameFolders.findCatalogs_eq hw hother base]
  simp only [hload]
  cases hp : project.find base <;> cases ho : other.find base <;>
    simp_all [Except.map]

/-- **The registry of a folder of the project follows its catalogs.**  If every one of them loads,
there is a registry: its locales are those of the catalogs, for each of them one file counts, and
the locale is bound to the catalog of that file.  If one of them does not load, there is no
registry, for the reason of the first one by locale and path.  The order in which folders list what
they hold plays no part.  A path that leads out of the project names no folder of it. -/
theorem loadRegistry_follows_catalogs (hw : project.top.WellFormed)
    (hfind : project.find base = .ok node) :
    ((∀ file, project.IsCatalog base file →
        ∃ catalog, project.loadCatalog file.path = .ok catalog) →
      ∃ registry, project.loadRegistry base = .ok registry
        ∧ (∀ locale, locale ∈ registry.locales
            ↔ ∃ file, project.IsCatalog base file ∧ file.locale = locale)
        ∧ (∀ locale ∈ registry.locales, ∃ file, project.Counts base file ∧ file.locale = locale)
        ∧ ∀ file catalog, project.Counts base file →
            project.loadCatalog file.path = .ok catalog →
              registry.translator file.locale = .ok ⟨file.locale, catalog⟩)
      ∧ ((∃ file, project.IsCatalog base file
            ∧ ∃ error, project.loadCatalog file.path = .error error) →
          ∃ file error, project.FailsFirst base file error
            ∧ project.loadRegistry base = .error error)
      ∧ ∀ other : Project, other.top.WellFormed → Relisted project other →
          other.loadRegistry base = project.loadRegistry base := by
  refine ⟨fun hload => ?_, loadRegistry_of_fails hw hfind, fun other hother h =>
    h.loadRegistry_eq hw hother base⟩
  obtain ⟨registry, hregistry, hlocales, hbound⟩ := loadRegistry_of_loads hw hfind hload
  refine ⟨registry, hregistry, hlocales, fun locale hlocale => ?_, hbound⟩
  obtain ⟨file, hfile, rfl⟩ := (hlocales locale).1 hlocale
  exact exists_counts hw hfile

/-- Catalogs at two levels, two of them for `pt`; the inner one has this text. -/
def nestedCatalogs (inner : String) : Project where
  top := .folder [("pt.json", .text "\x7b\"hello\": \"olá\"\x7d"),
    ("app", .folder [("pt.json", .text inner)]), ("en.json", .text "\x7b\x7d")]

/-- The same catalogs, listed in another order. -/
def relistedCatalogs (inner : String) : Project where
  top := .folder [("app", .folder [("pt.json", .text inner)]), ("en.json", .text "\x7b\x7d"),
    ("pt.json", .text "\x7b\"hello\": \"olá\"\x7d")]

theorem wellFormed_nestedCatalogs (inner : String) : (nestedCatalogs inner).top.WellFormed := by
  have hnames : Path.IsName "pt.json" ∧ Path.IsName "app" ∧ Path.IsName "en.json" := by
    decide +kernel
  simp [nestedCatalogs, Node.WellFormed, Node.AllWellFormed, hnames]

theorem wellFormed_relistedCatalogs (inner : String) :
    (relistedCatalogs inner).top.WellFormed := by
  have hnames : Path.IsName "pt.json" ∧ Path.IsName "app" ∧ Path.IsName "en.json" := by
    decide +kernel
  simp [relistedCatalogs, Node.WellFormed, Node.AllWellFormed, hnames]

theorem relisted_nestedCatalogs (inner : String) :
    Relisted (nestedCatalogs inner) (relistedCatalogs inner) :=
  .of_perm (List.perm_append_singleton _ _).symm (by simp)

theorem shape_nestedCatalogs (inner : String) :
    (nestedCatalogs inner).top.shape = (nestedCatalogs "").top.shape := rfl

theorem find_nestedCatalogs (inner : String) :
    (nestedCatalogs inner).find "." = .ok (nestedCatalogs inner).top := by
  have hplace : (nestedCatalogs "").resolve "." = .ok [] := by decide +kernel
  exact find_eq_ok_iff.2 ⟨[], (resolve_congr (shape_nestedCatalogs inner)).trans hplace, rfl⟩

/-- The catalogs, which do not depend on the text. -/
def nestedFiles : List CatalogFile :=
  [⟨"pt", "./pt.json"⟩, ⟨"pt", "./app/pt.json"⟩, ⟨"en", "./en.json"⟩]

theorem isCatalog_nestedCatalogs_iff (inner : String) :
    (nestedCatalogs inner).IsCatalog "." file ↔ file ∈ nestedFiles := by
  have hfiles : ((nestedCatalogs "").findCatalogs ".").Perm nestedFiles :=
    (findCatalogs_perm (find_nestedCatalogs "")).trans (.of_eq (by decide +kernel))
  rw [← mem_findCatalogs_iff (wellFormed_nestedCatalogs inner),
    findCatalogs_congr (shape_nestedCatalogs inner), hfiles.mem_iff]

/-- The outer file of `pt` counts, in whatever order the folder is listed; but if the inner one does
not load, neither does the registry. -/
theorem loadRegistry_follows_catalogs_nestedCatalogs :
    let outer : Catalog := ⟨[("hello", .scalar "olá")], by decide +kernel⟩
    let project := nestedCatalogs "\x7b\x7d"
    let broken := nestedCatalogs ""
    project.top.WellFormed ∧ project.find "." = .ok project.top
      ∧ broken.top.WellFormed ∧ broken.find "." = .ok broken.top
      ∧ (∃ registry, project.loadRegistry "." = .ok registry
        ∧ (relistedCatalogs "\x7b\x7d").loadRegistry "." = .ok registry
        ∧ "en" ∈ registry.locales ∧ registry.translator "pt" = .ok ⟨"pt", outer⟩)
      ∧ ∃ error, broken.loadCatalog "./app/pt.json" = .error error
        ∧ broken.loadRegistry "." = .error error := by
  intro outer project broken
  have hw := wellFormed_nestedCatalogs
  have hfind := find_nestedCatalogs
  refine ⟨hw _, hfind _, hw _, hfind _, ?_, ?_⟩
  · obtain ⟨hloads, -, hrelisted⟩ := loadRegistry_follows_catalogs (hw "\x7b\x7d") (hfind _)
    have hok : ∀ file ∈ nestedFiles, project.fails file = false := by decide +kernel
    have hlast : ∀ other ∈ nestedFiles, other.locale = "pt" →
        Path.le other.path "./pt.json" = true := by decide +kernel
    have houter : (project.loadCatalog "./pt.json").toOption = some outer := by decide +kernel
    obtain ⟨registry, hregistry, hlocales, -, hbound⟩ := hloads fun file hfile =>
      fails_eq_false_iff.1 (hok file ((isCatalog_nestedCatalogs_iff _).1 hfile))
    refine ⟨registry, hregistry, ?_, ?_, ?_⟩
    · rw [hrelisted _ (wellFormed_relistedCatalogs _) (relisted_nestedCatalogs _), hregistry]
    · exact (hlocales "en").2 ⟨⟨"en", "./en.json"⟩,
        (isCatalog_nestedCatalogs_iff _).2 (by decide), rfl⟩
    · refine hbound ⟨"pt", "./pt.json"⟩ outer
        ⟨(isCatalog_nestedCatalogs_iff _).2 (by decide), fun other hother => ?_⟩ ?_
      · exact hlast other ((isCatalog_nestedCatalogs_iff _).1 hother)
      · cases hload : project.loadCatalog "./pt.json" with
        | ok catalog => simpa [hload, Except.toOption] using houter
        | error error => simp [hload, Except.toOption] at houter
  · obtain ⟨-, hfails, -⟩ := loadRegistry_follows_catalogs (hw "") (hfind _)
    have hinner : broken.fails ⟨"pt", "./app/pt.json"⟩ = true := by decide +kernel
    have honly : ∀ file ∈ nestedFiles, broken.fails file = true →
        file.path = "./app/pt.json" := by decide +kernel
    obtain ⟨file, error, hfirst, hregistry⟩ := hfails ⟨⟨"pt", "./app/pt.json"⟩,
      (isCatalog_nestedCatalogs_iff _).2 (by decide), fails_iff.1 hinner⟩
    have hpath : file.path = "./app/pt.json" :=
      honly file ((isCatalog_nestedCatalogs_iff _).1 hfirst.isCatalog)
        (fails_iff.2 ⟨error, hfirst.fails⟩)
    exact ⟨error, hpath ▸ hfirst.fails, hregistry⟩

end Phrasebook.Project
