import Phrasebook.Proofs.Project.Walk

/-!
# Proofs/Project/Catalogs — the catalogs of a folder do not depend on how it is listed

    [ b/pt.json, a/pt.json, en.json ]  ──▸  en.json  <  a/pt.json  <  b/pt.json
    [ en.json, b/pt.json, a/pt.json ]  ──▸  en.json  <  a/pt.json  <  b/pt.json

The catalog files at or below a folder are the `.json` files that can be reached
(`mem_findCatalogs_iff`), and they are found in an order that tells any two of them apart
(`pairwise_findCatalogs`).  A list that goes up is determined by its members, and what is a member
is asked of names and not of their order, so **two projects that differ in the order of their
listings have the same list** (`SameFolders.findCatalogs_eq`).
-/

namespace Phrasebook

namespace Project

variable {project : Project} {base : String} {node : Node} {file a b : CatalogFile}

/-! ## The catalogs at or below a folder -/

/-- Whether the file is one of the catalogs at or below the base: a `.json` file outside of the
folders that are never entered, with its name for the locale. -/
structure IsCatalog (project : Project) (base : String) (file : CatalogFile) : Prop where
  reaches : project.Reaches SkippedFolder base file.path
  extension : Path.extension? file.path = some "json"
  locale : Path.stem? file.path = some file.locale

/-- The `.json` files of a walk are sorted. -/
theorem findCatalogs_perm (hfind : project.find base = .ok node) :
    (project.findCatalogs base).Perm
      (((walk (fun path node => !isSkipped path node) base node).filter
        (hasExtension ["json"])).filterMap fun path =>
          (localeOf? path).map fun locale => ⟨locale, path⟩) := by
  rw [findCatalogs, hfind]
  exact List.mergeSort_perm _ _

/-- **What is found are the catalogs at or below the base.** -/
theorem mem_findCatalogs_iff (hw : project.top.WellFormed) :
    file ∈ project.findCatalogs base ↔ project.IsCatalog base file := by
  cases hfind : project.find base with
  | error fault =>
    rw [findCatalogs, hfind]
    exact iff_of_false List.not_mem_nil fun h => not_reaches_of_error hfind h.reaches
  | ok node =>
    have hkeep : ∀ path node, (!isSkipped path node) = true ↔ ¬ SkippedFolder path node :=
      fun path node => by rw [Bool.not_eq_true', ← Bool.not_eq_true, isSkipped_iff]
    simp only [(findCatalogs_perm hfind).mem_iff, List.mem_filterMap, List.mem_filter,
      hasExtension_iff, List.mem_singleton, exists_eq_left, mem_walk_iff_reaches hw hfind hkeep,
      localeOf?, Option.map_eq_some_iff]
    constructor
    · rintro ⟨path, ⟨hreaches, hextension⟩, locale, hlocale, rfl⟩
      exact ⟨hreaches, hextension, hlocale⟩
    · intro h
      exact ⟨file.path, ⟨h.reaches, h.extension⟩, file.locale, h.locale, rfl⟩

/-- Two catalogs at or below one base differ in their components. -/
theorem IsCatalog.eq_of_components_eq (ha : project.IsCatalog base a)
    (hb : project.IsCatalog base b)
    (h : Path.components a.path = Path.components b.path) : a = b := by
  obtain ⟨node, hnode⟩ := ha.reaches.exists_find_base
  have hbase := ne_empty_of_find hnode
  have hpath : a.path = b.path := by
    obtain ⟨names, hnames, hpath, -⟩ := ha.reaches
    obtain ⟨more, hmore, hpath', -⟩ := hb.reaches
    rw [hpath, hpath'] at h ⊢
    rw [Path.eq_of_components_below hbase hnames hmore h]
  have hlocale : a.locale = b.locale :=
    Option.some.inj (ha.locale.symm.trans ((congrArg Path.stem? hpath).trans hb.locale))
  cases a
  cases b
  exact congrArg₂ CatalogFile.mk hlocale hpath

/-- **The catalogs at or below a base are found in increasing order**, each of them once. -/
theorem pairwise_findCatalogs (hw : project.top.WellFormed) (base : String) :
    (project.findCatalogs base).Pairwise fun a b => a.key < b.key := by
  have hordered : (project.findCatalogs base).Pairwise fun a b => a.key ≤ b.key := by
    rw [findCatalogs]
    cases project.find base with
    | error fault => exact .nil
    | ok node => exact pairwise_mergeSort_key CatalogFile.le_iff _
  refine (hordered.and (findCatalogs_places hw base).1).imp_of_mem fun {a b} ha hb h => ?_
  refine lt_of_le_of_ne h.1 fun hkey => h.2 ?_
  have hcomponents := Path.components_eq_of_key_eq (Prod.mk.inj (toLex.injective hkey)).2
  rw [((mem_findCatalogs_iff hw).1 ha).eq_of_components_eq ((mem_findCatalogs_iff hw).1 hb)
    hcomponents]

end Project

/-! ## Another order of the listings -/

/-- The node without what it lists, if it is a folder. -/
def Node.unlisted : Node → Node
  | .folder _ => .folder []
  | node => node

namespace Project

variable {project other : Project} {base path : String} {file : CatalogFile}

/-- Whether two projects differ in the order of their listings alone: the same names lead to the
same files in both, and to folders in both. -/
def Relisted (project other : Project) : Prop :=
  ∀ names, (project.top.descend names).map Node.unlisted
    = (other.top.descend names).map Node.unlisted

namespace Relisted

/-- What a folder holds may be listed in another order. -/
theorem of_perm {children others : List (String × Node)} (h : children.Perm others)
    (hnodup : (Fields.names children).Nodup) :
    Relisted { top := .folder children } { top := .folder others } := by
  intro names
  cases names with
  | nil => rfl
  | cons name names => rw [Node.descend, Node.descend, Node.children, Node.children,
      Fields.get?_perm h hnodup]

theorem sameFolders (h : Relisted project other) : SameFolders project other :=
  .of_view h fun node => by cases node <;> rfl

/-- **Paths name the same files.** -/
theorem find_eq (h : Relisted project other) (path : String) :
    (project.find path).map Node.unlisted = (other.find path).map Node.unlisted :=
  h.sameFolders.find_eq h path

/-- **Paths read the same texts.** -/
theorem read_eq (h : Relisted project other) (path : String) :
    project.read path = other.read path := by
  have hfind := h.find_eq path
  rw [read, read]
  cases hp : project.find path with
  | error fault =>
    cases ho : other.find path with
    | error fault' => simp_all [Except.map]
    | ok node => simp [hp, ho, Except.map] at hfind
  | ok node =>
    cases ho : other.find path with
    | error fault' => simp [hp, ho, Except.map] at hfind
    | ok node' =>
      rw [hp, ho, Except.map, Except.map, Except.ok.injEq] at hfind
      cases node <;> cases node' <;> simp_all [Node.unlisted]

end Relisted

/-- What is left out by its path and by whether it is a folder is left out of both projects. -/
theorem SameFolders.reaches (h : SameFolders project other)
    (hreaches : project.Reaches SkippedFolder base path) :
    other.Reaches SkippedFolder base path := by
  have hfind : ∀ {path node}, project.find path = .ok node →
      ∃ node', other.find path = .ok node' ∧ node'.isFolder = node.isFolder := by
    intro path node hnode
    have hsame := h.find_eq h path
    rw [hnode] at hsame
    cases ho : other.find path with
    | error fault => simp [ho, Except.map] at hsame
    | ok node' =>
      rw [ho, Except.map, Except.map, Except.ok.injEq] at hsame
      exact ⟨node', rfl, hsame.symm⟩
  obtain ⟨names, hnames, hpath, hway, node, hnode, hfile⟩ := hreaches
  refine ⟨names, hnames, hpath, fun before hbefore => ?_, ?_⟩
  · obtain ⟨passed, hpassed, hin⟩ := hway before hbefore
    obtain ⟨passed', hpassed', hsame⟩ := hfind hpassed
    exact ⟨passed', hpassed', fun hout => hin ⟨hsame ▸ hout.1, hout.2⟩⟩
  · obtain ⟨node', hnode', hsame⟩ := hfind hnode
    exact ⟨node', hnode', hsame.trans hfile⟩

theorem SameFolders.isCatalog_iff (h : SameFolders project other) :
    project.IsCatalog base file ↔ other.IsCatalog base file :=
  ⟨fun ⟨hreaches, hextension, hlocale⟩ => ⟨h.reaches hreaches, hextension, hlocale⟩,
    fun ⟨hreaches, hextension, hlocale⟩ => ⟨h.symm.reaches hreaches, hextension, hlocale⟩⟩

/-- **Another order of the listings gives the same list of catalogs.** -/
theorem SameFolders.findCatalogs_eq (h : SameFolders project other)
    (hw : project.top.WellFormed) (hother : other.top.WellFormed) (base : String) :
    project.findCatalogs base = other.findCatalogs base := by
  have hsorted := pairwise_findCatalogs hw base
  have hsorted' := pairwise_findCatalogs hother base
  have hnodup : (project.findCatalogs base).Nodup :=
    hsorted.imp fun hlt he => hlt.ne (congrArg _ he)
  have hnodup' : (other.findCatalogs base).Nodup :=
    hsorted'.imp fun hlt he => hlt.ne (congrArg _ he)
  have hperm : (project.findCatalogs base).Perm (other.findCatalogs base) :=
    (List.perm_ext_iff_of_nodup hnodup hnodup').2 fun file => by
      rw [mem_findCatalogs_iff hw, mem_findCatalogs_iff hother, h.isCatalog_iff]
  exact hperm.eq_of_pairwise (fun a b _ _ hab hba => absurd hab (lt_asymm hba)) hsorted hsorted'

end Project

end Phrasebook
