import Phrasebook.Proofs.Project.Files
import Phrasebook.Proofs.Project.Order
import Phrasebook.Proofs.Project.Scan

/-!
# Proofs/Project/Places — every path of a walk leads to a file of its own

    walk "locales"  ──▸  "locales/pt.json"        "locales/old/es.json"
                              │ resolve                 │
                              ▾                         ▾
                         [locales, pt.json]       [locales, old, es.json]

In a well-formed tree the names in a folder are distinct and can stand between slashes.  Then a path
that a walk lists resolves to the names it went along, a file stands there, and **no two paths of a
walk lead to the same place**.
-/

namespace Phrasebook

namespace Node

mutual

/-- Whether every folder gives its files and folders distinct names that can stand in a path. -/
def WellFormed : Node → Prop
  | text _ => True
  | binary _ => True
  | folder children => (Fields.names children).Nodup ∧ AllWellFormed children

/-- Whether the nodes of a folder are well-formed and have names that can stand in a path. -/
def AllWellFormed : List (String × Node) → Prop
  | [] => True
  | (name, node) :: rest => Path.IsName name ∧ node.WellFormed ∧ AllWellFormed rest

end

theorem AllWellFormed.of_get? {children : List (String × Node)} {name : String} {child : Node}
    (h : AllWellFormed children) (hget : Fields.get? name children = some child) :
    Path.IsName name ∧ child.WellFormed := by
  induction children with
  | nil => cases hget
  | cons field rest ih =>
    obtain ⟨other, node⟩ := field
    rw [AllWellFormed] at h
    rw [Fields.get?_cons] at hget
    split at hget
    · rename_i hsame
      exact ⟨hsame ▸ h.1, Option.some.inj hget ▸ h.2.1⟩
    · exact ih h.2.2 hget

/-- **What lies below a well-formed node is well-formed**, and the names on the way can stand in a
path. -/
theorem WellFormed.descend {node child : Node} {names : List String} (h : node.WellFormed)
    (hd : node.descend names = some child) :
    (∀ name ∈ names, Path.IsName name) ∧ child.WellFormed := by
  induction names generalizing node with
  | nil => exact ⟨fun _ h => absurd h List.not_mem_nil, Option.some.inj hd ▸ h⟩
  | cons name names ih =>
    rw [Node.descend] at hd
    cases hget : Fields.get? name node.children with
    | none => simp [hget] at hd
    | some next =>
      rw [hget] at hd
      rw [eq_folder_of_get? hget, WellFormed] at h
      obtain ⟨hname, hnext⟩ := h.2.of_get? hget
      obtain ⟨hnames, hchild⟩ := ih hnext hd
      exact ⟨List.forall_mem_cons.2 ⟨hname, hnames⟩, hchild⟩

end Node

namespace Project

variable {project : Project} {path name : String} {place : List String}
  {children all : List (String × Node)} {node : Node} {keep : String → Node → Bool}

/-! ## Joining a name to a path -/

@[simp] theorem follow_nil {names : List String} : project.follow names [] = .ok names := by
  rw [follow.eq_def]

theorem follow_name {names : List String} (hname : Path.IsName name)
    (hd : project.top.descend names.reverse = some (.folder children))
    (hg : (Fields.get? name children).isSome) :
    project.follow names [name] = .ok (name :: names) := by
  rw [follow.eq_def]
  simp only [hd, hname.1, hname.2.1, hname.2.2.1, hg, or_self, if_false, if_true, follow_nil]

/-- Following an empty piece stays. -/
theorem follow_empty {names reached : List String}
    (h : project.follow names [""] = .ok reached) : reached = names := by
  rw [follow.eq_def] at h
  dsimp only at h
  split at h
  · cases h
  · rw [if_pos (.inl rfl), follow_nil, Except.ok.injEq] at h
    exact h.symm
  · cases h

theorem resolve_eq_ok_iff :
    project.resolve path = .ok place
      ↔ path ≠ "" ∧ Path.isAbsolute path = false
        ∧ project.follow [] (Path.pieces path) = .ok place.reverse := by
  rw [resolve]
  split
  · rename_i h
    rcases h with rfl | h <;> simp_all
  · rename_i h
    rw [not_or, Bool.not_eq_true] at h
    cases hf : project.follow [] (Path.pieces path) with
    | error fault => simp [Except.map]
    | ok names => simp [Except.map, h, List.reverse_eq_iff]

/-- **Following a joined name** is following the path and then the name. -/
theorem follow_join (hp : project.resolve path = .ok place) (hname : Path.IsName name) :
    project.follow [] (Path.pieces (Path.join path name))
      = project.follow place.reverse [name] := by
  obtain ⟨hne, -, hfollow⟩ := resolve_eq_ok_iff.1 hp
  rcases Path.pieces_join hne hname with hpieces | ⟨front, hpath, hpieces⟩
  · rw [hpieces, follow_append, hfollow]
    rfl
  · -- the name takes the place of an empty last piece, which leads nowhere else
    rw [hpath, follow_append] at hfollow
    rw [hpieces, follow_append]
    cases hfront : project.follow [] front with
    | error fault => simp [hfront, Except.bind] at hfollow
    | ok names =>
      rw [hfront] at hfollow
      rw [← follow_empty hfollow]
      rfl

/-- **A name joined to the path of a folder** leads to what has that name in the folder. -/
theorem resolve_join (hp : project.resolve path = .ok place)
    (hd : project.top.descend place = some (.folder children)) (hname : Path.IsName name)
    (hg : (Fields.get? name children).isSome) :
    project.resolve (Path.join path name) = .ok (place ++ [name]) := by
  obtain ⟨hne, habs, -⟩ := resolve_eq_ok_iff.1 hp
  refine resolve_eq_ok_iff.2 ⟨Path.join_ne_empty hname, ?_, ?_⟩
  · rw [Path.isAbsolute_join hne hname, habs]
  · rw [follow_join hp hname, List.reverse_append, List.reverse_singleton, List.singleton_append]
    exact follow_name hname (by rwa [List.reverse_reverse]) hg

/-! ## The places of a walk -/

/-- Whether the paths lead to different places, each to a file below this one. -/
def OwnPlaces (project : Project) (place : List String) (paths : List String) : Prop :=
  paths.Pairwise (fun a b => project.resolve a ≠ project.resolve b)
    ∧ ∀ path ∈ paths, ∃ names,
      project.resolve path = .ok (place ++ names) ∧ (project.fileAt (place ++ names)).isSome

theorem OwnPlaces.single (hp : project.resolve path = .ok place)
    (hd : project.top.descend place = some node) (hn : node.isFolder = false) :
    project.OwnPlaces place [path] := by
  refine ⟨List.pairwise_singleton _ _, fun found hfound => ⟨[], ?_, ?_⟩⟩
  · rw [List.mem_singleton.1 hfound, hp, List.append_nil]
  · rw [List.append_nil, fileAt_eq_some_iff.2 ⟨hd, hn⟩]
    rfl

/-- Paths below one node of a folder and paths below others lead to different places. -/
theorem OwnPlaces.append {paths more : List String} (h : project.OwnPlaces (place ++ [name]) paths)
    (hmore : project.OwnPlaces place more)
    (hother : ∀ path ∈ more, ∃ other names, other ≠ name
      ∧ project.resolve path = .ok (place ++ other :: names)) :
    project.OwnPlaces place (paths ++ more) := by
  refine ⟨List.pairwise_append.2 ⟨h.1, hmore.1, fun a ha b hb he => ?_⟩, fun path hpath => ?_⟩
  · obtain ⟨names, ha, -⟩ := h.2 a ha
    obtain ⟨other, names', hne, hb⟩ := hother b hb
    rw [ha, hb, List.append_assoc] at he
    simp only [Except.ok.injEq, List.append_cancel_left_eq, List.singleton_append,
      List.cons.injEq] at he
    exact hne he.1.symm
  · rcases List.mem_append.1 hpath with hpath | hpath
    · obtain ⟨names, hresolve, hfile⟩ := h.2 path hpath
      rw [List.append_assoc] at hresolve hfile
      exact ⟨_, hresolve, hfile⟩
    · exact hmore.2 path hpath

mutual

/-- **The paths of a walk lead to different files.** -/
theorem ownPlaces_walk (keep : String → Node → Bool) :
    ∀ (node : Node) {path : String} {place : List String}, node.WellFormed →
      project.resolve path = .ok place → project.top.descend place = some node →
        project.OwnPlaces place (walk keep path node)
  | .folder children, path, place, hw, hp, hd => by
    rw [Node.WellFormed] at hw
    rw [walk]
    split
    · exact (ownPlaces_walkAll keep children hw.2 hw.1 hp hd fun name node hmem =>
        (Fields.get?_eq_some_iff hw.1).2 hmem).1
    · exact ⟨List.Pairwise.nil, fun _ h => absurd h List.not_mem_nil⟩
  | .text content, path, place, _, hp, hd => by
    rw [walk]
    split
    · exact .single hp hd rfl
    · exact ⟨List.Pairwise.nil, fun _ h => absurd h List.not_mem_nil⟩
  | .binary bytes, path, place, _, hp, hd => by
    rw [walk]
    split
    · exact .single hp hd rfl
    · exact ⟨List.Pairwise.nil, fun _ h => absurd h List.not_mem_nil⟩

/-- The paths of a walk through a folder lead to different files, each below its own name. -/
theorem ownPlaces_walkAll (keep : String → Node → Bool) :
    ∀ (children : List (String × Node)) {path : String} {place : List String}
      {all : List (String × Node)}, Node.AllWellFormed children →
      (Fields.names children).Nodup → project.resolve path = .ok place →
      project.top.descend place = some (.folder all) →
      (∀ name node, (name, node) ∈ children → Fields.get? name all = some node) →
        project.OwnPlaces place (walkAll keep path children)
          ∧ ∀ found ∈ walkAll keep path children, ∃ name ∈ Fields.names children, ∃ names,
            project.resolve found = .ok (place ++ name :: names)
  | [], _, _, _, _, _, _, _, _ =>
    ⟨⟨List.Pairwise.nil, fun _ h => absurd h List.not_mem_nil⟩,
      fun _ h => absurd h List.not_mem_nil⟩
  | (name, node) :: rest, path, place, all, hw, hnodup, hp, hd, hall => by
    rw [Node.AllWellFormed] at hw
    obtain ⟨hname, hnode, hrest⟩ := hw
    rw [Fields.names_cons, List.nodup_cons] at hnodup
    have hget : Fields.get? name all = some node := hall name node List.mem_cons_self
    have hjoin : project.resolve (Path.join path name) = .ok (place ++ [name]) :=
      resolve_join hp hd hname (by rw [hget]; rfl)
    have hdown : project.top.descend (place ++ [name]) = some node :=
      (Node.descend_concat_eq hd name).trans hget
    have hhere := ownPlaces_walk keep node hnode hjoin hdown
    obtain ⟨hown, hbelow⟩ := ownPlaces_walkAll keep rest hrest hnodup.2 hp hd
      fun other child hmem => hall other child (List.mem_cons_of_mem _ hmem)
    rw [walkAll]
    refine ⟨hhere.append hown fun found hfound => ?_, fun found hfound => ?_⟩
    · obtain ⟨other, hother, names, hresolve⟩ := hbelow found hfound
      exact ⟨other, names, fun he => hnodup.1 (he ▸ hother), hresolve⟩
    · rcases List.mem_append.1 hfound with hfound | hfound
      · obtain ⟨names, hresolve, -⟩ := hhere.2 found hfound
        rw [List.append_assoc] at hresolve
        exact ⟨name, List.mem_cons_self, names, hresolve⟩
      · obtain ⟨other, hother, names, hresolve⟩ := hbelow found hfound
        exact ⟨other, List.mem_cons_of_mem _ hother, names, hresolve⟩

end

theorem find_eq_ok_iff :
    project.find path = .ok node
      ↔ ∃ place, project.resolve path = .ok place ∧ project.top.descend place = some node := by
  rw [find]
  cases project.resolve path with
  | error fault => simp
  | ok place =>
    cases hd : project.top.descend place with
    | none => simp [hd]
    | some found => simp [hd]

theorem ownPlaces_of_find (hw : project.top.WellFormed) (h : project.find path = .ok node)
    (keep : String → Node → Bool) : ∃ place, project.OwnPlaces place (walk keep path node) := by
  obtain ⟨place, hp, hd⟩ := find_eq_ok_iff.1 h
  exact ⟨place, ownPlaces_walk keep node (hw.descend hd).2 hp hd⟩

/-- **A scan lists every source file once.** -/
theorem nodup_scanSources (hw : project.top.WellFormed) (base : String)
    (extensions patterns : List String) :
    (project.scanSources base extensions patterns).files.Nodup := by
  rw [files_scanSources_perm.nodup_iff]
  cases hfind : project.find base with
  | error fault => exact List.Pairwise.nil
  | ok node =>
    obtain ⟨place, hown, -⟩ := ownPlaces_of_find hw hfind fun path node =>
      !isSkipped path node && !(Ignores.ofPatterns base patterns).ignores path
    exact (hown.filter (hasExtension extensions)).imp fun {a b} hne =>
      fun he : a = b => hne (by rw [he])

/-- **A scan lists its source files in increasing order.** -/
theorem pairwise_scanSources (hw : project.top.WellFormed) (base : String)
    (extensions patterns : List String) :
    (project.scanSources base extensions patterns).files.Pairwise (· < ·) := by
  have hnodup := nodup_scanSources hw base extensions patterns
  have hordered : (project.scanSources base extensions patterns).files.Pairwise (· ≤ ·) := by
    rw [scanSources]
    rcases project.find base with fault | node
    · exact .nil
    · exact pairwise_mergeSort_key (fun _ _ => decide_eq_true_iff) _
  exact hordered.imp₂ (fun a b hle hne => Std.lt_of_le_of_ne hle hne) hnodup

/-- **The catalogs at or below a folder are different files.** -/
theorem findCatalogs_places (hw : project.top.WellFormed) (base : String) :
    (project.findCatalogs base).Pairwise
        (fun a b => project.resolve a.path ≠ project.resolve b.path)
      ∧ ∀ file ∈ project.findCatalogs base, ∃ place,
        project.resolve file.path = .ok place ∧ (project.fileAt place).isSome := by
  rw [findCatalogs]
  cases hfind : project.find base with
  | error fault => exact ⟨List.Pairwise.nil, fun _ h => absurd h List.not_mem_nil⟩
  | ok node =>
    obtain ⟨place, hown, hfiles⟩ := ownPlaces_of_find hw hfind fun path node =>
      !isSkipped path node
    refine ⟨?_, fun file hfile => ?_⟩
    · have hsymm : ∀ a b : CatalogFile, project.resolve a.path ≠ project.resolve b.path →
          project.resolve b.path ≠ project.resolve a.path := fun _ _ => Ne.symm
      refine ((List.mergeSort_perm _ _).pairwise_iff (hsymm _ _)).2
        (List.pairwise_filterMap.2 ((hown.filter _).imp fun {a b} hne => ?_))
      simp only [Option.map_eq_some_iff]
      rintro _ ⟨_, -, rfl⟩ _ ⟨_, -, rfl⟩
      exact hne
    · rw [List.mem_mergeSort, List.mem_filterMap] at hfile
      obtain ⟨path, hpath, hlocale⟩ := hfile
      obtain ⟨locale, -, rfl⟩ := Option.map_eq_some_iff.1 hlocale
      obtain ⟨names, hresolve, hfile⟩ := hfiles path (List.mem_filter.1 hpath).1
      exact ⟨_, hresolve, hfile⟩

end Project

end Phrasebook
